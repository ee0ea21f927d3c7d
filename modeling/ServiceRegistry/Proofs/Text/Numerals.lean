/-
  Numerals of a fixed width.

  A number is written with zeros in front of its digits until the text has a given width.  Such a
  text reads back as the number (`natural?_padded`), and texts of one width stand in the order of
  their numbers:

    * `lt_iff_value_lt`       digit lists of one length are ordered as the numbers they stand for,
                              by induction on both, the first digit that differs deciding;
    * `append_lt_append_iff`  texts that begin with parts of one length are ordered by these first;
    * `padded_append_lt_iff`  so two texts that begin with numerals of one width are ordered by the
                              numbers first, and by what follows when these are the same.
-/
import ServiceRegistry.Text.Decimal
import Mathlib.Algebra.Group.Nat.Defs

namespace ServiceRegistry.Text

/-! ## Reading back -/

/-- The value of digits is the one that the library reads. -/
theorem value_eq_ofDigitChars (cs : List Char) : value cs = Nat.ofDigitChars 10 cs 0 :=
  Nat.ofDigitChars_eq_foldl.symm

/-- Zeros in front do not change the value. -/
@[simp] theorem value_padded (width n : Nat) : value (padded width (digits n)) = n := by
  rw [value_eq_ofDigitChars, padded, Nat.ofDigitChars_append, Nat.ofDigitChars_replicate_zero,
    Nat.mul_zero]
  exact Nat.ofDigitChars_ten_toDigits

/-- A numeral has digits only. -/
theorem isDigit_padded {width n : Nat} {c : Char} (hc : c ∈ padded width (digits n)) :
    c.isDigit = true := by
  rcases List.mem_append.1 hc with zero | digit
  · rw [List.eq_of_mem_replicate zero]
    rfl
  · exact Nat.isDigit_of_mem_toDigits (by decide) (by decide) digit

/-- A numeral has a digit at least. -/
theorem padded_ne_nil (width n : Nat) : padded width (digits n) ≠ [] :=
  List.append_ne_nil_of_right_ne_nil _ Nat.toDigits_ne_nil

/-- A numeral reads back as its number. -/
@[simp] theorem natural?_padded (width n : Nat) : natural? (padded width (digits n)) = some n := by
  have digit : (padded width (digits n)).all Char.isDigit = true :=
    List.all_eq_true.2 fun _ hc => isDigit_padded hc
  have filled : (padded width (digits n)).isEmpty = false :=
    List.isEmpty_eq_false_iff.2 (padded_ne_nil width n)
  rw [natural?, digit, filled, value_padded]
  rfl

/-- Digits alone need no look at a sign. -/
theorem integer?_of_isDigit {cs : List Char} (digit : ∀ c ∈ cs, c.isDigit = true) (lo hi : Int) :
    integer? lo hi cs = ((natural? cs).map fun n => (n : Int)).filter fun i => lo ≤ i ∧ i ≤ hi := by
  unfold integer?
  split
  · exact absurd (digit '-' (.head _)) (by decide)
  · exact absurd (digit '+' (.head _)) (by decide)
  · rfl

/-- Two numbers have two numerals. -/
@[simp] theorem padded_inj {width m n : Nat} :
    padded width (digits m) = padded width (digits n) ↔ m = n :=
  ⟨fun same => by rw [← value_padded width m, same, value_padded], fun same => by rw [same]⟩

/-! ## The width -/

/-- A numeral is at least as long as its width. -/
theorem le_length_padded (width : Nat) (cs : List Char) : width ≤ (padded width cs).length := by
  rw [padded, List.length_append, List.length_replicate]
  omega

/-- A number that fits the width is written in just that width. -/
theorem length_padded {width n : Nat} (pos : 0 < width) (fits : n < 10 ^ width) :
    (padded width (digits n)).length = width := by
  have short : (digits n).length ≤ width := (Nat.length_toDigits_le_iff (by decide) pos).2 fits
  rw [padded, List.length_append, List.length_replicate]
  omega

/-! ## Order -/

/-- The ten digits stand in a row in the character set. -/
theorem toNat_of_isDigit {c : Char} (digit : c.isDigit = true) : 48 ≤ c.toNat ∧ c.toNat ≤ 57 := by
  simp only [Char.isDigit, Bool.and_eq_true, decide_eq_true_eq] at digit
  exact ⟨UInt32.le_iff_toNat_le.1 digit.1, UInt32.le_iff_toNat_le.1 digit.2⟩

/-- Digits are ordered as their values. -/
theorem digitValue_lt_iff {c d : Char} (hc : c.isDigit = true) (hd : d.isDigit = true) :
    digitValue c < digitValue d ↔ c < d := by
  have one := toNat_of_isDigit hc
  have other := toNat_of_isDigit hd
  show c.toNat - 48 < d.toNat - 48 ↔ c.toNat < d.toNat
  omega

/-- Two digits have two values. -/
theorem digitValue_inj {c d : Char} (hc : c.isDigit = true) (hd : d.isDigit = true) :
    digitValue c = digitValue d ↔ c = d := by
  have one := toNat_of_isDigit hc
  have other := toNat_of_isDigit hd
  rw [← Char.toNat_inj]
  show c.toNat - 48 = d.toNat - 48 ↔ c.toNat = d.toNat
  omega

/-- The first digit counts for a power of ten. -/
theorem value_cons (c : Char) (cs : List Char) :
    value (c :: cs) = digitValue c * 10 ^ cs.length + value cs := by
  have split : value ([c] ++ cs) = value [c] * 10 ^ cs.length + value cs := value_append [c] cs
  have first : value [c] = digitValue c := Nat.zero_add _
  rwa [first] at split

/-- Digits stand for a number below the power of ten of their length. -/
theorem value_lt {cs : List Char} (digit : ∀ c ∈ cs, c.isDigit = true) :
    value cs < 10 ^ cs.length := by
  induction cs with
  | nil => decide
  | cons c cs ih =>
    have rest : value cs < 10 ^ cs.length := ih fun d hd => digit d (.tail _ hd)
    have first : digitValue c ≤ 9 := by
      have := toNat_of_isDigit (digit c (.head _))
      unfold digitValue
      omega
    have most : digitValue c * 10 ^ cs.length ≤ 9 * 10 ^ cs.length := Nat.mul_le_mul_right _ first
    rw [value_cons, List.length_cons, Nat.pow_succ]
    omega

/-- What stands in front of a smaller number counts for more. -/
theorem positional_lt_iff {a b m n base : Nat} (hm : m < base) (hn : n < base) :
    a * base + m < b * base + n ↔ a < b ∨ a = b ∧ m < n := by
  rcases Nat.lt_trichotomy a b with less | rfl | more
  · have apart : (a + 1) * base ≤ b * base := Nat.mul_le_mul_right _ less
    rw [Nat.add_mul] at apart
    omega
  · omega
  · have apart : (b + 1) * base ≤ a * base := Nat.mul_le_mul_right _ more
    rw [Nat.add_mul] at apart
    omega

/-- Digit lists of one length stand in the order of their numbers. -/
theorem lt_iff_value_lt {cs ds : List Char} (hc : ∀ c ∈ cs, c.isDigit = true)
    (hd : ∀ d ∈ ds, d.isDigit = true) (same : cs.length = ds.length) :
    cs < ds ↔ value cs < value ds := by
  induction cs generalizing ds with
  | nil =>
    cases ds with
    | nil => simp
    | cons d ds => cases same
  | cons c cs ih =>
    cases ds with
    | nil => cases same
    | cons d ds =>
      have hcs : ∀ c ∈ cs, c.isDigit = true := fun x hx => hc x (.tail _ hx)
      have hds : ∀ d ∈ ds, d.isDigit = true := fun x hx => hd x (.tail _ hx)
      have rest : cs.length = ds.length := Nat.succ.inj same
      rw [List.cons_lt_cons_iff, ih hcs hds rest, value_cons, value_cons, ← rest,
        positional_lt_iff (value_lt hcs) (rest ▸ value_lt hds),
        digitValue_lt_iff (hc c (.head _)) (hd d (.head _)),
        digitValue_inj (hc c (.head _)) (hd d (.head _))]

/-- Texts that begin with parts of one length are ordered by these, and by what follows when the
    parts are the same. -/
theorem append_lt_append_iff {xs ys : List Char} (same : xs.length = ys.length)
    (s t : List Char) : xs ++ s < ys ++ t ↔ xs < ys ∨ xs = ys ∧ s < t := by
  induction xs generalizing ys with
  | nil =>
    cases ys with
    | nil => simp
    | cons y ys => cases same
  | cons x xs ih =>
    cases ys with
    | nil => cases same
    | cons y ys =>
      rw [List.cons_append, List.cons_append, List.cons_lt_cons_iff, List.cons_lt_cons_iff,
        ih (Nat.succ.inj same), List.cons.injEq, and_or_left, and_assoc, or_assoc]

/-- Texts that begin with numerals of one width are ordered by the numbers, and by what follows
    when the numbers are the same. -/
theorem padded_append_lt_iff {width m n : Nat} (pos : 0 < width) (hm : m < 10 ^ width)
    (hn : n < 10 ^ width) (s t : List Char) :
    padded width (digits m) ++ s < padded width (digits n) ++ t ↔ m < n ∨ m = n ∧ s < t := by
  have same : (padded width (digits m)).length = (padded width (digits n)).length := by
    rw [length_padded pos hm, length_padded pos hn]
  rw [append_lt_append_iff same, padded_inj,
    lt_iff_value_lt (fun _ => isDigit_padded) (fun _ => isDigit_padded) same, value_padded,
    value_padded]

end ServiceRegistry.Text
