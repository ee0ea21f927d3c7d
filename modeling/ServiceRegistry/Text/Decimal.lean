/-
  Decimal numerals.

  `digits` writes a natural number, `value` reads a digit list.  `natural?` and `integer?` accept
  exactly one or more ASCII digits, the latter after an optional sign; `padded` fills with zeros on
  the left.

    * `value_append`   reading is positional.
-/

namespace ServiceRegistry.Text

/-- The decimal digits of `n`, most significant first. -/
def digits (n : Nat) : List Char := Nat.toDigits 10 n

/-- The number a digit character stands for. -/
def digitValue (c : Char) : Nat := c.toNat - 48

/-- The number a digit list stands for. -/
def value (cs : List Char) : Nat := cs.foldl (fun n c => 10 * n + digitValue c) 0

/-- The decimal text of an integer. -/
def integerText : Int → List Char
  | .ofNat n => digits n
  | .negSucc n => '-' :: digits (n + 1)

/-- Fills up with zeros on the left to at least `width` characters. -/
def padded (width : Nat) (cs : List Char) : List Char :=
  List.replicate (width - cs.length) '0' ++ cs

/-- The number written by one or more ASCII digits. -/
def natural? (cs : List Char) : Option Nat :=
  if cs.isEmpty || !cs.all Char.isDigit then none else some (value cs)

/-- The number written by an optional plus sign and one or more ASCII digits, if at most `max`. -/
def unsigned? (max : Nat) (cs : List Char) : Option Nat :=
  let body := match cs with | '+' :: r => r | _ => cs
  (natural? body).filter (· ≤ max)

/-- The number written by an optional sign and one or more ASCII digits, if in `lo … hi`. -/
def integer? (lo hi : Int) (cs : List Char) : Option Int :=
  let read := match cs with
    | '-' :: r => (natural? r).map fun n => -(n : Int)
    | '+' :: r => (natural? r).map fun n => (n : Int)
    | _ => (natural? cs).map fun n => (n : Int)
  read.filter fun i => lo ≤ i ∧ i ≤ hi

theorem value_append (cs ds : List Char) :
    value (cs ++ ds) = value cs * Nat.pow 10 ds.length + value ds := by
  have fold : ∀ (ds : List Char) (n : Nat),
      ds.foldl (fun n c => 10 * n + digitValue c) n
        = n * Nat.pow 10 ds.length + ds.foldl (fun n c => 10 * n + digitValue c) 0 := by
    intro ds
    induction ds with
    | nil => simp
    | cons d ds ih =>
      intro n
      rw [List.foldl_cons, ih, List.foldl_cons, ih (10 * 0 + digitValue d), List.length_cons,
        Nat.pow]
      grind
  rw [value, List.foldl_append, fold ds]
  rfl

end ServiceRegistry.Text
