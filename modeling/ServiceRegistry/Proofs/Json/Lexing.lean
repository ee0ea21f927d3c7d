/-
  Reading back the tokens of a value.

  The text of a value is read as the tokens of the value (`tokens_compact`), as long as its numbers
  are integers of at most 64 bits (`Value.Exact`).

  1. A string comes back character by character (`tokensFrom_escape`), since every escape stands for
     the character it was made of.
  2. An integer comes back when nothing goes on with its digits (`Stops`); in a value a mark or the
     end of the text follows each number.
  3. A value is `Legible` when it comes back in front of any such text; containers are when what
     they contain is.
-/
import ServiceRegistry.Json.Lexer
import ServiceRegistry.Json.Value
import Mathlib.Tactic.SplitIfs

namespace ServiceRegistry.Text.Octets

@[simp] theorem ofText_nil : ofText [] = [] := rfl

@[simp] theorem ofText_cons (c : Char) (cs : List Char) : ofText (c :: cs) = some c :: ofText cs :=
  rfl

/-- The bytes of a text are those of its parts, one after the other. -/
@[simp] theorem ofText_append (cs ds : List Char) : ofText (cs ++ ds) = ofText cs ++ ofText ds :=
  List.map_append

end ServiceRegistry.Text.Octets

namespace ServiceRegistry.Json

open ServiceRegistry.Text

/-! ## Strings -/

/-- The code unit of a control character is pushed as the character: it is no half of a surrogate
    pair. -/
theorem pushUnit_control {p : Piece} (whole : p.high = none) {c : Char} (h : c.toNat < 0x20) :
    p.pushUnit c.toNat = p.push c := by
  have low : ¬ 0xD800 ≤ c.toNat := by omega
  have low' : ¬ 0xDC00 ≤ c.toNat := by omega
  simp [Piece.pushUnit, whole, low, low', Char.ofNat_toNat]

/-- The four digits of a control character. -/
theorem tokensFrom_control {p : Piece} (whole : p.high = none) {c : Char} (h : c.toNat < 0x20)
    (rest : Octets) :
    tokensFrom (.unicode p 4 0)
        (some '0' :: some '0' :: some (hexLower (c.toNat / 16)) :: some (hexLower (c.toNat % 16))
          :: rest)
      = tokensFrom (.string (p.push c)) rest := by
  have zero : hexValue? '0' = some 0 := by decide
  have high := hexValue?_hexLower (n := c.toNat / 16) (by omega)
  have low := hexValue?_hexLower (n := c.toNat % 16) (by omega)
  have sum : c.toNat / 16 * 16 + c.toNat % 16 = c.toNat := by omega
  simp [tokensFrom, step, zero, high, low, sum, pushUnit_control whole h]

/-- One character of a string comes back from its escape, whichever of the escapes it has. -/
theorem tokensFrom_escape {p : Piece} (whole : p.high = none) (c : Char) (rest : Octets) :
    tokensFrom (.string p) (Octets.ofText (escape c) ++ rest)
      = tokensFrom (.string (p.push c)) rest := by
  unfold escape
  split_ifs with quote backslash back form line ret tab control
  all_goals try subst c
  all_goals try (simp [tokensFrom, step, escaped?]; done)
  -- what is left: a control character in hexadecimal, and a character that stands for itself
  · have begins : tokensFrom (.string p) (some '\\' :: some 'u' :: some '0' :: some '0'
        :: some (hexLower (c.toNat / 16)) :: some (hexLower (c.toNat % 16)) :: rest)
        = tokensFrom (.unicode p 4 0) (some '0' :: some '0' :: some (hexLower (c.toNat / 16))
          :: some (hexLower (c.toNat % 16)) :: rest) := by
      simp [tokensFrom, step]
    exact begins.trans (tokensFrom_control whole control rest)
  · simp [tokensFrom, step, quote, backslash, control]

/-- The body of a string comes back up to the closing quote. -/
theorem tokensFrom_text {p : Piece} (whole : p.high = none) (cs : List Char) (rest : Octets) :
    tokensFrom (.string p) (Octets.ofText (cs.flatMap escape ++ ['"']) ++ rest)
      = Piece.token ⟨cs.reverse ++ p.read, none, p.sound⟩ :: tokensFrom .between rest := by
  induction cs generalizing p with
  | nil =>
    obtain ⟨read, high, sound⟩ := p
    obtain rfl : high = none := whole
    simp [tokensFrom, step]
  | cons c cs ih =>
    have pushed : p.push c = ⟨c :: p.read, none, p.sound⟩ := by simp [Piece.push, whole]
    rw [List.flatMap_cons, List.append_assoc, Octets.ofText_append, List.append_assoc,
      tokensFrom_escape whole, ih (by rw [pushed]), pushed]
    simp

/-- A quoted string is read as one token. -/
theorem tokensFrom_quoted (s : String) (rest : Octets) :
    tokensFrom .between (Octets.ofText (quoted s) ++ rest)
      = .string (some s) :: tokensFrom .between rest := by
  have opens : tokensFrom .between (Octets.ofText (quoted s) ++ rest)
      = tokensFrom (.string {}) (Octets.ofText (s.toList.flatMap escape ++ ['"']) ++ rest) := by
    simp [quoted, tokensFrom, step, start]
  rw [opens, tokensFrom_text rfl]
  simp [Piece.token]

/-! ## Integers -/

/-- Nothing goes on with a numeral.  This is the only place where the lexer has to look at what
    follows a token. -/
def Stops (rest : Octets) : Prop :=
  ∀ c, rest.head? = some (some c) → c.isDigit = false ∧ c ≠ '.' ∧ c ≠ 'e' ∧ c ≠ 'E'

/-- The end of the text stops a numeral. -/
theorem stops_nil : Stops [] := nofun

/-- A numeral is closed by what stops it, and read as the literal it has gathered. -/
theorem tokensFrom_number {l : Literal} {place : Place} {rest : Octets} (closes : place.closes)
    (stops : Stops rest) :
    tokensFrom (.number l place) rest = .number l.number? :: tokensFrom .between rest := by
  cases rest with
  | nil => simp [tokensFrom, finish, closes]
  | cons o os =>
    have no_digit : ∀ c, o = some c → c.isDigit = false := fun c eq => (stops c (by simp [eq])).1
    -- no character that stops a numeral extends it, at whichever place of the numeral it stands
    have ends : (o.bind fun c => l.extend? c place) = none := by
      cases o with
      | none => rfl
      | some c =>
        obtain ⟨digit, point, small, capital⟩ := stops c rfl
        cases place <;> simp [Literal.extend?, digit, point, small, capital] <;>
          exact absurd closes (by decide)
    have fits : ¬ (place = .zero ∧ (o.map Char.isDigit).getD false = true) := by
      rintro ⟨-, digit⟩
      cases o with
      | none => exact nomatch digit
      | some c => simp [no_digit c rfl] at digit
    simp [tokensFrom, step, ends, if_neg fits, closes]

/-- Digits in the whole part of a numeral are gathered, the last one in front. -/
theorem tokensFrom_digits {l : Literal} (ds : List Char) (digits : ∀ c ∈ ds, c.isDigit = true)
    (rest : Octets) :
    tokensFrom (.number l .whole) (Octets.ofText ds ++ rest)
      = tokensFrom (.number { l with whole := ds.reverse ++ l.whole } .whole) rest := by
  induction ds generalizing l with
  | nil => rfl
  | cons c ds ih =>
    have goes_on : l.extend? c .whole = some ({ l with whole := c :: l.whole }, .whole) := by
      simp [Literal.extend?, digits c (.head _)]
    have pushed := ih (l := { l with whole := c :: l.whole }) fun d hd => digits d (.tail _ hd)
    simpa [tokensFrom, step, goes_on] using pushed

/-- Digits whose value fits a word are all gathered, since the value never sinks. -/
theorem gather_of_le {cs : List Char} {n : Nat}
    (fits : cs.foldl (fun n c => 10 * n + digitValue c) n ≤ maxWord) :
    gather n cs = (cs.foldl (fun n c => 10 * n + digitValue c) n, []) := by
  -- a digit more never makes the value smaller, so that each prefix fits when the whole does
  have grows : ∀ (cs : List Char) (n : Nat),
      n ≤ cs.foldl (fun n c => 10 * n + digitValue c) n := by
    intro cs
    induction cs with
    | nil => exact fun n => Nat.le_refl n
    | cons c cs ih => exact fun n => Nat.le_trans (by omega) (ih (10 * n + digitValue c))
  induction cs generalizing n with
  | nil => rfl
  | cons c cs ih =>
    have here : n * 10 + digitValue c ≤ maxWord := by
      have := grows cs (10 * n + digitValue c)
      rw [List.foldl_cons] at fits
      omega
    rw [gather, if_pos here, Nat.mul_comm n 10]
    exact ih fits

/-- The digits of a word are gathered to the word. -/
theorem gather_digits {n : Nat} (fits : n ≤ maxWord) : gather 0 (digits n) = (n, []) := by
  have reads : (digits n).foldl (fun n c => 10 * n + digitValue c) 0 = n :=
    (Nat.ofDigitChars_eq_foldl).symm.trans Nat.ofDigitChars_ten_toDigits
  have gathered : gather 0 (digits n)
      = ((digits n).foldl (fun n c => 10 * n + digitValue c) 0, []) :=
    gather_of_le (by rwa [reads])
  rwa [reads] at gathered

/-- The digits of a positive number begin with one that is not zero. -/
theorem digits_of_pos (n : Nat) (pos : 0 < n) :
    ∃ (d : Nat) (ds : List Char), digits n = d.digitChar :: ds ∧ 0 < d ∧ d < 10
      ∧ ∀ c ∈ ds, c.isDigit = true := by
  induction n using Nat.strongRecOn with
  | _ n ih =>
    by_cases small : n < 10
    · exact ⟨n, [], Nat.toDigits_of_lt_base small, pos, small, nofun⟩
    · obtain ⟨d, ds, eq, low, high, rest⟩ := ih (n / 10) (by omega) (by omega)
      refine ⟨d, ds ++ [(n % 10).digitChar], ?_, low, high, fun c hc => ?_⟩
      · unfold digits at eq ⊢
        rw [Nat.toDigits_of_base_le (by omega) (by omega), eq, List.cons_append]
      · rcases List.mem_append.1 hc with hc | hc
        · exact rest c hc
        · rw [List.mem_singleton.1 hc, Nat.isDigit_digitChar, decide_eq_true_eq]
          omega

/-- An integer that is read exactly. -/
def Number.Exact : Number → Prop
  | .int i => Int64.minValue.toInt ≤ i ∧ i ≤ maxWord
  | .real _ => False

/-- A word comes back from its digits: zero on its own, any other number with no zero in front. -/
theorem tokensFrom_natural {n : Nat} (fits : n ≤ maxWord) {rest : Octets} (stops : Stops rest) :
    tokensFrom .between (Octets.ofText (digits n) ++ rest)
      = .number (some (.int n)) :: tokensFrom .between rest := by
  -- zero has a place of its own in the lexer, where no digit may follow
  rcases Nat.eq_zero_or_pos n with rfl | pos
  · have zero : tokensFrom .between (Octets.ofText (digits 0) ++ rest)
        = tokensFrom (.number { whole := ['0'] } .zero) rest := rfl
    rw [zero, tokensFrom_number rfl stops]
    rfl
  · obtain ⟨d, ds, eq, low, high, others⟩ := digits_of_pos n pos
    have first : ∀ d < 10, 0 < d →
        start (some (Nat.digitChar d)) = ([], .number { whole := [Nat.digitChar d] } .whole) := by
      decide
    have begins : tokensFrom .between (Octets.ofText (digits n) ++ rest)
        = tokensFrom (.number { whole := [d.digitChar] } .whole) (Octets.ofText ds ++ rest) := by
      rw [eq]
      simp [tokensFrom, step, first d high low]
    have number : Literal.number? { whole := ds.reverse ++ [d.digitChar] } = some (.int n) := by
      have gathered := gather_digits fits
      rw [eq] at gathered
      simp [Literal.number?, gathered]
    rw [begins, tokensFrom_digits ds others, tokensFrom_number rfl stops, number]

/-- A negative integer of 64 bits comes back from its sign and its digits. -/
theorem tokensFrom_negative {n : Nat} (fits : Int64.minValue.toInt ≤ -((n + 1 : Nat) : Int))
    {rest : Octets} (stops : Stops rest) :
    tokensFrom .between (some '-' :: (Octets.ofText (digits (n + 1)) ++ rest))
      = .number (some (.int (-((n + 1 : Nat) : Int)))) :: tokensFrom .between rest := by
  obtain ⟨d, ds, eq, low, high, others⟩ := digits_of_pos (n + 1) (Nat.succ_pos n)
  have first : ∀ d < 10, 0 < d → Literal.extend? { negative := true } (Nat.digitChar d) .minus
      = some ({ negative := true, whole := [Nat.digitChar d] }, .whole) := by
    decide
  have begins : tokensFrom .between (some '-' :: (Octets.ofText (digits (n + 1)) ++ rest))
      = tokensFrom (.number { negative := true, whole := [d.digitChar] } .whole)
          (Octets.ofText ds ++ rest) := by
    rw [eq]
    simp [tokensFrom, step, start, first d high low]
  have lowest : Int64.minValue.toInt = -9223372036854775808 := by decide
  have word : maxWord = 18446744073709551615 := by decide
  have number : Literal.number? { negative := true, whole := ds.reverse ++ [d.digitChar] }
      = some (.int (-((n + 1 : Nat) : Int))) := by
    have gathered := gather_digits (n := n + 1) (by omega)
    rw [eq] at gathered
    simp [Literal.number?, gathered]
    omega
  rw [begins, tokensFrom_digits ds others, tokensFrom_number rfl stops, number]

/-- An integer that is read exactly comes back from its text. -/
theorem tokensFrom_integer {i : Int} (exact_ : (Number.int i).Exact) {rest : Octets}
    (stops : Stops rest) :
    tokensFrom .between (Octets.ofText (integerText i) ++ rest)
      = .number (some (.int i)) :: tokensFrom .between rest := by
  cases i with
  | ofNat n => exact tokensFrom_natural (Int.ofNat_le.1 exact_.2) stops
  | negSucc n => exact tokensFrom_negative exact_.1 stops

/-! ## Values -/

namespace Value

/-- All numbers of a value are read exactly. -/
inductive Exact : Value → Prop
  | null : Exact .null
  | bool (b : Bool) : Exact (.bool b)
  | number {n : Number} (h : n.Exact) : Exact (.number n)
  | string (s : String) : Exact (.string s)
  | array {vs : List Value} (h : ∀ v ∈ vs, Exact v) : Exact (.array vs)
  | object {ms : List (String × Value)} (h : ∀ m ∈ ms, Exact m.2) : Exact (.object ms)

/-- The tokens of a value come back from its text, whatever follows that stops a numeral.  The rest
    is any text, so that a value is legible inside a container as it is on its own. -/
def Legible (v : Value) : Prop :=
  ∀ rest, Stops rest →
    tokensFrom .between (Octets.ofText (render v.tokens) ++ rest)
      = v.tokens ++ tokensFrom .between rest

/-- The text of tokens is that of their parts, one after the other. -/
@[simp] theorem render_append (ts us : List Token) : render (ts ++ us) = render ts ++ render us :=
  List.flatMap_append

/-- After an item comes a comma or the closing bracket. -/
theorem stops_itemTokens (vs : List Value) (rest : Octets) :
    Stops (Octets.ofText (render (itemTokens vs)) ++ rest) := by
  intro c first
  cases vs <;> simp [itemTokens, render, Token.text] at first <;> subst first <;> decide

/-- After a member comes a comma or the closing brace. -/
theorem stops_memberTokens (ms : List (String × Value)) (rest : Octets) :
    Stops (Octets.ofText (render (memberTokens ms)) ++ rest) := by
  intro c first
  rcases ms with _ | ⟨⟨k, v⟩, ms⟩ <;> simp [memberTokens, render, Token.text] at first <;>
    subst first <;> decide

/-- A mark is read as it is. -/
theorem tokensFrom_mark {t : Token} {c : Char} (text : t.text = [c])
    (reads : start (some c) = ([t], .between)) (ts : List Token) (rest : Octets) :
    tokensFrom .between (Octets.ofText (render (t :: ts)) ++ rest)
      = t :: tokensFrom .between (Octets.ofText (render ts) ++ rest) := by
  simp [render, text, tokensFrom, step, reads]

/-- A legible value comes back in front of tokens that stop a numeral. -/
theorem tokensFrom_value {v : Value} (legible : v.Legible) {ts : List Token} {rest : Octets}
    (stops : Stops (Octets.ofText (render ts) ++ rest)) :
    tokensFrom .between (Octets.ofText (render (v.tokens ++ ts)) ++ rest)
      = v.tokens ++ tokensFrom .between (Octets.ofText (render ts) ++ rest) := by
  rw [render_append, Octets.ofText_append, List.append_assoc]
  exact legible _ stops

/-- The further items of an array come back, up to its closing bracket. -/
theorem tokensFrom_items {vs : List Value} (legible : ∀ v ∈ vs, v.Legible) (rest : Octets) :
    tokensFrom .between (Octets.ofText (render (itemTokens vs)) ++ rest)
      = itemTokens vs ++ tokensFrom .between rest := by
  induction vs with
  | nil => rfl
  | cons v vs ih =>
    rw [itemTokens, tokensFrom_mark rfl rfl, tokensFrom_value (legible v (.head _))
      (stops_itemTokens vs rest), ih fun v hv => legible v (.tail _ hv)]
    simp

/-- A key, its colon and its value. -/
theorem tokensFrom_member {k : String} {v : Value} (legible : v.Legible) {ts : List Token}
    {rest : Octets} (stops : Stops (Octets.ofText (render ts) ++ rest)) :
    tokensFrom .between
        (Octets.ofText (render (.string (some k) :: .colon :: (v.tokens ++ ts))) ++ rest)
      = .string (some k) :: .colon :: (v.tokens
          ++ tokensFrom .between (Octets.ofText (render ts) ++ rest)) := by
  have key : render (.string (some k) :: .colon :: (v.tokens ++ ts))
      = quoted k ++ render (.colon :: (v.tokens ++ ts)) := by
    simp [render, Token.text]
  rw [key, Octets.ofText_append, List.append_assoc, tokensFrom_quoted, tokensFrom_mark rfl rfl,
    tokensFrom_value legible stops]

/-- The further members of an object come back, up to its closing brace. -/
theorem tokensFrom_members {ms : List (String × Value)} (legible : ∀ m ∈ ms, m.2.Legible)
    (rest : Octets) :
    tokensFrom .between (Octets.ofText (render (memberTokens ms)) ++ rest)
      = memberTokens ms ++ tokensFrom .between rest := by
  induction ms with
  | nil => rfl
  | cons m ms ih =>
    rw [memberTokens, tokensFrom_mark rfl rfl, tokensFrom_member (legible m (.head _))
      (stops_memberTokens ms rest), ih fun m hm => legible m (.tail _ hm)]
    simp

/-- A value whose numbers are read exactly is legible, by induction on the value. -/
theorem Exact.legible {v : Value} (h : v.Exact) : v.Legible := by
  induction h with
  | null => exact fun rest _ => rfl
  | bool b => cases b <;> exact fun rest _ => rfl
  | @number n h =>
    intro rest stops
    cases n with
    | int i => simpa [tokens, render, Token.text, Number.text] using tokensFrom_integer h stops
    | real bits => exact h.elim
  | string s =>
    intro rest _
    simpa [tokens, render, Token.text] using tokensFrom_quoted s rest
  | @array vs _ ih =>
    intro rest _
    cases vs with
    | nil => rfl
    | cons v vs =>
      rw [tokens, tokensFrom_mark rfl rfl, tokensFrom_value (ih v (.head _))
        (stops_itemTokens vs rest), tokensFrom_items fun v hv => ih v (.tail _ hv)]
      simp
  | @object ms _ ih =>
    intro rest _
    rcases ms with _ | ⟨⟨k, v⟩, ms⟩
    · rfl
    · rw [tokens, tokensFrom_mark rfl rfl, tokensFrom_member (ih (k, v) (.head _))
        (stops_memberTokens ms rest), tokensFrom_members fun m hm => ih m (.tail _ hm)]
      simp

/-- The text of a value is read as the tokens of the value. -/
theorem tokens_compact {v : Value} (h : v.Exact) :
    Json.tokens (Octets.ofText v.compact) = v.tokens := by
  simpa [Json.tokens, compact, tokensFrom, finish] using h.legible [] stops_nil

end Value

end ServiceRegistry.Json
