/-
  Hexadecimal digits.

    * `hexValue?_hexLower`, `hexValue?_hexUpper`   either way of writing a digit reads back;
    * `hexByte?`   the byte that two digits stand for;
    * `ofBase?`    the number that digits to another base stand for.
-/

namespace ServiceRegistry.Text

/-- The value of a hexadecimal digit. -/
def hexValue? (c : Char) : Option Nat :=
  let n := c.toNat
  if 48 ≤ n && n ≤ 57 then some (n - 48)
  else if 97 ≤ n && n ≤ 102 then some (n - 87)
  else if 65 ≤ n && n ≤ 70 then some (n - 55)
  else none

/-- A hexadecimal digit in small letters. -/
def hexLower (n : Nat) : Char := if n < 10 then Char.ofNat (48 + n) else Char.ofNat (87 + n)

/-- A hexadecimal digit in capital letters. -/
def hexUpper (n : Nat) : Char := if n < 10 then Char.ofNat (48 + n) else Char.ofNat (55 + n)

theorem hexValue?_hexLower {n : Nat} (h : n < 16) : hexValue? (hexLower n) = some n := by
  have all : ∀ n < 16, hexValue? (hexLower n) = some n := by decide
  exact all n h

theorem hexValue?_hexUpper {n : Nat} (h : n < 16) : hexValue? (hexUpper n) = some n := by
  have all : ∀ n < 16, hexValue? (hexUpper n) = some n := by decide
  exact all n h

/-- The byte that two hexadecimal digits stand for. -/
def hexByte? (a b : Char) : Option UInt8 :=
  match hexValue? a, hexValue? b with
  | some x, some y => some (UInt8.ofNat (16 * x + y))
  | _, _ => none

/-- The number that digits to a base of at most 16 stand for. -/
def ofBase? (base : Nat) (cs : List Char) : Option Nat :=
  if cs.isEmpty then none
  else
    let digit? (c : Char) : Option Nat := (hexValue? c).filter (· < base)
    cs.foldl (fun n c => n.bind fun n => (digit? c).map (base * n + ·)) (some 0)

/-- The number that hexadecimal digits stand for. -/
def hexNatural? (cs : List Char) : Option Nat := ofBase? 16 cs

end ServiceRegistry.Text
