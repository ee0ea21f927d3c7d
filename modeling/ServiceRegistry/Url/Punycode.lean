/-
  Labels of domains in ASCII.

  A label with other characters is written as its ASCII characters, a hyphen, and then the others in
  ascending order, each as a difference: how many positions the counter of code points and places
  has to move on.  Differences are numerals to base 36 whose digits have varying thresholds; the
  thresholds adapt to the size of the differences so far.

    * `encode`           the text of a label, without the mark in front of it;
    * `decode?`          the label that a text stands for;
    * `threshold_mem`    a threshold is between 1 and 26, so numerals end.
-/

namespace ServiceRegistry.Punycode

/-! ## Numerals -/

/-- A digit: the letters, then the decimal digits. -/
def digit (n : Nat) : Char := if n < 26 then Char.ofNat (97 + n) else Char.ofNat (22 + n)

/-- The threshold of the digit at a place, 36 for each place, given the bias. -/
def threshold (bias place : Nat) : Nat := max 1 (min 26 (place - bias))

theorem threshold_mem (bias place : Nat) :
    1 ≤ threshold bias place ∧ threshold bias place ≤ 26 := by
  unfold threshold
  omega

/-- The numeral of a difference, from a place on. -/
def numeral (bias place n : Nat) : List Char :=
  let t := threshold bias place
  if n < t then [digit n]
  else digit (t + (n - t) % (36 - t)) :: numeral bias (place + 36) ((n - t) / (36 - t))
termination_by n
decreasing_by
  have h := threshold_mem bias place
  exact Nat.lt_of_le_of_lt (Nat.div_le_self ..) (by omega)

/-- How many times a difference is divided by 35 until it is small, and what is left. -/
def reduced (n : Nat) : Nat × Nat :=
  if 455 < n then
    let (times, left) := reduced (n / 35)
    (times + 1, left)
  else (0, n)
termination_by n
decreasing_by exact Nat.div_lt_self (by omega) (by omega)

/-- The bias after a difference, `written` characters being written then. -/
def adapted (n written : Nat) (isFirst : Bool) : Nat :=
  let n := if isFirst then n / 700 else n / 2
  let (times, left) := reduced (n + n / written)
  36 * times + 36 * left / (left + 38)

/-! ## Writing -/

/-- What is written so far: the text, the number of characters in it, the bias, and how far the
    counter has moved since the last difference. -/
structure Writing where
  text : List Char
  written : Nat
  bias : Nat := 72
  moved : Nat := 0
  isFirst : Bool := true

/-- Passes a character of the label while those with code `n` are written. -/
def Writing.pass (n : Nat) (w : Writing) (c : Char) : Writing :=
  if c.toNat < n then { w with moved := w.moved + 1 }
  else if c.toNat = n then
    { text := w.text ++ numeral w.bias 36 w.moved
      written := w.written + 1
      bias := adapted w.moved (w.written + 1) w.isFirst
      isFirst := false }
  else w

/-- Writes the characters with these codes, in ascending order, the counter standing at `next`. -/
def Writing.passAll (label : List Char) : Nat → List Nat → Writing → Writing
  | _, [], w => w
  | next, n :: ns, w =>
    -- Each code on the way has one place more than there are characters written.
    let w := { w with moved := w.moved + (n - next) * (w.written + 1) }
    let w := label.foldl (Writing.pass n) w
    Writing.passAll label (n + 1) ns { w with moved := w.moved + 1 }

/-- Puts a code into an ascending list, once. -/
def place (n : Nat) : List Nat → List Nat
  | [] => [n]
  | m :: ms => if n < m then n :: m :: ms else if n = m then m :: ms else m :: place n ms

/-- The text of a label. -/
def encode (label : List Char) : List Char :=
  let plain := label.filter (·.toNat < 128)
  let codes := (label.filter (128 ≤ ·.toNat)).foldl (fun ns c => place c.toNat ns) []
  let front := if plain.isEmpty then [] else plain ++ ['-']
  (Writing.passAll label 128 codes { text := front, written := plain.length }).text

/-! ## Reading -/

/-- The value of a digit. -/
def digit? (c : Char) : Option Nat :=
  if 'a' ≤ c && c ≤ 'z' then some (c.toNat - 97)
  else if 'A' ≤ c && c ≤ 'Z' then some (c.toNat - 65)
  else if c.isDigit then some (c.toNat - 22)
  else none

/-- Takes a numeral off a text, from a place on. -/
def takeNumeral (bias : Nat) : Nat → List Char → Option (Nat × List Char)
  | _, [] => none
  | place, c :: cs =>
    (digit? c).bind fun d =>
      let t := threshold bias place
      if d < t then some (d, cs)
      else (takeNumeral bias (place + 36) cs).map fun (n, cs) => (d + (36 - t) * n, cs)

/-- What is read so far: the label, the code and the place that the counter stands at, and the
    bias. -/
structure Reading where
  label : List Char
  code : Nat := 128
  place : Nat := 0
  bias : Nat := 72
  isFirst : Bool := true

/-- Moves the counter on by a difference and puts the character there into the label. -/
def Reading.move (n : Nat) (r : Reading) : Option Reading :=
  let size := r.label.length + 1
  let code := r.code + (r.place + n) / size
  let place := (r.place + n) % size
  if h : code.isValidChar then
    some
      { label := r.label.take place ++ Char.ofNatAux code h :: r.label.drop place
        code
        place := place + 1
        bias := adapted n size r.isFirst
        isFirst := false }
  else none

/-- Reads at most so many differences. -/
def Reading.moveAll : Nat → List Char → Reading → Option Reading
  | _, [], r => some r
  | 0, _, _ => none
  | fuel + 1, cs, r =>
    (takeNumeral r.bias 36 cs).bind fun (n, cs) => (r.move n).bind (Reading.moveAll fuel cs)

/-- The label that a text stands for. -/
def decode? (text : List Char) : Option (List Char) :=
  let plain := (text.reverse.dropWhile (· ≠ '-')).drop 1 |>.reverse
  let numerals := (text.reverse.takeWhile (· ≠ '-')).reverse
  (Reading.moveAll numerals.length numerals { label := plain }).map (·.label)

end ServiceRegistry.Punycode
