/-
  Reading JSON tokens.

  The lexer is an automaton over octets: `step` takes one octet and says which tokens it completes,
  `finish` what is left at the end.  A numeral is completed by the octet after it, so `step` then
  starts afresh with that octet (`start`).

    * `Literal.number?`   the number a numeral denotes, `none` beyond the range of a double;
    * `tokens`            the tokens of a text.
-/
import ServiceRegistry.Json.Token
import ServiceRegistry.Text.Hex
import ServiceRegistry.Text.Octets

namespace ServiceRegistry.Json

open ServiceRegistry.Text

/-! ## Numerals

  An integer without fraction or exponent in the range -2^63 … 2^64 - 1 is exact (minus zero is a
  double).  Any other numeral is a double: its digits are gathered into 64 bits, the digits that no
  longer fit only count as places, and the power of ten is applied in one rounding, or in several
  where it exceeds 10^308. -/

/-- The parts of a numeral: the digits before the point, after it and of the exponent, each last
    digit first, and the signs. -/
structure Literal where
  negative : Bool := false
  whole : List Char := []
  fraction : List Char := []
  down : Bool := false
  power : List Char := []
  deriving DecidableEq, Repr

/-- The largest 64-bit word. -/
def maxWord : Nat := UInt64.size - 1

/-- Gathers digits into a 64-bit word; the digits left over when the next would not fit. -/
def gather : Nat → List Char → Nat × List Char
  | n, [] => (n, [])
  | n, c :: cs =>
    let n' := n * 10 + digitValue c
    if n' ≤ maxWord then gather n' cs else (n, c :: cs)

/-- Multiplies by `10^k`; `none` when the result leaves the range. -/
def scaleUp (x : Float) (k : Nat) : Option Float :=
  if k ≤ 308 then
    let y := x * Float.ofScientific 1 false k
    if y.isInf then none else some y
  else if x == 0 then some x else none

/-- Divides by `10^k`, in steps of 10^308. -/
def scaleDown (x : Float) (k : Nat) : Float :=
  if k ≤ 308 then x / Float.ofScientific 1 false k
  else if x == 0 then x
  else scaleDown (x / Float.ofScientific 1 false 308) (k - 308)
termination_by k

/-- The double `n * 10^e` with a sign. -/
def scaled (negative : Bool) (n : Nat) (e : Int) : Option Number :=
  let x := Float.ofNat n
  let y := if 0 ≤ e then scaleUp x e.toNat else some (scaleDown x (-e).toNat)
  y.map fun y => .real (if negative then -y else y).toBits

/-- The number a numeral denotes; `none` when it is beyond the range of a double. -/
def Literal.number? (l : Literal) : Option Number :=
  let (n, left) := gather 0 l.whole.reverse
  if left.isEmpty && l.fraction.isEmpty && l.power.isEmpty then
    if !l.negative then some (.int n)
    else if n = 0 then some (.real (-(0 : Float)).toBits)
    else if Int64.minValue.toInt ≤ -n then some (.int (-n))
    else some (.real (-(Float.ofNat n)).toBits)
  else
    let (n', dropped) := gather n l.fraction.reverse
    let places : Int := left.length - (l.fraction.length - dropped.length : Nat)
    let power := value l.power.reverse
    if Int32.maxValue.toInt < power then
      if n' ≠ 0 ∧ !l.down then none
      else some (.real (if l.negative then -(0 : Float) else 0).toBits)
    else scaled l.negative n' (if l.down then places - power else places + power)

/-! ## The automaton -/

/-- The text of a string so far, last character first.  `high` is a high surrogate waiting for its
    partner; `sound` is lost with the first thing that is no character. -/
structure Piece where
  read : List Char := []
  high : Option Nat := none
  sound : Bool := true
  deriving DecidableEq, Repr

/-- Where in a numeral the reader stands. -/
inductive Place
  | minus | zero | whole | point | fraction | mark | sign | power
  deriving DecidableEq, Repr

/-- Where the reader stands. -/
inductive State
  | between
  | word (left : List Char) (t : Token)
  | string (p : Piece)
  | escaped (p : Piece)
  | unicode (p : Piece) (left value : Nat)
  | number (l : Literal) (at_ : Place)
  | stopped
  deriving DecidableEq, Repr

/-- One more character of a string. -/
def Piece.push (p : Piece) (c : Char) : Piece :=
  ⟨c :: p.read, none, p.sound && p.high.isNone⟩

/-- An octet that is no character. -/
def Piece.spoil (p : Piece) : Piece := ⟨p.read, none, false⟩

/-- One more code unit, written as an escape. -/
def Piece.pushUnit (p : Piece) (u : Nat) : Piece :=
  let isHigh := 0xD800 ≤ u && u < 0xDC00
  let isLow := 0xDC00 ≤ u && u < 0xE000
  match p.high with
  | none =>
    if isHigh then { p with high := some u }
    else if isLow then p.spoil
    else p.push (Char.ofNat u)
  | some h =>
    if isLow then
      ⟨Char.ofNat (0x10000 + (h - 0xD800) * 0x400 + (u - 0xDC00)) :: p.read, none, p.sound⟩
    else p.spoil

/-- The token of a closed string. -/
def Piece.token (p : Piece) : Token :=
  .string (if p.sound && p.high.isNone then some (String.ofList p.read.reverse) else none)

/-- What a one-letter escape stands for. -/
def escaped? (c : Char) : Option Char :=
  match c with
  | '"' => some '"'
  | '\\' => some '\\'
  | '/' => some '/'
  | 'b' => some '\x08'
  | 'f' => some '\x0c'
  | 'n' => some '\n'
  | 'r' => some '\r'
  | 't' => some '\t'
  | _ => none

/-- An octet between tokens. -/
def start : Option Char → List Token × State
  | none => ([.invalid], .stopped)
  | some c =>
    match c with
    | ' ' | '\n' | '\t' | '\r' => ([], .between)
    | '\x7b' => ([.openBrace], .between)
    | '\x7d' => ([.closeBrace], .between)
    | '[' => ([.openBracket], .between)
    | ']' => ([.closeBracket], .between)
    | ',' => ([.comma], .between)
    | ':' => ([.colon], .between)
    | 'n' => ([], .word "ull".toList .null)
    | 't' => ([], .word "rue".toList (.bool true))
    | 'f' => ([], .word "alse".toList (.bool false))
    | '"' => ([], .string {})
    | '-' => ([], .number { negative := true } .minus)
    | '0' => ([], .number { whole := ['0'] } .zero)
    | c => if c.isDigit then ([], .number { whole := [c] } .whole) else ([.invalid], .stopped)

/-- Ends a numeral, in a place where it may end. -/
def Place.closes : Place → Bool
  | .zero | .whole | .fraction | .power => true
  | _ => false

/-- A character inside a numeral, if it can go on there. -/
def Literal.extend? (l : Literal) (c : Char) : Place → Option (Literal × Place)
  | .minus =>
    if c = '0' then some ({ l with whole := ['0'] }, .zero)
    else if c.isDigit then some ({ l with whole := [c] }, .whole) else none
  | .zero =>
    if c = '.' then some (l, .point)
    else if c = 'e' ∨ c = 'E' then some (l, .mark) else none
  | .whole =>
    if c.isDigit then some ({ l with whole := c :: l.whole }, .whole)
    else if c = '.' then some (l, .point)
    else if c = 'e' ∨ c = 'E' then some (l, .mark) else none
  | .point => if c.isDigit then some ({ l with fraction := [c] }, .fraction) else none
  | .fraction =>
    if c.isDigit then some ({ l with fraction := c :: l.fraction }, .fraction)
    else if c = 'e' ∨ c = 'E' then some (l, .mark) else none
  | .mark =>
    if c = '-' then some ({ l with down := true }, .sign)
    else if c = '+' then some (l, .sign)
    else if c.isDigit then some ({ l with power := [c] }, .power) else none
  | .sign => if c.isDigit then some ({ l with power := [c] }, .power) else none
  | .power => if c.isDigit then some ({ l with power := c :: l.power }, .power) else none

/-- One octet read. -/
def step : State → Option Char → List Token × State
  | .between, o => start o
  | .word left t, o =>
    match left, o with
    | [c], some d => if c = d then ([t], .between) else ([.invalid], .stopped)
    | c :: left, some d => if c = d then ([], .word left t) else ([.invalid], .stopped)
    | _, _ => ([.invalid], .stopped)
  | .string p, none => ([], .string p.spoil)
  | .string p, some c =>
    if c = '"' then ([p.token], .between)
    else if c = '\\' then ([], .escaped p)
    else if c.toNat < 0x20 then ([.invalid], .stopped)
    else ([], .string (p.push c))
  | .escaped p, some c =>
    if c = 'u' then ([], .unicode p 4 0)
    else match escaped? c with
      | some d => ([], .string (p.push d))
      | none => ([.invalid], .stopped)
  | .escaped _, none => ([.invalid], .stopped)
  | .unicode p left v, o =>
    match o.bind hexValue? with
    | none => ([.invalid], .stopped)
    | some d =>
      let v := v * 16 + d
      if left ≤ 1 then ([], .string (p.pushUnit v)) else ([], .unicode p (left - 1) v)
  | .number l at_, o =>
    match o.bind fun c => l.extend? c at_ with
    | some (l, at_) => ([], .number l at_)
    | none =>
      if at_ = .zero ∧ (o.map Char.isDigit).getD false then ([.invalid], .stopped)
      else if at_.closes then let (ts, st) := start o; (.number l.number? :: ts, st)
      else ([.invalid], .stopped)
  | .stopped, _ => ([], .stopped)

/-- What the end of the text completes. -/
def finish : State → List Token
  | .between | .stopped => []
  | .number l at_ => if at_.closes then [.number l.number?] else [.invalid]
  | _ => [.invalid]

/-- The tokens of the rest of a text. -/
def tokensFrom : State → Octets → List Token
  | st, [] => finish st
  | st, o :: os => let (ts, st) := step st o; ts ++ tokensFrom st os

/-- The tokens of a text. -/
def tokens (o : Octets) : List Token := tokensFrom .between o

end ServiceRegistry.Json
