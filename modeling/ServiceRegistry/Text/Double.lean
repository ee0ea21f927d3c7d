/-
  Double-precision numbers as decimal text.

  `shortest` finds the fewest decimal digits that read back as the same double: it tests, for 1, 2,
  … 17 digits, the value's two neighbours on that decimal grid, and takes the nearer one inside the
  interval of reals that round to the value.  All of it is exact arithmetic on naturals.

  Two ways to write those digits are used: `Layout.exponential` (JSON) turns to an exponent outside
  10^-5 … 10^16, `Layout.positional` (settings) never does.  They differ also in which of two
  equally near neighbours they take.
-/
import ServiceRegistry.Text.Decimal

namespace ServiceRegistry.Double

open ServiceRegistry.Text

/-! ## The parts of a double -/

/-- A finite positive double `m * 2^q`; `narrow` when the gap below it is half the gap above. -/
structure Parts where
  m : Nat
  q : Int
  narrow : Bool
  deriving DecidableEq, Repr

/-- What the 64 bits stand for. -/
inductive Reading
  | nan
  | infinite (negative : Bool)
  | zero (negative : Bool)
  | finite (negative : Bool) (parts : Parts)
  deriving DecidableEq, Repr

/-- The weight of the unwritten bit in front of a fraction of 52 bits. -/
def leadingBit : Nat := 0x10000000000000

/-- The meaning of the 64 bits of a double. -/
def read (bits : UInt64) : Reading :=
  let n := bits.toNat
  let negative := n / leadingBit / 2048 == 1
  let exponent := n / leadingBit % 2048
  let fraction := n % leadingBit
  if exponent == 2047 then if fraction == 0 then .infinite negative else .nan
  else if exponent == 0 then
    if fraction == 0 then .zero negative else .finite negative ⟨fraction, -1074, false⟩
  else
    .finite negative
      ⟨leadingBit + fraction, Int.ofNat exponent - 1075, fraction == 0 && exponent != 1⟩

/-! ## Shortest digits -/

/-- A decimal `coefficient * 10^exponent`. -/
structure Decimal where
  coefficient : Nat
  exponent : Int
  deriving DecidableEq, Repr

/-- Moves trailing zeros of the digits into the exponent. -/
def Decimal.normal : Nat → Decimal → Decimal
  | fuel + 1, ⟨d, e⟩ => if d != 0 && d % 10 == 0 then normal fuel ⟨d / 10, e + 1⟩ else ⟨d, e⟩
  | 0, x => x

/-- The decimal exponent of `v / den`, that is the `p` with `10^p ≤ v / den < 10^(p+1)`. -/
def decimalExponent (v den : Nat) : Int :=
  if den ≤ v then ((digits (v / den)).length : Int) - 1
  else match (List.range 400).find? fun j => den ≤ v * Nat.pow 10 j with
    | some j => -(j : Int)
    | none => 0

/-- A positive rational interval around `value / scale`, with the same denominator. -/
structure Span where
  lo : Nat
  value : Nat
  hi : Nat
  scale : Nat
  closed : Bool

/-- The reals that round to a double: half a gap to each side, the ends included for even `m`. -/
def Parts.span (p : Parts) : Span :=
  let up := Nat.pow 2 (p.q - 2).toNat
  ⟨(4 * p.m - if p.narrow then 1 else 2) * up, 4 * p.m * up, (4 * p.m + 2) * up,
    Nat.pow 2 (2 - p.q).toNat, p.m % 2 == 0⟩

/-- Which of two equally near neighbours is taken. -/
inductive Tie
  | even
  | up
  deriving DecidableEq, Repr

/-- The neighbour of the value on the grid `10^k` that lies inside the span; of two, the nearer. -/
def Span.gridPoint? (t : Tie) (s : Span) (k : Int) : Option Decimal :=
  let unit := Nat.pow 10 k.toNat * s.scale
  let down := Nat.pow 10 (-k).toNat
  let inside (a : Nat) : Bool :=
    if s.closed then s.lo * down ≤ a * unit && a * unit ≤ s.hi * down
    else s.lo * down < a * unit && a * unit < s.hi * down
  let a := s.value * down / unit
  let below := s.value * down - a * unit
  let above := (a + 1) * unit - s.value * down
  let lower := !inside (a + 1) || below < above || (below == above && t = .even && a % 2 == 0)
  if inside a && lower then some ⟨a, k⟩
  else if inside (a + 1) then some ⟨a + 1, k⟩
  else none

/-- The fewest digits that read back, the nearest of those to the value. -/
def Parts.shortest (t : Tie) (p : Parts) : Decimal :=
  let s := p.span
  let top := decimalExponent s.value s.scale
  let found := (List.range 17).findSome? fun (n : Nat) => s.gridPoint? t (top - n)
  (found.getD ⟨s.value / s.scale, 0⟩).normal 20

/-! ## Layouts -/

/-- How a number is laid out. -/
inductive Layout
  /-- Always a fraction or an exponent; positional for 10^-5 … 10^16. -/
  | exponential
  /-- Never an exponent; no fraction where there is none. -/
  | positional
  deriving DecidableEq, Repr

/-- Ties go to the even digit with an exponent at hand, upwards without. -/
def Layout.tie : Layout → Tie
  | .exponential => .even
  | .positional => .up

/-- Positional text of a decimal; `whole` is what follows an integer. -/
def Decimal.positional (whole : List Char) (d : Decimal) : List Char :=
  let ds := digits d.coefficient
  let point : Int := ds.length + d.exponent
  if 0 ≤ d.exponent then ds ++ List.replicate d.exponent.toNat '0' ++ whole
  else if 0 < point then ds.take point.toNat ++ '.' :: ds.drop point.toNat
  else '0' :: '.' :: List.replicate (-point).toNat '0' ++ ds

/-- Text with an exponent: one digit, the others after a point, the exponent. -/
def Decimal.scientific (d : Decimal) : List Char :=
  match digits d.coefficient with
  | [] => []
  | c :: cs =>
    let point : Int := cs.length + d.exponent
    c :: (if cs.isEmpty then [] else '.' :: cs) ++ 'e' :: integerText point

/-- The text of a decimal. -/
def Decimal.text (l : Layout) (d : Decimal) : List Char :=
  match l with
  | .positional => d.positional []
  | .exponential =>
    let point : Int := (digits d.coefficient).length + d.exponent
    if -5 < point ∧ point ≤ 16 then d.positional ['.', '0'] else d.scientific

/-- The text of the double with these bits. -/
def text (l : Layout) (bits : UInt64) : List Char :=
  let sign (negative : Bool) : List Char := if negative then ['-'] else []
  match read bits with
  | .nan => "NaN".toList
  | .infinite n => sign n ++ "inf".toList
  | .zero n => sign n ++ (match l with | .positional => ['0'] | .exponential => ['0', '.', '0'])
  | .finite n p => sign n ++ (p.shortest l.tie).text l

/-! ## Reading -/

/-- The double nearest to `mantissa * 10^exponent`. -/
def ofDecimal (negative : Bool) (mantissa : Nat) (exponent : Int) : Float :=
  let size : Int := (digits mantissa).length + exponent
  let x : Float :=
    if mantissa == 0 || size < -400 then 0
    else if 400 < size then 1 / 0
    else if exponent < 0 then Float.ofScientific mantissa true exponent.natAbs
    else Float.ofScientific mantissa false exponent.natAbs
  if negative then -x else x

/-- Digits with an optional point among them: all the digits, and how many follow the point. -/
def pointed? (cs : List Char) : Option (List Char × Nat) :=
  let whole := cs.takeWhile Char.isDigit
  match cs.dropWhile Char.isDigit with
  | [] => if whole.isEmpty then none else some (whole, 0)
  | '.' :: r =>
    if r.all Char.isDigit && !(whole.isEmpty && r.isEmpty) then some (whole ++ r, r.length)
    else none
  | _ => none

/-- Reads a double: an optional sign; then a name of infinity or NaN in any case, or digits with an
    optional point and an optional exponent. -/
def parse? (cs : List Char) : Option Float :=
  let (negative, body) := match cs with
    | '-' :: r => (true, r)
    | '+' :: r => (false, r)
    | r => (false, r)
  let lower := body.map Char.toLower
  if lower == "nan".toList then some (0 / 0)
  else if lower == "inf".toList || lower == "infinity".toList then
    some (if negative then -(1 / 0) else 1 / 0)
  else
    let mantissa := lower.takeWhile (· != 'e')
    match lower.dropWhile (· != 'e'), pointed? mantissa with
    | [], some (ds, places) => some (ofDecimal negative (value ds) (-(places : Int)))
    | _ :: r, some (ds, places) =>
      let bound := Int.ofNat (Nat.pow 10 400)
      (integer? (-bound) bound r).map fun e => ofDecimal negative (value ds) (e - places)
    | _, none => none

end ServiceRegistry.Double
