/-
  Words of TOML: values without quotes and brackets.

  A word is truth, an integer, a double or a moment.  Digits may be grouped with single underscores.

    * `word?`   what a word stands for.
-/
import ServiceRegistry.Settings.Toml.Moment
import ServiceRegistry.Settings.Tree
import ServiceRegistry.Text.Hex
import ServiceRegistry.Text.Pieces

namespace ServiceRegistry.Toml

open ServiceRegistry.Text

/-- Digits without the underscores that group them. -/
def ungrouped? (cs : List Char) : Option (List Char) :=
  let groups := pieces '_' cs
  if groups.all (!·.isEmpty) then some groups.flatten else none

/-- Decimal digits, perhaps in groups. -/
def decimals? (cs : List Char) : Option (List Char) :=
  (ungrouped? cs).filter (·.all Char.isDigit)

/-- Decimal digits of a whole number: no superfluous zeros in front. -/
def whole? (cs : List Char) : Option (List Char) :=
  (decimals? cs).filter fun ds => ds.head? ≠ some '0' || ds.length = 1

/-- A sign, if there is one, and the rest. -/
def signed (cs : List Char) : List Char × List Char :=
  match cs with
  | '+' :: r => ([], r)
  | '-' :: r => (['-'], r)
  | _ => ([], cs)

/-- The largest integer. -/
def maxInteger : Int := Int64.maxValue.toInt

/-- An integer: decimal with an optional sign, or to base 16, 8 or 2 behind a mark. -/
def integer? (cs : List Char) : Option Int :=
  let ofBase (base : Nat) (r : List Char) : Option Int :=
    (((ungrouped? r).bind (Text.ofBase? base)).map Int.ofNat).filter (· ≤ maxInteger)
  match cs with
  | '0' :: 'x' :: r => ofBase 16 r
  | '0' :: 'o' :: r => ofBase 8 r
  | '0' :: 'b' :: r => ofBase 2 r
  | _ =>
    let (sign, r) := signed cs
    (whole? r).bind fun ds => Text.integer? (-maxInteger - 1) maxInteger (sign ++ ds)

/-- A double that has no name: a whole part, then a fraction or an exponent or both.  It is not
    infinite. -/
def double? (cs : List Char) : Option Float :=
  let (sign, r) := signed cs
  let (mantissa, exponent) := cut 'e' (r.map fun c => if c = 'E' then 'e' else c)
  let (whole, fraction) := cut '.' mantissa
  let power := exponent.map fun e =>
    let (down, ds) := signed e
    (decimals? ds).map fun ds => 'e' :: (down ++ ds)
  let places := fraction.map fun f => (decimals? f).map ('.' :: ·)
  if fraction.isNone && exponent.isNone then none
  else match whole? whole, places.getD (some []), power.getD (some []) with
    | some ds, some f, some e => (Double.parse? (sign ++ ds ++ f ++ e)).filter (!·.isInf)
    | _, _, _ => none

/-- A double that has a name. -/
def named? (cs : List Char) : Option Float :=
  let (sign, r) := signed cs
  if r = "inf".toList || r = "nan".toList then Double.parse? (sign ++ r) else none

/-- What a word stands for. -/
def word? (cs : List Char) : Option Setting :=
  if cs = "true".toList then some (.bool true)
  else if cs = "false".toList then some (.bool false)
  else match integer? cs, (double? cs).or (named? cs) with
    | some i, _ => some (.int i)
    | none, some x => some (.real x.toBits)
    | none, none => (Moment.parse? cs).map fun m => .text (String.ofList m.text)

end ServiceRegistry.Toml
