/-
  What scalars of YAML stand for.

  A plain scalar stands for null, truth, an integer, a double or its text; its tag may say which.  A
  quoted one always stands for its text.

    * `Scalar.ofPlain`, `ofTagged`   what a plain scalar stands for, without and with a tag;
    * `Scalar.setting?`              a scalar as a setting.
-/
import ServiceRegistry.Settings.Tree
import ServiceRegistry.Text.Hex

namespace ServiceRegistry.Yaml

open ServiceRegistry.Text

/-- What a scalar stands for. -/
inductive Scalar
  /-- Not what its tag says. -/
  | bad
  | null
  | bool (b : Bool)
  | int (i : Int)
  /-- A double, by its text. -/
  | real (text : List Char)
  | text (cs : List Char)
  deriving DecidableEq, Repr

namespace Scalar

/-! ## Numbers -/

/-- The largest integer. -/
def maxInteger : Int := Int64.maxValue.toInt

/-- A decimal integer with an optional sign. -/
def decimal? (cs : List Char) : Option Int := Text.integer? (-maxInteger - 1) maxInteger cs

/-- An integer to a base, with an optional sign. -/
def ofBase? (base : Nat) (cs : List Char) : Option Int :=
  let read : Option Int := match cs with
    | '-' :: r => (Text.ofBase? base r).map fun n => -(n : Int)
    | '+' :: r => (Text.ofBase? base r).map Int.ofNat
    | _ => (Text.ofBase? base cs).map Int.ofNat
  read.filter fun i => -maxInteger - 1 ≤ i ∧ i ≤ maxInteger

/-- An integer behind a mark: to base 16 or 8, or another plus sign. -/
def marked? : List Char → Option Int
  | '0' :: 'x' :: cs => ofBase? 16 cs
  | '0' :: 'o' :: cs => ofBase? 8 cs
  | '+' :: cs => decimal? cs
  | _ => none

/-- The spellings of infinities and of no number. -/
def isSpecial (cs : List Char) : Bool :=
  let body := match cs with | '+' :: r => r | '-' :: r => r | _ => cs
  [".inf", ".Inf", ".INF"].contains (String.ofList body)
    || [".nan", ".NaN", ".NAN"].contains (String.ofList cs)

/-- Whether a text is that of a double. -/
def isReal (cs : List Char) : Bool :=
  isSpecial cs || (cs.any Char.isDigit && (Double.parse? cs).isSome)

/-! ## Meaning -/

/-- What a plain scalar stands for. -/
def ofPlain (cs : List Char) : Scalar :=
  match marked? cs with
  | some i => int i
  | none =>
    let word := String.ofList cs
    if ["", "~", "null"].contains word then null
    else if ["true", "True", "TRUE"].contains word then bool true
    else if ["false", "False", "FALSE"].contains word then bool false
    else match decimal? cs with
      | some i => int i
      | none => if isReal cs then real cs else text cs

/-- The handle of the tags that say what a scalar stands for. -/
def coreHandle : String := "tag:yaml.org,2002:"

/-- What a plain scalar with a tag stands for. -/
def ofTagged (handle suffix : String) (cs : List Char) : Scalar :=
  let word := String.ofList cs
  if handle ≠ coreHandle then text cs
  else match suffix with
    | "bool" => if word = "true" then bool true else if word = "false" then bool false else bad
    | "int" => ((decimal? cs).map int).getD bad
    | "float" => if isReal cs then real cs else bad
    | "null" => if word = "~" || word = "null" then null else bad
    | _ => text cs

/-! ## Settings -/

/-- A scalar as a setting; infinities and no number have no place in settings. -/
def setting? : Scalar → Option Setting
  | bad => some .null
  | null => some .null
  | bool b => some (.bool b)
  | int i => some (.int i)
  | real cs => if isSpecial cs then none else (Double.parse? cs).map fun x => .real x.toBits
  | text cs => some (.text (String.ofList cs))

/-- A scalar as the key of a setting; null is none. -/
def key? : Scalar → Option String
  | bool true => some "true"
  | bool false => some "false"
  | int i => some (String.ofList (integerText i))
  | real cs => some (String.ofList cs)
  | text cs => some (String.ofList cs)
  | _ => none

end Scalar

end ServiceRegistry.Yaml
