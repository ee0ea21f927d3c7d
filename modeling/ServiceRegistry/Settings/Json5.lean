/-
  Settings files in JSON5.

  JSON5 is JSON with comments, names for keys, strings in single quotes, commas at the end of lists
  and tables, hexadecimal numbers, signs in front of numbers, and points at either end of them.

    * `Json5.value?`   takes a value;
    * `Json5.read?`    the tree of a text.
-/
import ServiceRegistry.Settings.Tree
import ServiceRegistry.Text.Blank
import ServiceRegistry.Text.Hex

namespace ServiceRegistry.Json5

open ServiceRegistry.Text

/-- What is taken off a text, and the rest. -/
abbrev Taken (α : Type) := Option (α × List Char)

/-! ## Blanks -/

/-- A character that ends a line. -/
def isBreak (c : Char) : Bool := c = '\n' || c = '\r' || c = '\u2028' || c = '\u2029'

/-- A blank. -/
def isSpace (c : Char) : Bool := (isBlank c && c ≠ '\u0085') || c = '\uFEFF'

/-- What follows a comment after its opening. -/
def overBlock? : List Char → Option (List Char)
  | '*' :: '/' :: cs => some cs
  | _ :: cs => overBlock? cs
  | [] => none

/-- What follows blanks and comments.  `fuel` bounds the number of comments. -/
def skipSpace? : Nat → List Char → Option (List Char)
  | 0, cs => some cs
  | fuel + 1, cs =>
    match cs.dropWhile isSpace with
    | '/' :: '/' :: r => skipSpace? fuel (r.dropWhile (!isBreak ·))
    | '/' :: '*' :: r => (overBlock? r).bind (skipSpace? fuel)
    | r => some r

/-- What follows blanks and comments. -/
def space? (cs : List Char) : Option (List Char) := skipSpace? (cs.length + 1) cs

/-! ## Strings and names -/

/-- What a one-letter escape stands for; a letter without a meaning stands for itself. -/
def escaped (c : Char) : Char :=
  match c with
  | 'b' => '\x08'
  | 'f' => '\x0c'
  | 'n' => '\n'
  | 'r' => '\r'
  | 't' => '\t'
  | 'v' => '\x0b'
  | c => c

/-- Takes a unit of 16 bits, four digits. -/
def unit? (cs : List Char) : Taken Nat :=
  if cs.length < 4 then none else (hexNatural? (cs.take 4)).map (·, cs.drop 4)

/-- Takes the character of one unit, or of two that make a pair. -/
def units? (cs : List Char) : Taken Char :=
  (unit? cs).bind fun (high, r) =>
    if 0xD800 ≤ high && high < 0xDC00 then
      match r with
      | '\\' :: 'u' :: r =>
        (unit? r).bind fun (low, r) =>
          if 0xDC00 ≤ low && low < 0xE000 then
            some (Char.ofNat (0x10000 + 1024 * (high - 0xD800) + (low - 0xDC00)), r)
          else none
      | _ => none
    else if high.isValidChar then some (Char.ofNat high, r)
    else none

/-- Takes what follows the backslash of an escape; the end of a line does not count. -/
def escape? : List Char → Taken (List Char)
  | [] => none
  | '\r' :: '\n' :: cs => some ([], cs)
  | 'x' :: cs =>
    match cs with
    | a :: b :: r => (hexByte? a b).map fun x => ([Char.ofNat x.toNat], r)
    | _ => none
  | 'u' :: cs => (units? cs).map fun (c, r) => ([c], r)
  | '0' :: cs => if cs.head?.any Char.isDigit then none else some (['\x00'], cs)
  | c :: cs =>
    if isBreak c then some ([], cs) else if c.isDigit then none else some ([escaped c], cs)

/-- Takes the text of a string up to its quote.  `fuel` bounds the number of characters. -/
def quoted? (quote : Char) : Nat → List Char → Taken (List Char)
  | 0, _ => none
  | _, [] => none
  | fuel + 1, c :: cs =>
    if c = quote then some ([], cs)
    else if c = '\\' then
      (escape? cs).bind fun (text, r) =>
        (quoted? quote fuel r).map fun (more, r) => (text ++ more, r)
    else if c = '\n' || c = '\r' then none
    else (quoted? quote fuel cs).map fun (more, r) => (c :: more, r)

/-- Takes a string. -/
def string? : List Char → Taken (List Char)
  | '"' :: cs => quoted? '"' (cs.length + 1) cs
  | '\'' :: cs => quoted? '\'' (cs.length + 1) cs
  | _ => none

/-- A character at the front of a name. -/
def isNameStart (c : Char) : Bool :=
  c.isAlpha || c = '$' || c = '_' || (128 ≤ c.toNat && !isSpace c && c ≠ '\u0085')

/-- Takes the characters of a name, some of them perhaps as units.  `fuel` bounds their number. -/
def takeName (isFirst : Bool) : Nat → List Char → List Char × List Char
  | 0, cs => ([], cs)
  | fuel + 1, cs =>
    let isPart (c : Char) : Bool := isNameStart c || (!isFirst && c.isDigit)
    let step : Taken Char := match cs with
      | '\\' :: 'u' :: r => (units? r).filter fun (c, _) => isPart c
      | c :: r => if isPart c then some (c, r) else none
      | [] => none
    match step with
    | some (c, r) =>
      let (name, r) := takeName false fuel r
      (c :: name, r)
    | none => ([], cs)

/-- Takes a key: a string or a name. -/
def key? (cs : List Char) : Taken (List Char) :=
  (string? cs).or <|
    let (name, r) := takeName true cs.length cs
    if name.isEmpty then none else some (name, r)

/-! ## Numbers -/

/-- The largest integer. -/
def maxInteger : Int := Int64.maxValue.toInt

/-- Takes the digits of a whole number, without superfluous zeros in front. -/
def whole (cs : List Char) : List Char :=
  match cs with
  | '0' :: _ => ['0']
  | _ => cs.takeWhile Char.isDigit

/-- Takes an exponent, if there is one. -/
def exponent (cs : List Char) : List Char :=
  match cs with
  | c :: r =>
    if c = 'e' || c = 'E' then
      let sign := match r with
        | '+' :: _ => 1
        | '-' :: _ => 1
        | _ => 0
      let ds := (r.drop sign).takeWhile Char.isDigit
      if ds.isEmpty then [] else cs.take (1 + sign + ds.length)
    else []
  | [] => []

/-- The text of a decimal number at the front: digits with a point among them or not, and an
    exponent.  Alone the point is none. -/
def decimal (cs : List Char) : List Char :=
  let front := whole cs
  let r := cs.drop front.length
  let fraction := match r with
    | '.' :: r => '.' :: r.takeWhile Char.isDigit
    | _ => []
  if front.isEmpty && fraction.length < 2 then []
  else
    let mantissa := front ++ fraction
    mantissa ++ exponent (cs.drop mantissa.length)

/-- What a decimal number stands for: an integer if it looks like one, else a double. -/
def numeral? (sign : List Char) (word : List Char) : Option Setting :=
  if word.all Char.isDigit then
    (integer? (-maxInteger - 1) maxInteger (sign ++ word)).map .int
  else (Double.parse? (sign ++ word)).bind fun x => if x.isInf then none else some (.real x.toBits)

/-- Takes a number.  Behind `0x` there are at most 32 bits and no sign. -/
def number? (cs : List Char) : Taken Setting :=
  let (sign, r) := match cs with
    | '-' :: r => (['-'], r)
    | '+' :: r => (['+'], r)
    | _ => ([], cs)
  let marked (mark : Char) (r : List Char) : Taken Setting :=
    let ds := r.takeWhile fun c => (hexValue? c).isSome
    if ds.isEmpty then none
    else if sign.isEmpty && (mark = 'x' || mark = 'X') then
      ((hexNatural? ds).filter (· < UInt32.size)).map fun n => (.int n, r.drop ds.length)
    else none
  let taken : Taken Setting :=
    if "Infinity".toList.isPrefixOf r then
      (Double.parse? (sign ++ "inf".toList)).map fun x => (.real x.toBits, r.drop 8)
    else if "NaN".toList.isPrefixOf r then some (.real (0 / 0 : Float).toBits, r.drop 3)
    else match r with
      | '0' :: 'x' :: r => marked 'x' r
      | '0' :: 'X' :: r => marked 'X' r
      | _ =>
        let word := decimal r
        if word.isEmpty then none else (numeral? sign word).map (·, r.drop word.length)
  taken.filter fun (_, r) => !r.head?.any fun c => isNameStart c || c.isDigit

/-! ## Values -/

/-- The words that stand for values. -/
def words : List (String × Setting) :=
  [("null", .null), ("true", .bool true), ("false", .bool false)]

/-- What follows an item: a comma and blanks, or else the ending. -/
def separated? (ending : Char) (cs : List Char) : Option (List Char) :=
  (space? cs).bind fun r =>
    match r with
    | ',' :: r => space? r
    | d :: _ => if d = ending then some r else none
    | [] => none

mutual

/-- Takes a value, no blanks being in front of it.  `fuel` bounds the number of values and marks. -/
def takeValue : Nat → List Char → Taken Setting
  | 0, _ => none
  | fuel + 1, cs =>
    match cs with
    | '[' :: r => (space? r).bind fun r => (takeItems fuel r).map fun (vs, r) => (.list vs, r)
    | '\x7b' :: r =>
      (space? r).bind fun r => (takeMembers fuel [] r).map fun (ms, r) => (.table ms, r)
    | '"' :: _ => (string? cs).map fun (s, r) => (.text (String.ofList s), r)
    | '\'' :: _ => (string? cs).map fun (s, r) => (.text (String.ofList s), r)
    | _ =>
      match words.find? fun w => w.1.toList.isPrefixOf cs with
      | some (w, v) => some (v, cs.drop w.length)
      | none => number? cs

/-- Takes items up to the bracket. -/
def takeItems : Nat → List Char → Taken (List Setting)
  | 0, _ => none
  | fuel + 1, cs =>
    if cs.head? = some ']' then some ([], cs.drop 1)
    else
      (takeValue fuel cs).bind fun (v, r) => (separated? ']' r).bind fun r =>
        (takeItems fuel r).map fun (vs, r) => (v :: vs, r)

/-- Takes members up to the brace, given those before; of equal keys the last one counts. -/
def takeMembers : Nat → List (String × Setting) → List Char → Taken (List (String × Setting))
  | 0, _, _ => none
  | fuel + 1, seen, cs =>
    if cs.head? = some '\x7d' then some (seen, cs.drop 1)
    else
      (key? cs).bind fun (key, r) => (space? r).bind fun r =>
        match r with
        | ':' :: r =>
          (space? r).bind fun r => (takeValue fuel r).bind fun (v, r) =>
            (separated? '\x7d' r).bind fun r =>
              takeMembers fuel (Setting.assign (String.ofList key) v seen) r
        | _ => none

end

/-- The tree of a text. -/
def read? (cs : List Char) : Option Setting :=
  (space? cs).bind fun cs => (takeValue (2 * cs.length + 2) cs).bind fun (v, r) =>
    (space? r).bind fun r => if r.isEmpty then some v else none

end ServiceRegistry.Json5
