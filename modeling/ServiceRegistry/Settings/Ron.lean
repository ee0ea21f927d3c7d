/-
  Settings files in RON.

  A value is truth, a number, a character, a string, an option, a list in brackets, a map in braces,
  or a structure in parentheses, with or without a name: a map when its fields have names, else a
  list.  Blanks and comments may stand between all of these; comments in `/* */` nest.

    * `Ron.value?`   takes a value;
    * `Ron.read?`    the tree of a text.
-/
import ServiceRegistry.Settings.Tree
import ServiceRegistry.Text.Hex

namespace ServiceRegistry.Ron

open ServiceRegistry.Text

/-- What is taken off a text, and the rest. -/
abbrev Taken (α : Type) := Option (α × List Char)

/-! ## Blanks -/

/-- A blank. -/
def isSpace (c : Char) : Bool :=
  let n := c.toNat
  (0x09 ≤ n && n ≤ 0x0D) || [0x20, 0x85, 0x200E, 0x200F, 0x2028, 0x2029].contains n

/-- What follows a comment that may hold others, after its opening; `depth` more are open. -/
def overBlock? : (depth : Nat) → List Char → Option (List Char)
  | depth, '*' :: '/' :: cs => if depth = 0 then some cs else overBlock? (depth - 1) cs
  | depth, '/' :: '*' :: cs => overBlock? (depth + 1) cs
  | depth, _ :: cs => overBlock? depth cs
  | _, [] => none

/-- What follows blanks and comments.  `fuel` bounds the number of comments. -/
def skipSpace? : Nat → List Char → Option (List Char)
  | 0, cs => some cs
  | fuel + 1, cs =>
    match cs.dropWhile isSpace with
    | '/' :: '/' :: r => skipSpace? fuel (r.dropWhile (· ≠ '\n'))
    | '/' :: '*' :: r => (overBlock? 0 r).bind (skipSpace? fuel)
    | '/' :: _ => none
    | r => some r

/-- What follows blanks and comments. -/
def space? (cs : List Char) : Option (List Char) := skipSpace? (cs.length + 1) cs

/-! ## Names -/

/-- A character at the front of a name. -/
def isNameStart (c : Char) : Bool := c.isAlpha || c = '_' || (128 ≤ c.toNat && !isSpace c)

/-- A character of a name. -/
def isNameChar (c : Char) : Bool := isNameStart c || c.isDigit

/-- A character of a marked name. -/
def isMarkedChar (c : Char) : Bool := isNameChar c || c = '.' || c = '+' || c = '-'

/-- The beginnings of strings that look like names. -/
def stringMarks : List String := ["b\"", "b'", "br#", "br\"", "r\"", "r#\"", "r##"]

/-- Takes a name, perhaps behind the mark `r#`. -/
def name? (cs : List Char) : Taken String :=
  if stringMarks.any fun m => m.toList.isPrefixOf cs then none
  else
    let (marked, r) := match cs with
      | 'r' :: '#' :: r => (true, r)
      | _ => (false, cs)
    let name := r.takeWhile (if marked then isMarkedChar else isNameChar)
    if !marked && !name.head?.any isNameStart || name.isEmpty then none
    else some (String.ofList name, r.drop name.length)

/-! ## Numbers -/

/-- A character of an integer to any base. -/
def isIntegerChar (c : Char) : Bool := (hexValue? c).isSome || c = '_'

/-- A character of a double. -/
def isRealChar (c : Char) : Bool := c.isDigit || "eE.+-_".toList.contains c

/-- The names of types that may follow an integer, and their numbers of bits with a sign. -/
def suffixes : List (String × Bool × Nat) :=
  [("i8", true, 8), ("i16", true, 16), ("i32", true, 32), ("i64", true, 64), ("u8", false, 8),
    ("u16", false, 16), ("u32", false, 32), ("u64", false, 64)]

/-- Whether an integer has so many bits. -/
def fits (hasSign : Bool) (bits : Nat) (i : Int) : Bool :=
  if hasSign then -(Nat.pow 2 (bits - 1) : Int) ≤ i && i < (Nat.pow 2 (bits - 1) : Int)
  else 0 ≤ i && i < (Nat.pow 2 bits : Int)

/-- Takes an integer without its sign. -/
def takeInteger (negative : Bool) (cs : List Char) : Taken Setting :=
  let (base, cs) := match cs with
    | '0' :: 'x' :: r => (16, r)
    | '0' :: 'o' :: r => (8, r)
    | '0' :: 'b' :: r => (2, r)
    | _ => (10, cs)
  let word := cs.takeWhile isIntegerChar
  let r := cs.drop word.length
  if word.head? = some '_' then none
  else
    (ofBase? base (word.filter (· ≠ '_'))).bind fun n =>
      let i : Int := if negative then -(n : Int) else n
      let suffix := suffixes.find? fun s => s.1.toList.isPrefixOf r
      let isIn := match suffix with
        | some (_, hasSign, bits) => fits hasSign bits i
        | none => if negative then fits true 64 i else fits false 64 i
      if isIn then some (.int i, r.drop ((suffix.map (·.1.length)).getD 0)) else none

/-- Takes a double without its sign; one of type `f32` has fewer digits. -/
def takeReal (negative : Bool) (cs : List Char) : Taken Setting :=
  let word := cs.takeWhile isRealChar
  let r := cs.drop word.length
  if word.contains '_' then none
  else
    (Double.parse? (if negative then '-' :: word else word)).map fun x =>
      if "f32".toList.isPrefixOf r then (.real x.toFloat32.toFloat.toBits, r.drop 3)
      else (.real x.toBits, if "f64".toList.isPrefixOf r then r.drop 3 else r)

/-- Takes a number.  It is a double when it goes on behind what could be an integer. -/
def number? (cs : List Char) : Taken Setting :=
  let (negative, body) := match cs with
    | '-' :: r => (true, r)
    | '+' :: r => (false, r)
    | _ => (false, cs)
  match name? body with
  | some ("inf", r) => some (.real (if negative then -(1 / 0) else 1 / 0 : Float).toBits, r)
  | some ("NaN", r) => some (.real (0 / 0 : Float).toBits, r)
  | _ =>
    if (body.takeWhile isIntegerChar).length < (body.takeWhile isRealChar).length then
      takeReal negative body
    else takeInteger negative body

/-! ## Text -/

/-- Takes what follows the backslash of an escape. -/
def escape? : List Char → Taken Char
  | '\'' :: cs => some ('\'', cs)
  | '"' :: cs => some ('"', cs)
  | '\\' :: cs => some ('\\', cs)
  | 'n' :: cs => some ('\n', cs)
  | 'r' :: cs => some ('\r', cs)
  | 't' :: cs => some ('\t', cs)
  | '0' :: cs => some ('\x00', cs)
  | 'x' :: a :: b :: cs => (hexByte? a b).map fun x => (Char.ofNat x.toNat, cs)
  | 'u' :: '\x7b' :: cs =>
    let ds := (cs.take 6).takeWhile (· ≠ '\x7d')
    match cs.drop ds.length with
    | '\x7d' :: r =>
      (hexNatural? ds).bind fun n => if n.isValidChar then some (Char.ofNat n, r) else none
    | _ => none
  | _ => none

/-- Takes the text of a string after its opening.  `fuel` bounds the number of characters. -/
def quoted? : Nat → List Char → Taken (List Char)
  | _ + 1, '"' :: cs => some ([], cs)
  | fuel + 1, '\\' :: cs =>
    (escape? cs).bind fun (c, r) => (quoted? fuel r).map fun (text, r) => (c :: text, r)
  | fuel + 1, c :: cs => (quoted? fuel cs).map fun (text, r) => (c :: text, r)
  | _, _ => none

/-- Takes the text of a string up to this ending. -/
def upTo? (ending : List Char) : List Char → Taken (List Char)
  | [] => none
  | c :: cs =>
    if ending.isPrefixOf (c :: cs) then some ([], (c :: cs).drop ending.length)
    else (upTo? ending cs).map fun (text, r) => (c :: text, r)

/-- Takes a string. -/
def string? (cs : List Char) : Taken (List Char) :=
  match cs with
  | '"' :: r => quoted? (r.length + 1) r
  | 'r' :: r =>
    let marks := r.takeWhile (· = '#')
    match r.drop marks.length with
    | '"' :: r => upTo? ('"' :: marks) r
    | _ => none
  | _ => none

/-- Takes a character. -/
def char? : List Char → Taken Char
  | '\'' :: '\\' :: cs =>
    (escape? cs).bind fun (c, r) => if r.head? = some '\'' then some (c, r.drop 1) else none
  | '\'' :: c :: '\'' :: cs => some (c, cs)
  | _ => none

/-! ## Values -/

/-- What follows blanks and comments after this character. -/
def after? (c : Char) : List Char → Option (List Char)
  | d :: cs => if c = d then space? cs else none
  | [] => none

/-- What follows an item: a comma and blanks, or else the ending. -/
def separated? (ending : Char) (cs : List Char) : Option (List Char) :=
  (space? cs).bind fun r =>
    match r with
    | ',' :: r => space? r
    | d :: _ => if d = ending then some r else none
    | [] => none

/-- Whether a structure has names for its fields, given what stands in it. -/
def isNamed (cs : List Char) : Bool :=
  (name? cs).any fun (_, r) => (space? r).any (·.head? = some ':')

/-- How much deeper values may be nested in a value at this depth. -/
def deeper? (room : Nat) : Option Nat := if room = 0 then none else some (room - 1)

mutual

/-- Takes a value, no blanks being in front of it.  `fuel` bounds the number of values and marks,
    `room` how deep values may be nested in this one. -/
def takeValue : (fuel room : Nat) → List Char → Taken Setting
  | 0, _, _ => none
  | fuel + 1, room, cs =>
    match name? cs with
    | some ("true", r) => some (.bool true, r)
    | some ("false", r) => some (.bool false, r)
    | some ("None", r) => some (.null, r)
    | some ("Some", r) =>
      ((space? r).bind (after? '(')).bind fun r => (deeper? room).bind fun room =>
        (takeValue fuel room r).bind fun (v, r) => (separated? ')' r).bind fun r =>
          if r.head? = some ')' then some (v, r.drop 1) else none
    | some (name, r) =>
      if name = "inf" || name = "NaN" then number? cs
      else (space? r).bind fun r =>
        if r.head? = some '(' then takeStructure fuel room r else some (.null, r)
    | none =>
      match cs with
      | '(' :: ')' :: r => some (.null, r)
      | '(' :: _ => takeStructure fuel room cs
      | '[' :: r =>
        (space? r).bind fun r => (takeItems fuel room ']' r).map fun (vs, r) => (.list vs, r)
      | '\x7b' :: r =>
        (space? r).bind fun r => (takeMembers fuel room [] r).map fun (ms, r) => (.table ms, r)
      | '"' :: _ => (string? cs).map fun (s, r) => (.text (String.ofList s), r)
      | 'r' :: _ => (string? cs).map fun (s, r) => (.text (String.ofList s), r)
      | '\'' :: _ => (char? cs).map fun (c, r) => (.text (String.ofList [c]), r)
      | c :: _ => if c.isDigit || c = '+' || c = '-' || c = '.' then number? cs else none
      | [] => none

/-- Takes a structure from its parenthesis on. -/
def takeStructure : (fuel room : Nat) → List Char → Taken Setting
  | 0, _, _ => none
  | fuel + 1, room, cs =>
    (after? '(' cs).bind fun r =>
      if isNamed r then (takeFields fuel room [] r).map fun (ms, r) => (.table ms, r)
      else (takeItems fuel room ')' r).map fun (vs, r) => (.list vs, r)

/-- Takes items up to the ending. -/
def takeItems : (fuel room : Nat) → (ending : Char) → List Char → Taken (List Setting)
  | 0, _, _, _ => none
  | fuel + 1, room, ending, cs =>
    if cs.head? = some ending then some ([], cs.drop 1)
    else
      (deeper? room).bind fun inner => (takeValue fuel inner cs).bind fun (v, r) =>
        (separated? ending r).bind fun r =>
          (takeItems fuel room ending r).map fun (vs, r) => (v :: vs, r)

/-- Takes fields up to the parenthesis, given those before; of equal names the last one counts. -/
def takeFields :
    (fuel room : Nat) → List (String × Setting) → List Char → Taken (List (String × Setting))
  | 0, _, _, _ => none
  | fuel + 1, room, seen, cs =>
    if cs.head? = some ')' then some (seen, cs.drop 1)
    else
      (name? cs).bind fun (key, r) => ((space? r).bind (after? ':')).bind fun r =>
        (deeper? room).bind fun inner => (takeValue fuel inner r).bind fun (v, r) =>
          (separated? ')' r).bind fun r => takeFields fuel room (Setting.assign key v seen) r

/-- Takes members up to the brace, given those before; of equal keys, which are strings or
    characters, the last one counts. -/
def takeMembers :
    (fuel room : Nat) → List (String × Setting) → List Char → Taken (List (String × Setting))
  | 0, _, _, _ => none
  | fuel + 1, room, seen, cs =>
    if cs.head? = some '\x7d' then some (seen, cs.drop 1)
    else
      let key := (string? cs).or ((char? cs).map fun (c, r) => ([c], r))
      key.bind fun (key, r) => ((space? r).bind (after? ':')).bind fun r =>
        (deeper? room).bind fun inner => (takeValue fuel inner r).bind fun (v, r) =>
          (separated? '\x7d' r).bind fun r =>
            takeMembers fuel room (Setting.assign (String.ofList key) v seen) r

end

/-- Takes a value, in which others may be nested 128 deep. -/
def value? (cs : List Char) : Taken Setting := takeValue (3 * cs.length + 3) 128 cs

/-! ## The text -/

/-- The extensions that a text may ask for. -/
def extensions : List String :=
  ["unwrap_newtypes", "implicit_some", "unwrap_variant_newtypes", "explicit_struct_names"]

/-- What follows the names of extensions, the last one's comma being optional, and the parenthesis.
    `fuel` bounds their number. -/
def overNames? : Nat → List Char → Option (List Char)
  | 0, _ => none
  | fuel + 1, cs =>
    (name? cs).bind fun (name, r) =>
      if !extensions.contains name then none
      else (separated? ')' r).bind fun r =>
        if r.head? = some ')' then some (r.drop 1) else overNames? fuel r

/-- What follows the lines that ask for extensions.  `fuel` bounds their number. -/
def overExtensions? : Nat → List Char → Option (List Char)
  | 0, cs => some cs
  | fuel + 1, cs =>
    if cs.head? ≠ some '#' then some cs
    else
      ((after? '#' cs).bind fun r => (after? '!' r).bind (after? '[')).bind fun r =>
        match name? r with
        | some ("enable", r) =>
          ((space? r).bind (after? '(')).bind fun r => ((overNames? r.length r).bind space?).bind
            fun r => (after? ']' r).bind (overExtensions? fuel)
        | _ => none

/-- The tree of a text. -/
def read? (cs : List Char) : Option Setting :=
  ((space? cs).bind (overExtensions? cs.length)).bind fun cs =>
    (value? cs).bind fun (v, r) => (space? r).bind fun r => if r.isEmpty then some v else none

end ServiceRegistry.Ron
