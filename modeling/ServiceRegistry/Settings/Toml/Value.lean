/-
  Values of TOML.

  A value is a string, a word, a list in brackets or a table in braces; these two may go on over
  several lines and end with a comma.

    * `value?`   takes a value.
-/
import ServiceRegistry.Settings.Toml.Table
import ServiceRegistry.Settings.Toml.Text
import ServiceRegistry.Settings.Toml.Word

namespace ServiceRegistry.Toml

/-! ## Words -/

/-- Whether a character ends a word. -/
def endsWord (c : Char) : Bool := isGap c || ",]\x7d#\n\r".toList.contains c

/-- Whether a word is a date and text is the beginning of a time behind it. -/
def isDateBefore (word cs : List Char) : Bool :=
  (Moment.date? word).any (·.2.isEmpty) && match cs with
    | ' ' :: a :: b :: ':' :: _ => a.isDigit && b.isDigit
    | _ => false

/-- Takes a word; between a date and a time there may be a space. -/
def takeWord (cs : List Char) : List Char × List Char :=
  let word := cs.takeWhile (!endsWord ·)
  let rest := cs.drop word.length
  if isDateBefore word rest then
    let time := (rest.drop 1).takeWhile (!endsWord ·)
    (word ++ ' ' :: time, rest.drop (time.length + 1))
  else (word, rest)

/-! ## Values -/

mutual

/-- Takes a value, at most `depth` brackets and braces being nested.  `fuel` bounds the number of
    values and marks. -/
def takeValue : (fuel depth : Nat) → List Char → Taken Item
  | 0, _, _ => none
  | fuel + 1, depth, cs =>
    match cs with
    | '[' :: r =>
      if depth = 0 then none
      else (takeItems fuel (depth - 1) r).map fun (is, r) => (.list is, r)
    | '\x7b' :: r =>
      if depth = 0 then none else takeMembers fuel (depth - 1) (.empty .braced) r
    | '"' :: _ => (string? cs).map fun (s, r) => (.value (.text s), r)
    | '\'' :: _ => (string? cs).map fun (s, r) => (.value (.text s), r)
    | _ =>
      let (word, r) := takeWord cs
      (word? word).map fun v => (.value v, r)

/-- Takes the items of a list up to its bracket. -/
def takeItems : (fuel depth : Nat) → List Char → Taken (List Item)
  | 0, _, _ => none
  | fuel + 1, depth, cs =>
    match overLines cs with
    | ']' :: r => some ([], r)
    | cs =>
      (takeValue fuel depth cs).bind fun (v, r) =>
        match overLines r with
        | ']' :: r => some ([v], r)
        | ',' :: r => (takeItems fuel depth r).map fun (vs, r) => (v :: vs, r)
        | _ => none

/-- Takes the members of a table up to its brace, given those before them. -/
def takeMembers : (fuel depth : Nat) → Item → List Char → Taken Item
  | 0, _, _, _ => none
  | fuel + 1, depth, table, cs =>
    match overLines cs with
    | '\x7d' :: r => some (table, r)
    | cs =>
      (keys? cs).bind fun ((path, key), r) =>
        match r with
        | '=' :: r =>
          (takeValue fuel depth (overGaps r)).bind fun (v, r) =>
            (table.put? path key v).bind fun table =>
              match overLines r with
              | '\x7d' :: r => some (table, r)
              | ',' :: r => takeMembers fuel depth table r
              | _ => none
        | _ => none

end

/-- Takes a value; brackets and braces may be nested 80 deep. -/
def value? (cs : List Char) : Taken Item := takeValue (2 * cs.length + 2) 80 cs

end ServiceRegistry.Toml
