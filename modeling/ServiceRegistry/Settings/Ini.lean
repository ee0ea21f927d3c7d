/-
  Settings files in INI form.

  A text is a sequence of sections in brackets, comments on lines of their own, and keys with
  values, joined by an equals sign or a colon.  Every value is a text up to the end of its line,
  parts of it perhaps in quotes.  A section is a table; of several of one name the last one counts,
  and so does the last of equal keys.

    * `Ini.takeUntil`   takes text with escapes up to a character;
    * `Ini.items?`      what a text says;
    * `Ini.read?`       the tree of a text.
-/
import ServiceRegistry.Settings.Tree
import ServiceRegistry.Text.Blank
import ServiceRegistry.Text.Hex

namespace ServiceRegistry.Ini

open ServiceRegistry.Text

/-! ## Text -/

/-- What an escape of one letter stands for; a letter without a meaning stands for itself. -/
def escaped (c : Char) : List Char :=
  match c with
  | '0' => ['\x00']
  | 'a' => ['\x07']
  | 'b' => ['\x08']
  | 't' => ['\t']
  | 'r' => ['\r']
  | 'n' => ['\n']
  | '\n' => []
  | c => [c]

/-- The character that four hexadecimal digits stand for; a plus sign may stand for the first. -/
def numeric? (ds : List Char) : Option Char :=
  let ds := match ds with | '+' :: r => r | _ => ds
  (hexNatural? ds).bind fun n => if n.isValidChar then some (Char.ofNat n) else none

/-- Where text stands with its escapes: outside, behind a backslash, or inside a numeral. -/
inductive Escape
  | outside
  | letter
  | numeral (ds : List Char)
  deriving DecidableEq, Repr

/-- Puts text in front of the text that was taken. -/
def within (text : List Char) (taken : Except (List Char) (List Char × List Char)) :
    Except (List Char) (List Char × List Char) :=
  taken.map fun (more, r) => (text ++ more, r)

/-- Takes text up to one of the characters that end it: the text and the rest, or else what is left
    behind the place where that fails.  `atEnd` says whether the end of everything ends it too. -/
def takeUntil (stops : Char → Bool) (atEnd : Bool) :
    Escape → List Char → Except (List Char) (List Char × List Char)
  | .outside, [] => if atEnd then .ok ([], []) else .error []
  | _, [] => .error []
  | .outside, c :: cs =>
    if stops c then .ok ([], c :: cs)
    else if c = '\\' then takeUntil stops atEnd .letter cs
    else within [c] (takeUntil stops atEnd .outside cs)
  | .letter, c :: cs =>
    if c = 'x' then takeUntil stops atEnd (.numeral []) cs
    else within (escaped c) (takeUntil stops atEnd .outside cs)
  | .numeral ds, c :: cs =>
    let ds := ds ++ [c]
    if ds.length < 4 then takeUntil stops atEnd (.numeral ds) cs
    else match numeric? ds with
      | some d => within [d] (takeUntil stops atEnd .outside cs)
      | none => .error cs

/-- Whether a character ends a line. -/
def isBreak (c : Char) : Bool := c = '\n' || c = '\r'

/-- Takes a value: parts in quotes, and then the rest of the line without the blanks around it;
    after a part in quotes blanks in front do not go.  `fuel` bounds the number of parts. -/
def value? : Nat → (isFirst : Bool) → List Char → Option (List Char × List Char)
  | 0, _, _ => none
  | fuel + 1, isFirst, cs =>
    match cs with
    | [] => some ([], [])
    | c :: r =>
      if c = '"' || c = '\'' then
        (takeUntil (· = c) false .outside r).toOption.bind fun (part, r) =>
          (value? fuel false (r.drop 1)).map fun (text, r) => (part ++ text, r)
      else
        (takeUntil isBreak true .outside cs).toOption.map fun (part, r) =>
          (if isFirst then trim part else trimEnd isBlank part, r)

/-! ## Items -/

/-- What a text says, piece by piece. -/
inductive Item
  | section_ (name : String)
  | entry (key value : String)
  deriving DecidableEq, Repr

/-- Passes over blanks and ends of lines, but not over blanks that start a line.  Tells whether what
    follows is at the start of a line, given that for the text itself. -/
def skip : (atStart : Bool) → List Char → Bool × List Char
  | atStart, [] => (atStart, [])
  | atStart, c :: cs =>
    if isBreak c then
      if cs.head?.any fun d => d = ' ' || d = '\t' then (c = '\n', cs) else skip (c = '\n') cs
    else if isBlank c then skip false cs
    else (atStart, c :: cs)

/-- Takes a key and its value. -/
def entry? (cs : List Char) : Except (List Char) (Option (Item × List Char)) :=
  (takeUntil (fun c => c = '=' || c = ':') false .outside cs).map fun (key, r) =>
    let key := trim key
    if key.isEmpty then none
    else
      let r := (r.drop 1).dropWhile fun c => isBlank c && !isBreak c
      (value? (r.length + 1) true r).map fun (value, r) =>
        (.entry (String.ofList key) (String.ofList value), r)

/-- Takes all items.  What starts with a blank and is no entry does not count.  `fuel` bounds the
    number of items. -/
def itemsFrom? : Nat → (atStart : Bool) → List Char → Option (List Item)
  | 0, _, _ => none
  | fuel + 1, atStart, cs =>
    let on (atStart : Bool) (r : List Char) :=
      let (atStart, r) := skip atStart r
      itemsFrom? fuel atStart r
    match cs with
    | [] => some []
    | c :: r =>
      if c = ';' || c = '#' then
        if atStart then on true ((r.dropWhile (· ≠ '\n')).drop 1) else none
      else if c = '[' then
        (takeUntil (· = ']') false .outside r).toOption.bind fun (name, r) =>
          (on false (r.drop 1)).map (.section_ (String.ofList (trim name)) :: ·)
      else
        match entry? cs with
        | .ok (some (item, r)) => (on false r).map (item :: ·)
        | .ok none => none
        -- A line that starts with a blank need not be an entry.
        | .error r => if c = ' ' || c = '\t' then on false r else none

/-- What a text says. -/
def items? (cs : List Char) : Option (List Item) :=
  let blanks := cs.takeWhile isBlank
  itemsFrom? (cs.length + 1) (blanks.getLast?.all (· = '\n')) (cs.drop blanks.length)

/-! ## The tree -/

/-- The members that items make; `section?` is the section that they are in, with its members. -/
def gather (members : List (String × Setting)) :
    (section? : Option (String × List (String × Setting))) → List Item → List (String × Setting)
  | none, [] => members
  | some (name, inner), [] => Setting.assign name (.table inner) members
  | none, .section_ name :: is => gather members (some (name, [])) is
  | some (name, inner), .section_ next :: is =>
    gather (Setting.assign name (.table inner) members) (some (next, [])) is
  | none, .entry key value :: is => gather (Setting.assign key (.text value) members) none is
  | some (name, inner), .entry key value :: is =>
    gather members (some (name, Setting.assign key (.text value) inner)) is

/-- The tree of a text. -/
def read? (cs : List Char) : Option Setting := (items? cs).map fun is => .table (gather [] none is)

end ServiceRegistry.Ini
