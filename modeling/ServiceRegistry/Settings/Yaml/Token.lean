/-
  Tokens of YAML.

  Nested lists and tables are told by tokens for their ends; outside brackets the end is where a
  line starts further to the left.  Names of tags and anchors are taken here.

    * `Token`      the tokens;
    * `anchor?`, `tag?`, `directive?`   taking those that begin with a sign of their own.
-/
import ServiceRegistry.Settings.Yaml.Cursor
import ServiceRegistry.Text.Hex

namespace ServiceRegistry.Yaml

open ServiceRegistry.Text

/-- A token. -/
inductive Token
  /-- A line about the text itself. -/
  | version
  /-- What a handle of tags stands for. -/
  | handle (name meaning : String)
  | documentStart
  | documentEnd
  | textEnd
  /-- A list or a table outside brackets begins, one of them ends. -/
  | blockList
  | blockTable
  | blockEnd
  /-- Brackets and braces. -/
  | openList
  | closeList
  | openTable
  | closeTable
  /-- What stands before an item outside brackets, and between two inside. -/
  | dash
  | comma
  /-- A key follows, a value follows. -/
  | key
  | value
  | alias (name : String)
  | anchor (name : String)
  | tag (handle suffix : String)
  | scalar (isPlain : Bool) (text : List Char)
  deriving DecidableEq, Repr

/-- What is taken at a cursor, and the place after it. -/
abbrev Taken (α : Type) := Option (α × Cursor)

/-- Takes the longest text of such characters. -/
def takeRun (p : Char → Bool) (c : Cursor) : List Char × Cursor :=
  let run := c.rest.takeWhile p
  (run, if run.isEmpty then c else c.steps run.length)

/-! ## Anchors -/

/-- A character of the name of an anchor. -/
def isAnchorChar (c : Char) : Bool := !isGap c && !isBreak c && !isFlow c && c ≠ '\uFEFF'

/-- Takes the name of an anchor after its sign. -/
def anchor? (c : Cursor) : Taken String :=
  let (name, c) := takeRun isAnchorChar (c.steps 1)
  if name.isEmpty then none else some (String.ofList name, c)

/-! ## Tags -/

/-- A character of the address of a tag. -/
def isAddressChar (c : Char) : Bool := c.isAlphanum || "-#;/?:@&=+$,_.!~*'()[]%".toList.contains c

/-- A character of a shortened tag. -/
def isTagChar (c : Char) : Bool := isAddressChar c && !isFlow c && c ≠ '!'

/-- The character that a percent sign and digits stand for, and how long that is.  Of two bytes the
    character is the one with both as its code. -/
def unescaped? : List Char → Option (Char × Nat)
  | '%' :: a :: b :: r =>
    (hexByte? a b).bind fun x =>
      if x < 0x80 then some (Char.ofNat x.toNat, 3)
      else match r with
        | '%' :: a :: b :: _ =>
          (hexByte? a b).bind fun y =>
            let n := 256 * x.toNat + y.toNat
            if 0xC0 ≤ x && x < 0xE0 && 0x80 ≤ y && y < 0xC0 && n.isValidChar then
              some (Char.ofNat n, 6)
            else none
        | _ => none
  | _ => none

/-- Takes characters of an address while they are such. -/
def takeAddress (p : Char → Bool) : Nat → Cursor → Taken (List Char)
  | 0, c => some ([], c)
  | fuel + 1, c =>
    match c.head? with
    | none => some ([], c)
    | some x =>
      if !p x then some ([], c)
      else
        (if x = '%' then unescaped? c.rest else some (x, 1)).bind fun (x, n) =>
          (takeAddress p fuel (c.steps n)).map fun (xs, c) => (x :: xs, c)

/-- Takes all characters of an address that are such. -/
def address? (p : Char → Bool) (c : Cursor) : Taken (List Char) := takeAddress p c.rest.length c

/-- Takes a handle: an exclamation mark, a word, and perhaps another mark. -/
def handle (c : Cursor) : List Char × Cursor :=
  let (word, c) := takeRun isWordChar (c.steps 1)
  if c.head? = some '!' then ('!' :: word ++ ['!'], c.steps 1) else ('!' :: word, c)

/-- Takes an address between angle brackets, the first of which is left out. -/
def verbatim? (c : Cursor) : Taken Token :=
  (address? isAddressChar c).bind fun (address, c) =>
    if c.head? = some '>' then some (.tag "" (String.ofList address), c.steps 1) else none

/-- Takes a shortened tag. -/
def shortened? (c : Cursor) : Taken Token :=
  let (handle, c) := handle c
  (address? isTagChar c).bind fun (address, c) =>
    if 2 ≤ handle.length && handle.getLast? = some '!' then
      if address.isEmpty then none
      else some (.tag (String.ofList handle) (String.ofList address), c)
    else
      let suffix := handle.drop 1 ++ address
      some (if suffix.isEmpty then .tag "" "!" else .tag "!" (String.ofList suffix), c)

/-- Takes a tag; a word has to end after it. -/
def tag? (inFlow : Bool) (c : Cursor) : Taken Token :=
  (if c.next? = some '<' then verbatim? (c.steps 2) else shortened? c).filter fun (_, c) =>
    endsWord c.head? || (inFlow && c.head?.any isFlow)

/-! ## Lines about the text -/

/-- Takes a number of at most nine digits. -/
def versionNumber? (c : Cursor) : Taken Unit :=
  let (ds, c) := takeRun Char.isDigit c
  if ds.isEmpty || 9 < ds.length then none else some ((), c)

/-- Moves over blanks. -/
def overGaps (c : Cursor) : Cursor := c.gaps (c.rest.takeWhile isGap).length

/-- Takes a version. -/
def version? (c : Cursor) : Taken Token :=
  (versionNumber? (overGaps c)).bind fun (_, c) =>
    if c.head? ≠ some '.' then none
    else (versionNumber? (c.steps 1)).map fun (_, c) => (.version, c)

/-- Takes a handle and what it stands for. -/
def meaning? (c : Cursor) : Taken Token :=
  let c := overGaps c
  if c.head? ≠ some '!' then none
  else
    let (name, c) := handle c
    if 1 < name.length && name.getLast? ≠ some '!' then none
    else
      let c := overGaps c
      if !c.head?.any fun x => x = '!' || isTagChar x then none
      else
        (address? isAddressChar c).bind fun (address, c) =>
          if endsWord c.head? then
            some (.handle (String.ofList name) (String.ofList address), c)
          else none

/-- Takes a line about the text, with its end; one of another kind says nothing. -/
def directive? (c : Cursor) : Taken Token :=
  let (name, c) := takeRun isWordChar (c.steps 1)
  let read := match String.ofList name with
    | "YAML" => version? c
    | "TAG" => meaning? c
    | _ => some (.handle "" "", c.overLine)
  if name.isEmpty || !endsWord c.head? then none
  else read.bind fun (t, c) => (c.restOfLine? true).bind fun (c, _) =>
    if endsLine c.head? then some (t, if c.isEnd then c else c.newline) else none

end ServiceRegistry.Yaml
