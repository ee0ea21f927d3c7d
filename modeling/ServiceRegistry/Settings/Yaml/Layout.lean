/-
  The layout of a YAML text.

  Reading goes from token to token.  Outside brackets the column where a line starts says which list
  or table it goes on; what ended before it gets a token for its end.  A colon turns what stands in
  front of it on its line into a key, and perhaps into the first key of a table: the tokens for
  these are put in before it then.

    * `Layout`            how far a text is read, and what is open;
    * `Layout.next?`      reads one more token;
    * `Layout.unrolled`        going back to an indentation, with the tokens for what ends;
    * `Token.ofText?`     all tokens of a text.
-/
import ServiceRegistry.Settings.Yaml.Block
import ServiceRegistry.Settings.Yaml.Plain
import ServiceRegistry.Settings.Yaml.Quoted
import ServiceRegistry.Settings.Yaml.Token

namespace ServiceRegistry.Yaml

/-- What is open at an indentation: the indentation outside of it, and whether it is a list or table
    that needs a token for its end. -/
structure Indent where
  column : Int
  hasEnd : Bool
  deriving DecidableEq, Repr

/-- A place where a key may have begun: whether it still may be one, whether it has to be, how many
    tokens stand before it, and where it is. -/
structure KeySpot where
  isPossible : Bool := false
  isRequired : Bool := false
  number : Nat := 0
  place : Cursor := { rest := [] }
  deriving DecidableEq, Repr

/-- How far a text is read, and what is open. -/
structure Layout where
  cursor : Cursor
  /-- The tokens, the last one first. -/
  tokens : List Token := []
  /-- The indentation that counts now, and those around it. -/
  indent : Int := -1
  indents : List Indent := []
  /-- Whether a key may begin here. -/
  keyAllowed : Bool := true
  /-- The last place for a key, outside brackets and inside each pair of them; the innermost one
      first. -/
  keys : List KeySpot := [{}]
  /-- Whether a brace or a question mark has said that keys follow. -/
  keysAnnounced : Bool := false
  /-- For each open bracket, the innermost one first, whether a pair without braces is open. -/
  pairs : List Bool := []
  /-- Where a colon is an indicator whatever follows. -/
  adjacent : Nat := 0
  deriving DecidableEq, Repr

namespace Layout

/-! ## Parts of the state -/

/-- How many brackets and braces are open. -/
def depth (l : Layout) : Nat := l.keys.length - 1

/-- Whether a bracket or brace is open. -/
def inFlow (l : Layout) : Bool := 0 < l.depth

/-- Adds a token. -/
def push (t : Token) (l : Layout) : Layout := { l with tokens := t :: l.tokens }

/-- Adds a token behind the first so many. -/
def insert (number : Nat) (t : Token) (l : Layout) : Layout :=
  let n := l.tokens.length - number
  { l with tokens := l.tokens.take n ++ t :: l.tokens.drop n }

/-- Moves to a place. -/
def movedTo (c : Cursor) (l : Layout) : Layout := { l with cursor := c }

/-- Says whether a key may begin now. -/
def allowing (allowed : Bool) (l : Layout) : Layout := { l with keyAllowed := allowed }

/-- The last place for a key. -/
def key (l : Layout) : KeySpot := l.keys.head?.getD {}

/-- Changes the last place for a key. -/
def withKey (k : KeySpot) (l : Layout) : Layout := { l with keys := k :: l.keys.drop 1 }

/-- Remembers that a key may begin here. -/
def markKey (l : Layout) : Layout :=
  if l.keyAllowed then
    let isRequired := !l.inFlow && l.indent = l.cursor.column
      && l.indents.head?.any (·.hasEnd)
    l.withKey { isPossible := true, isRequired, number := l.tokens.length, place := l.cursor }
  else l

/-- Forgets the last place for a key, unless there has to be one. -/
def dropKey (l : Layout) : Option Layout :=
  if l.key.isPossible && l.key.isRequired then none
  else some (l.withKey { l.key with isPossible := false })

/-- A key outside brackets stands on one line and is not long. -/
def staleKey (l : Layout) : Option Layout :=
  let place := l.key.place
  if !l.inFlow && l.key.isPossible
      && (place.line < l.cursor.line || place.index + 1024 < l.cursor.index) then l.dropKey
  else some l

/-! ## Indentation -/

/-- Goes back to an indentation: the tokens for what ends, and the indentation and those around it
    that are left. -/
def unrolled (column : Int) : Int → List Indent → List Token × Int × List Indent
  | indent, [] => ([], indent, [])
  | indent, i :: is =>
    if column < indent then
      let (ends, left) := unrolled column i.column is
      (if i.hasEnd then Token.blockEnd :: ends else ends, left)
    else ([], indent, i :: is)

/-- Ends what stands to the right of a column. -/
def unroll (column : Int) (l : Layout) : Layout :=
  if l.inFlow then l
  else
    let (ends, indent, indents) := unrolled column l.indent l.indents
    { l with tokens := ends.reverse ++ l.tokens, indent, indents }

/-- Leaves indentations that are no list and no table. -/
def unrollOpen (l : Layout) : Layout :=
  match l.indents.dropWhile (!·.hasEnd), (l.indents.takeWhile (!·.hasEnd)).getLast? with
  | indents, some i => { l with indent := i.column, indents }
  | _, none => l

/-- Begins a list or a table at a column, unless it is the one that is open there; its token is
    added behind the first `number` ones. -/
def roll (column : Nat) (number : Nat) (t : Token) (l : Layout) : Layout :=
  if l.inFlow then l
  else
    let l : Layout := match l.indents with
      | i :: is => if l.indent ≤ column && !i.hasEnd then
          { l with indent := i.column, indents := is } else l
      | [] => l
    if l.indent < column then
      { l.insert number t with indent := column, indents := ⟨l.indent, true⟩ :: l.indents }
    else l

/-- What follows in a list or a table has to stand one column further to the right. -/
def rollOne (l : Layout) : Layout :=
  if !l.inFlow && l.indents.head?.any (·.hasEnd) then
    { l with indent := l.indent + 1, indents := ⟨l.indent, false⟩ :: l.indents }
  else l

/-! ## Between tokens -/

/-- Moves over the end of a line, after which a key may begin. -/
def overBreak (l : Layout) : Layout :=
  { l with cursor := l.cursor.newline, keyAllowed := l.keyAllowed || !l.inFlow }

/-- Moves to the next token: over blanks, ends of lines and comments.  A tab may not indent a line
    with text. -/
def toToken : Nat → Layout → Option Layout
  | 0, l => some l
  | fuel + 1, l =>
    let c := l.cursor
    match c.head? with
    | some '\t' =>
      if !l.indents.isEmpty && c.isLeading && c.column < l.indent then
        (c.restOfLine? true).bind fun (c, _) =>
          if endsLine c.head? then toToken fuel (l.movedTo c) else none
      else toToken fuel (l.movedTo (c.gaps 1))
    | some ' ' => toToken fuel (l.movedTo (c.gaps 1))
    | some '#' => toToken fuel (l.movedTo c.overLine)
    | some x => if isBreak x then toToken fuel l.overBreak else some l
    | none => some l

/-- Moves over spaces, ends of lines and comments, of which there is at least one. -/
def overSpace : Nat → Bool → Layout → Option Layout
  | 0, hasMoved, l => if hasMoved then some l else none
  | fuel + 1, hasMoved, l =>
    let c := l.cursor
    match c.head? with
    | some ' ' => overSpace fuel true (l.movedTo (c.gaps 1))
    | some '#' => overSpace fuel hasMoved (l.movedTo c.overLine)
    | some x =>
      if isBreak x then overSpace fuel true l.overBreak else if hasMoved then some l else none
    | none => if hasMoved then some l else none

/-- Moves over what is left of the line, if that is blanks and a comment. -/
def overRest (l : Layout) : Option Layout :=
  (l.cursor.restOfLine? true).map fun (c, _) => l.movedTo c

/-! ## Brackets -/

/-- Opens a bracket or a brace. -/
def openFlow (t : Token) (l : Layout) : Option Layout :=
  let l := l.markKey.rollOne
  if 255 ≤ l.depth then none
  else
    let l := { l with keys := {} :: l.keys, keyAllowed := true, cursor := l.cursor.steps 1 }
    let l := if t = .openTable then { l with keysAnnounced := true }
      else { l with pairs := false :: l.pairs }
    l.overRest.map (·.push t)

/-- Ends a pair without braces. -/
def endPair (l : Layout) : Layout :=
  match l.pairs with
  | true :: ps => { l.push .closeTable with keysAnnounced := false, pairs := false :: ps }
  | _ => l

/-- Closes a bracket or a brace. -/
def closeFlow (t : Token) (l : Layout) : Option Layout :=
  l.dropKey.bind fun l =>
    let l := { l with keys := if l.inFlow then l.keys.drop 1 else l.keys, keyAllowed := false }
    let l := if t = .closeList then { l.endPair with pairs := l.pairs.drop 1 } else l
    (l.movedTo (l.cursor.steps 1)).overRest.map fun l =>
      { l.push t with adjacent := if l.inFlow then l.cursor.index else l.adjacent }

/-- A comma between items. -/
def comma (l : Layout) : Option Layout :=
  l.dropKey.bind fun l =>
    ((l.allowing true).endPair.movedTo (l.cursor.steps 1)).overRest.map (·.push .comma)

/-! ## Signs outside brackets -/

/-- A dash before an item. -/
def dash (l : Layout) : Option Layout :=
  if l.inFlow || !l.keyAllowed then none
  else
    let l := (l.movedTo (l.cursor.steps 1)).roll l.cursor.column l.tokens.length .blockList
    (l.cursor.restOfLine? true).bind fun (c, blanks) =>
      if blanks.contains '\t' && c.head? = some '-' && endsWord c.next? then none
      else
        let l := l.movedTo c
        let l := if c.head?.any fun x => isBreak x || isFlow x then l.rollOne else l
        l.dropKey.map fun l => (l.allowing true).push .dash

/-- A question mark before a key. -/
def question (l : Layout) : Option Layout :=
  if !l.inFlow && !l.keyAllowed then none
  else
    let l := if l.inFlow then { l with keysAnnounced := true }
      else l.roll l.cursor.column l.tokens.length .blockTable
    l.dropKey.bind fun l =>
      let l := (l.allowing (!l.inFlow)).movedTo (l.cursor.steps 1)
      (overSpace l.cursor.rest.length false l).bind fun l =>
        if l.cursor.head? = some '\t' then none else some (l.push .key)

/-- A colon before a value.  What may have been a key becomes one. -/
def colon (l : Layout) : Option Layout :=
  let k := l.key
  let start := l.cursor
  let isPair := !l.pairs.isEmpty && !l.keysAnnounced
  let l := if isPair then { l with pairs := true :: l.pairs.drop 1 } else l
  let c := start.steps 1
  let moved := if c.head? = some '\t' then
      (c.restOfLine? true).bind fun (c, blanks) =>
        if !blanks.contains ' ' && c.head?.any isWordChar then none else some c
    else some c
  moved.bind fun c =>
    let l := l.movedTo c
    if k.isPossible then
      -- What stands at `k.place` is the key: its tokens go in there.
      if isPair && k.place.line < start.line then none
      else
        let l := l.insert k.number .key
        let l := if isPair then l.insert k.number .openTable else l
        let l := (l.roll k.place.column k.number .blockTable).rollOne
        some (((l.withKey { k with isPossible := false }).allowing false).push .value)
    else
      -- The key was told by a question mark, or is not written.
      let l := if isPair then l.push .openTable else l
      if !l.inFlow && !l.keyAllowed then none
      else
        let l := (l.roll start.column l.tokens.length .blockTable).rollOne
        some ((l.allowing (!l.inFlow)).push .value)

/-! ## Scalars, anchors and tags -/

/-- Adds what is taken here; no key may begin after it. -/
def take (l : Layout) (taken : Cursor → Taken Token) : Option Layout :=
  let l := l.markKey.allowing false
  (taken l.cursor).map fun (t, c) => (l.movedTo c).push t

/-- A quoted scalar. -/
def quoted (quote : Char) (l : Layout) : Option Layout :=
  let l := l.markKey.allowing false
  (quoted? l.inFlow l.indent quote l.cursor).bind fun (text, c) =>
    (toToken c.rest.length (l.movedTo c)).map fun l =>
      { l.push (.scalar false text) with adjacent := l.cursor.index }

/-- A plain scalar; a key may begin after it when a line has ended. -/
def plain (l : Layout) : Option Layout :=
  let l := (l.markKey.allowing false).unrollOpen
  (plain? l.inFlow (l.indent + 1) l.cursor).map fun (text, c) =>
    ((l.movedTo c).allowing c.isLeading).push (.scalar true text)

/-- A block scalar. -/
def block (l : Layout) : Option Layout :=
  let l := (l.markKey.allowing true).unrollOpen
  (block? l.indent l.cursor).map fun (text, c) => (l.movedTo c).push (.scalar false text)

/-! ## Documents -/

/-- Ends all that is open. -/
def endAll (l : Layout) : Option Layout := (l.unroll (-1)).dropKey.map (·.allowing false)

/-- A line about the text. -/
def directive (l : Layout) : Option Layout :=
  l.endAll.bind fun l => (directive? l.cursor).map fun (t, c) => (l.movedTo c).push t

/-- The mark where a document begins. -/
def documentStart (l : Layout) : Option Layout :=
  l.endAll.map fun l => (l.movedTo (l.cursor.steps 3)).push .documentStart

/-- The mark where a document ends; nothing follows it on its line. -/
def documentEnd (l : Layout) : Option Layout :=
  l.endAll.bind fun l => ((l.movedTo (l.cursor.steps 3)).push .documentEnd).overRest.filter fun l =>
    endsLine l.cursor.head?

/-- The end of the text. -/
def textEnd (l : Layout) : Option Layout :=
  if l.keys.any fun k => k.isPossible && k.isRequired then none
  else some ((l.unroll (-1)).push .textEnd)

/-! ## Tokens -/

/-- Reads the token that is here. -/
def token (l : Layout) : Option Layout :=
  let c := l.cursor
  let next := c.next?
  match c.head? with
  | none => none
  | some '[' => l.openFlow .openList
  | some '\x7b' => l.openFlow .openTable
  | some ']' => l.closeFlow .closeList
  | some '\x7d' => l.closeFlow .closeTable
  | some ',' => l.comma
  | some '*' => l.take fun c => (anchor? c).map fun (name, c) => (.alias name, c)
  | some '&' => l.take fun c => (anchor? c).map fun (name, c) => (.anchor name, c)
  | some '!' => l.take (tag? l.inFlow)
  | some '\'' => l.quoted '\''
  | some '"' => l.quoted '"'
  | some x =>
    if x = '-' && endsWord next then l.dash
    else if x = '?' && endsWord next then l.question
    else if x = ':' && (endsWord next
        || (l.inFlow && (next.any isFlow || c.index = l.adjacent))) then l.colon
    else if (x = '|' || x = '>') && !l.inFlow then l.block
    else if x = '%' || x = '@' || x = '\x60' then none
    else l.plain

/-- Reads one more token, or two where a document ends. -/
def next? (l : Layout) : Option Layout :=
  (toToken (l.cursor.rest.length + 1) l).bind fun l => l.staleKey.bind fun l =>
    let l := l.unroll l.cursor.column
    let c := l.cursor
    if c.isEnd then l.textEnd
    else if c.column = 0 && c.head? = some '%' then l.directive
    else if c.column = 0 && c.isTriple '-' then l.documentStart
    else if c.column = 0 && c.isTriple '.' then l.documentEnd
    else if c.column < l.indent then none
    else l.token

/-- Reads at most so many tokens. -/
def all? : Nat → Layout → Option Layout
  | 0, _ => none
  | fuel + 1, l => l.next?.bind fun l =>
    if l.tokens.head? = some .textEnd then some l else all? fuel l

end Layout

/-- The tokens of a text. -/
def Token.ofText? (cs : List Char) : Option (List Token) :=
  (Layout.all? (cs.length + 2) { cursor := { rest := cs } }).map (·.tokens.reverse)

/-- A plain scalar as a token. -/
def Token.plain (s : String) : Token := .scalar true s.toList

end ServiceRegistry.Yaml
