/-
  Places in a YAML text.

  A cursor is what is left of a text, and where that stands: its index, line and column, and whether
  there are only blanks before it on its line.  A carriage return, a line feed and the first with
  the second behind it are each one end of a line; of blanks there are two, the space and the tab.

    * `Cursor.gaps`, `steps`, `newline`   moving on;
    * `Cursor.restOfLine?`                over blanks and a comment;
    * `Cursor.isMark`                     whether a document begins or ends here.
-/

namespace ServiceRegistry.Yaml

/-! ## Characters -/

/-- A blank. -/
def isGap (c : Char) : Bool := c = ' ' || c = '\t'

/-- A character that ends a line. -/
def isBreak (c : Char) : Bool := c = '\n' || c = '\r'

/-- An indicator inside brackets and braces. -/
def isFlow (c : Char) : Bool := ",[]\x7b\x7d".toList.contains c

/-- Whether a line ends before this character, or the text does. -/
def endsLine (c : Option Char) : Bool := c.all isBreak

/-- Whether a word ends before this character, or the text does. -/
def endsWord (c : Option Char) : Bool := c.all fun c => isGap c || isBreak c

/-- Letters, digits and two signs that are as good. -/
def isWordChar (c : Char) : Bool := c.isAlphanum || c = '_' || c = '-'

/-! ## Cursors -/

/-- A place in a text. -/
structure Cursor where
  rest : List Char
  index : Nat := 0
  line : Nat := 0
  column : Nat := 0
  isLeading : Bool := true
  deriving DecidableEq, Repr

namespace Cursor

/-- The character here. -/
def head? (c : Cursor) : Option Char := c.rest.head?

/-- The character after the one here. -/
def next? (c : Cursor) : Option Char := (c.rest.drop 1).head?

/-- Whether the text ends here. -/
def isEnd (c : Cursor) : Bool := c.rest.isEmpty

/-- Moves over blanks. -/
def gaps (n : Nat) (c : Cursor) : Cursor :=
  { c with rest := c.rest.drop n, index := c.index + n, column := c.column + n }

/-- Moves over characters of which not all are blank. -/
def steps (n : Nat) (c : Cursor) : Cursor := { c.gaps n with isLeading := false }

/-- Moves over the end of a line. -/
def newline (c : Cursor) : Cursor :=
  let n := match c.rest with
    | '\r' :: '\n' :: _ => 2
    | _ => 1
  { rest := c.rest.drop n, index := c.index + n, line := c.line + 1, column := 0 }

/-- Moves to the end of the line. -/
def overLine (c : Cursor) : Cursor := c.steps (c.rest.takeWhile (!isBreak ·)).length

/-- Moves over blanks and a comment, which has to stand after a blank.  The blanks are told; `tabs`
    says whether tabs are among them. -/
def restOfLine? (tabs : Bool) (c : Cursor) : Option (Cursor × List Char) :=
  let blanks := c.rest.takeWhile fun x => x = ' ' || (tabs && x = '\t')
  let c := c.gaps blanks.length
  if c.head? = some '#' then if blanks.isEmpty then none else some (c.overLine, blanks)
  else some (c, blanks)

/-- Whether three of a character stand here and a word ends after them. -/
def isTriple (x : Char) (c : Cursor) : Bool :=
  c.rest.take 3 = [x, x, x] && endsWord (c.rest.drop 3).head?

/-- Whether a document begins or ends here. -/
def isMark (c : Cursor) : Bool := c.column = 0 && (c.isTriple '-' || c.isTriple '.')

end Cursor

end ServiceRegistry.Yaml
