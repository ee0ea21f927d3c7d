/-
  Block scalars of YAML.

  After a bar or a greater-than sign a scalar stands on the lines that follow, to the right of what
  it belongs to.  Behind the bar the ends of its lines are kept, behind the sign they are folded
  between lines that begin with text.  Of the ends of lines at its end one is kept, or all, or none.

    * `block?`   takes one.
-/
import ServiceRegistry.Settings.Yaml.Folding
import ServiceRegistry.Text.Decimal

namespace ServiceRegistry.Yaml

/-! ## Header -/

/-- Which ends of lines at the end of a block scalar are kept. -/
inductive Chomp
  | clip
  | strip
  | keep
  deriving DecidableEq, Repr

/-- The sign of a way to chomp. -/
def Chomp.of? (c : Char) : Option Chomp :=
  match c with
  | '+' => some .keep
  | '-' => some .strip
  | _ => none

/-- How a block scalar is to be read: the increment of its indentation, if told, is not zero. -/
structure Header where
  chomp : Chomp := .clip
  increment : Option Nat := none
  deriving DecidableEq, Repr

/-- The header at the front of a text, and how long it is. -/
def header? (cs : List Char) : Option (Header × Nat) :=
  let digit? (c : Option Char) : Option Nat := (c.filter Char.isDigit).map Text.digitValue
  let chomp? (c : Option Char) : Option Chomp := c.bind Chomp.of?
  let first := cs.head?
  let second := (cs.drop 1).head?
  let header : Header × Nat := match chomp? first, digit? first with
    | some chomp, _ =>
      match digit? second with
      | some n => (⟨chomp, some n⟩, 2)
      | none => (⟨chomp, none⟩, 1)
    | none, some n =>
      match chomp? second with
      | some chomp => (⟨chomp, some n⟩, 2)
      | none => (⟨.clip, some n⟩, 1)
    | none, none => ({}, 0)
  if header.1.increment = some 0 then none else some header

/-! ## Lines -/

/-- Moves over spaces, at most up to a column. -/
def indented (column : Option Nat) (c : Cursor) : Cursor :=
  let spaces := (c.rest.takeWhile (· = ' ')).length
  c.gaps ((column.map fun n => min spaces (n - c.column)).getD spaces)

/-- Moves over empty lines and over the indentation of the next one, at most up to a column.  Tells
    how many lines were empty, and the rightmost column reached. -/
def emptyLines (column : Option Nat) : Nat → Nat → Nat → Cursor → Nat × Nat × Cursor
  | 0, breaks, widest, c => (breaks, widest, c)
  | fuel + 1, breaks, widest, c =>
    let c := indented column c
    let widest := max widest c.column
    if c.head?.any isBreak then emptyLines column fuel (breaks + 1) widest c.newline
    else (breaks, widest, c)

/-- What is read of a block scalar: the text, whether the last line has ended, how many empty lines
    followed, and whether it began with a blank. -/
structure Lines where
  text : List Char := []
  hasBroken : Bool := false
  breaks : Nat := 0
  isIndented : Bool := false
  deriving DecidableEq, Repr

/-- Adds a line. -/
def Lines.add (folds : Bool) (line : List Char) (ls : Lines) : Lines :=
  let isIndented := line.head?.any isGap
  let between :=
    if folds && ls.hasBroken && !ls.isIndented && !isIndented then
      if ls.breaks = 0 then [' '] else Folding.newlines ls.breaks
    else Folding.newlines (ls.hasBroken.toNat + ls.breaks)
  { text := ls.text ++ between ++ line, isIndented }

/-- Takes the lines that start at a column. -/
def blockLines (folds : Bool) (column : Nat) : Nat → Lines → Cursor → Lines × Cursor
  | 0, ls, c => (ls, c)
  | fuel + 1, ls, c =>
    if c.column ≠ column || c.isEnd || (column = 0 && c.isTriple '.') then (ls, c)
    else
      let ls := ls.add folds (c.rest.takeWhile (!isBreak ·))
      let c := c.overLine
      if c.isEnd then (ls, c)
      else
        let (breaks, _, c) := emptyLines (some column) c.rest.length 0 0 c.newline
        blockLines folds column fuel { ls with hasBroken := true, breaks } c

/-- The text of all lines, the ends of lines at the end being chomped.  A text that ends within a
    line of the scalar counts as ending with it. -/
def Lines.chomped (chomp : Chomp) (endsInside : Bool) (ls : Lines) : List Char :=
  match chomp with
  | .strip => ls.text
  | .clip => ls.text ++ Folding.newlines (ls.hasBroken.toNat + endsInside.toNat)
  | .keep => ls.text ++ Folding.newlines (ls.hasBroken.toNat + endsInside.toNat + ls.breaks)

/-- The text of a block scalar without lines. -/
def emptyText (chomp : Chomp) (hasBroken : Bool) (breaks : Nat) : List Char :=
  match chomp with
  | .strip => []
  | .clip => Folding.newlines hasBroken.toNat
  | .keep => if breaks = 0 then Folding.newlines hasBroken.toNat else Folding.newlines breaks

/-! ## Scalars -/

/-- Takes a block scalar, its sign being here; `column` is where that stands which it belongs to. -/
def block? (column : Int) (c : Cursor) : Option (List Char × Cursor) :=
  let folds := c.head? = some '>'
  (header? (c.rest.drop 1)).bind fun (header, length) =>
    ((c.steps (length + 1)).restOfLine? true).bind fun (e, _) =>
      if !endsLine e.head? then none
      else
        let hasBroken := !e.isEnd
        let e := if hasBroken then e.newline else e
        if e.head? = some '\t' then none
        else
          -- The first line with text tells the indentation when the header does not.
          let told := header.increment.map fun n => n + column.toNat
          let (breaks, widest, e) := emptyLines told (e.rest.length + 1) 0 0 e
          let indent := told.getD (max widest (column + 1).toNat)
          if e.isEnd then some (emptyText header.chomp hasBroken breaks, e)
          else if e.column < indent && column < e.column then none
          else
            let (ls, e) := blockLines folds indent (e.rest.length + 1) { breaks } e
            some (ls.chomped header.chomp (e.isEnd && max indent 1 ≤ e.column), e)

end ServiceRegistry.Yaml
