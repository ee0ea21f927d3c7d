/-
  Plain scalars of YAML as they are written.

  A plain scalar ends before a comment, before a colon that ends a word, before an indicator inside
  brackets, and where a line starts too far to the left.

    * `plain?`   takes one.
-/
import ServiceRegistry.Settings.Yaml.Folding

namespace ServiceRegistry.Yaml

/-- The part of a plain scalar up to a blank. -/
def plainWord (inFlow : Bool) : List Char → List Char
  | [] => []
  | c :: cs =>
    let isStop := isGap c || isBreak c || (inFlow && isFlow c)
      || (c = ':' && (endsWord cs.head? || (inFlow && cs.head?.any isFlow)))
    if isStop then [] else c :: plainWord inFlow cs

/-- Takes blanks and ends of lines.  A tab may stand in front of `column` only on a line without
    text. -/
def plainGaps (column : Int) : Nat → Folding → Cursor → Option (Folding × Cursor)
  | 0, f, c => some (f, c)
  | fuel + 1, f, c =>
    match c.head? with
    | none => some (f, c)
    | some x =>
      if isGap x then
        if !c.isLeading then plainGaps column fuel { f with blanks := f.blanks ++ [x] } (c.gaps 1)
        -- In front of the column only a line without text may hold a tab.
        else if c.column < column && x = '\t' then
          (c.restOfLine? true).bind fun (c, _) =>
            if endsLine c.head? then plainGaps column fuel f c else none
        else plainGaps column fuel f (c.gaps 1)
      else if isBreak x then
        plainGaps column fuel (if c.isLeading then f.brokenAgain else f.broken) c.newline
      else some (f, c)

/-- Takes words and what is between them; outside brackets lines start at `column` or after it. -/
def plainWords (inFlow : Bool) (column : Int) : Nat → Folding → Cursor → Option (List Char × Cursor)
  | 0, f, c => some (f.text, c)
  | fuel + 1, f, c =>
    if c.isMark || c.head? = some '#' then some (f.text, c)
    else if inFlow && c.head? = some '-' && c.next?.any isFlow then none
    else
      let word := plainWord inFlow c.rest
      let (f, c) :=
        if word.isEmpty then (f, c)
        else ({ text := f.joined c.isLeading ++ word }, c.steps word.length)
      if c.isEnd || !endsWord c.head? then some (f.text, c)
      else
        (plainGaps column c.rest.length f c).bind fun (f, c) =>
          if !inFlow && c.column < column then some (f.text, c)
          else plainWords inFlow column fuel f c

/-- Takes a plain scalar. -/
def plain? (inFlow : Bool) (column : Int) (c : Cursor) : Option (List Char × Cursor) :=
  if inFlow && c.column < column then none
  else plainWords inFlow column (c.rest.length + 1) {} c

end ServiceRegistry.Yaml
