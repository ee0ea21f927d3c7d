/-
  Quoted scalars of YAML.

  In single quotes only a quote is special, and is written twice.  In double quotes a backslash is
  followed by a letter that stands for a character, by a numeral, or by the end of a line, which
  then does not count.  Lines are folded in both.

    * `quoted?`   takes the text after a quote up to the other one.
-/
import ServiceRegistry.Settings.Yaml.Folding
import ServiceRegistry.Text.Hex

namespace ServiceRegistry.Yaml

open ServiceRegistry.Text

/-! ## Escapes -/

/-- What a one-letter escape stands for. -/
def escaped? (c : Char) : Option Char :=
  match c with
  | '0' => some '\x00'
  | 'a' => some '\x07'
  | 'b' => some '\x08'
  | 't' => some '\t'
  | '\t' => some '\t'
  | 'n' => some '\n'
  | 'v' => some '\x0b'
  | 'f' => some '\x0c'
  | 'r' => some '\r'
  | 'e' => some '\x1b'
  | ' ' => some ' '
  | '"' => some '"'
  | '/' => some '/'
  | '\\' => some '\\'
  | 'N' => some '\u0085'
  | '_' => some '\u00a0'
  | 'L' => some '\u2028'
  | 'P' => some '\u2029'
  | _ => none

/-- How many hexadecimal digits follow the letter of an escape. -/
def escapeWidth? (c : Char) : Option Nat :=
  match c with
  | 'x' => some 2
  | 'u' => some 4
  | 'U' => some 8
  | _ => none

/-- The character that an escape stands for, without its backslash, and how long that is. -/
def escape? : List Char → Option (Char × Nat)
  | [] => none
  | c :: cs =>
    match escapeWidth? c with
    | none => (escaped? c).map (·, 1)
    | some width =>
      if cs.length < width then none
      else (hexNatural? (cs.take width)).bind fun n =>
        if n.isValidChar then some (Char.ofNat n, width + 1) else none

/-! ## Text -/

/-- Takes text up to a blank, the end of a line or the closing quote.  The flag says whether a line
    has ended that does not count. -/
def quotedWord (quote : Char) : Nat → Cursor → Option (List Char × Bool × Cursor)
  | 0, _ => none
  | fuel + 1, c =>
    let after (x : Char) (n : Nat) :=
      (quotedWord quote fuel (c.steps n)).map fun (text, r) => (x :: text, r)
    match c.head? with
    | none => some ([], false, c)
    | some x =>
      if isGap x || isBreak x then some ([], false, c)
      else if x = quote then
        if x = '\'' && c.next? = some '\'' then after '\'' 2 else some ([], false, c)
      else if x = '\\' && quote = '"' then
        if c.next?.any isBreak then some ([], true, (c.steps 1).newline)
        else (escape? (c.rest.drop 1)).bind fun (x, n) => after x (n + 1)
      else after x 1

/-- Takes blanks and ends of lines; `isBroken` says whether a line has ended.  A tab may not stand
    in front of `column`. -/
def quotedGaps (column : Int) : Nat → Bool → Folding → Cursor → Option (Bool × Folding × Cursor)
  | 0, isBroken, f, c => some (isBroken, f, c)
  | fuel + 1, isBroken, f, c =>
    match c.head? with
    | none => some (isBroken, f, c)
    | some x =>
      if isGap x then
        if !isBroken then
          quotedGaps column fuel false { f with blanks := f.blanks ++ [x] } (c.gaps 1)
        else if x = '\t' && c.column < column then none
        else quotedGaps column fuel true f (c.gaps 1)
      else if isBreak x then
        quotedGaps column fuel true (if isBroken then f.brokenAgain else f.broken) c.newline
      else some (isBroken, f, c)

/-- Takes words and what is between them up to the closing quote.  No line starts in front of
    `column`, and no document begins or ends. -/
def quotedWords (quote : Char) (column : Int) :
    Nat → List Char → Cursor → Option (List Char × Cursor)
  | 0, _, _ => none
  | fuel + 1, text, c =>
    if c.isMark || c.isEnd || c.column < column then none
    else
      (quotedWord quote (c.rest.length + 1) c).bind fun (word, isBroken, c) =>
        let text := text ++ word
        if c.head? = some quote then some (text, c.steps 1)
        else
          (quotedGaps column c.rest.length isBroken { text } c).bind fun (isBroken, f, c) =>
            quotedWords quote column fuel (f.joined isBroken) c

/-- Takes a quoted scalar, its opening quote being here: its text, and what is left behind blanks
    and a comment.  After it a line has to end, or an indicator to follow: inside brackets one of
    them, else a colon on the line that the scalar began on. -/
def quoted? (inFlow : Bool) (column : Int) (quote : Char) (c : Cursor) :
    Option (List Char × Cursor) :=
  (quotedWords quote column (c.rest.length + 1) [] (c.steps 1)).bind fun (text, e) =>
    (e.restOfLine? true).bind fun (e, _) =>
      let isFollowed := match e.head? with
        | some ':' => inFlow || e.line = c.line
        | some x => isBreak x || (inFlow && (x = ',' || x = ']' || x = '\x7d'))
        | none => true
      if isFollowed then some (text, e) else none

end ServiceRegistry.Yaml
