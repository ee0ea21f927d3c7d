/-
  Text of TOML: lines, strings and keys.

  A line ends with a line feed, perhaps behind a carriage return, which stands nowhere else outside
  strings.  Comments and strings hold no control characters but tabs.  A string in three quotes may
  go on over several lines.

    * `endOfLine?`, `skipLines?`   over blanks, comments and ends of lines;
    * `string?`                    takes a string;
    * `keys?`                      takes a key, or several joined by dots.
-/
import ServiceRegistry.Text.Hex

namespace ServiceRegistry.Toml

open ServiceRegistry.Text

/-- What is taken off a text, and the rest. -/
abbrev Taken (α : Type) := Option (α × List Char)

/-! ## Lines -/

/-- A blank within a line. -/
def isGap (c : Char) : Bool := c = ' ' || c = '\t'

/-- Whether a character may stand in a string or a comment. -/
def isPrintable (c : Char) : Bool := c = '\t' || (0x20 ≤ c.toNat && c.toNat ≠ 0x7F)

/-- What follows blanks. -/
def overGaps (cs : List Char) : List Char := cs.dropWhile isGap

/-- What follows blanks and a comment. -/
def overComment (cs : List Char) : List Char :=
  match overGaps cs with
  | '#' :: r => r.dropWhile isPrintable
  | r => r

/-- What follows the end of a line, if it is one. -/
def newline? : List Char → Option (List Char)
  | '\n' :: r => some r
  | '\r' :: '\n' :: r => some r
  | _ => none

/-- What follows the line, if only blanks and a comment are left of it. -/
def endOfLine? (cs : List Char) : Option (List Char) :=
  match overComment cs with
  | [] => some []
  | r => newline? r

/-- What follows blanks, comments and ends of lines.  A comment that no line ends after stays.
    `fuel` bounds the number of lines. -/
def skipLines : Nat → List Char → List Char
  | 0, cs => cs
  | fuel + 1, cs =>
    match newline? (overComment cs) with
    | some r => skipLines fuel r
    | none => overGaps cs

/-- What follows blanks, comments and ends of lines. -/
def overLines (cs : List Char) : List Char := skipLines (cs.length + 1) cs

/-! ## Strings -/

/-- The text of a single-quoted string after its opening, and the rest. -/
def literal? : List Char → Taken (List Char)
  | '\'' :: cs => some ([], cs)
  | c :: cs => if isPrintable c then (literal? cs).map fun (t, r) => (c :: t, r) else none
  | [] => none

/-- What a one-letter escape stands for. -/
def escaped? (c : Char) : Option Char :=
  match c with
  | 'b' => some '\x08'
  | 't' => some '\t'
  | 'n' => some '\n'
  | 'f' => some '\x0c'
  | 'r' => some '\r'
  | 'e' => some '\x1b'
  | '"' => some '"'
  | '\\' => some '\\'
  | _ => none

/-- How many hexadecimal digits follow the letter of an escape. -/
def escapeWidth? (c : Char) : Option Nat :=
  match c with
  | 'x' => some 2
  | 'u' => some 4
  | 'U' => some 8
  | _ => none

/-- The character that an escape stands for, without its backslash, and the rest. -/
def escape? : List Char → Taken Char
  | [] => none
  | c :: cs =>
    match escapeWidth? c with
    | none => (escaped? c).map (·, cs)
    | some width =>
      if cs.length < width then none
      else (hexNatural? (cs.take width)).bind fun n =>
        if n.isValidChar then some (Char.ofNat n, cs.drop width) else none

/-- The text of a double-quoted string after its opening, and the rest.  `fuel` bounds the number of
    characters. -/
def basic? : Nat → List Char → Taken (List Char)
  | _ + 1, '"' :: cs => some ([], cs)
  | fuel + 1, '\\' :: cs =>
    (escape? cs).bind fun (d, cs) => (basic? fuel cs).map fun (t, r) => (d :: t, r)
  | fuel + 1, c :: cs =>
    if isPrintable c then (basic? fuel cs).map fun (t, r) => (c :: t, r) else none
  | _, _ => none

/-- What follows blanks and ends of lines.  `fuel` bounds the number of lines. -/
def overSpace : Nat → List Char → List Char
  | 0, cs => cs
  | fuel + 1, cs =>
    match newline? (overGaps cs) with
    | some r => overSpace fuel r
    | none => overGaps cs

/-- What follows a backslash at the end of a line: the text on a later line. -/
def continued? (cs : List Char) : Option (List Char) :=
  (newline? (overGaps cs)).map fun r => overSpace (r.length + 1) r

/-- The text of a string in three quotes after its opening, and the rest: up to two quotes may stand
    in front of the closing ones.  `fuel` bounds the number of characters. -/
def long? (quote : Char) : Nat → List Char → Taken (List Char)
  | 0, _ => none
  | fuel + 1, cs =>
    let quotes := cs.takeWhile (· = quote)
    if 3 ≤ quotes.length then
      let n := min 5 quotes.length
      some (quotes.take (n - 3), cs.drop n)
    else
      match cs with
      | [] => none
      | c :: r =>
        let after (text rest : List Char) :=
          (long? quote fuel rest).map fun (t, r) => (text ++ t, r)
        if c = '\\' && quote = '"' then
          match continued? r with
          | some r => long? quote fuel r
          | none => (escape? r).bind fun (d, r) => after [d] r
        else
          match newline? cs with
          | some rest => after (cs.take (cs.length - rest.length)) rest
          | none => if isPrintable c then after [c] r else none

/-- Takes a string on one line. -/
def short? : List Char → Taken String
  | '\'' :: cs => (literal? cs).map fun (t, r) => (String.ofList t, r)
  | '"' :: cs => (basic? (cs.length + 1) cs).map fun (t, r) => (String.ofList t, r)
  | _ => none

/-- Takes a string; in three quotes the end of a line right behind them does not count. -/
def string? (cs : List Char) : Taken String :=
  match cs with
  | [] => none
  | quote :: _ =>
    if cs.take 3 = [quote, quote, quote] then
      let r := (newline? (cs.drop 3)).getD (cs.drop 3)
      (long? quote (r.length + 1) r).map fun (t, r) => (String.ofList t, r)
    else short? cs

/-! ## Keys -/

/-- A character of a key without quotes. -/
def isBare (c : Char) : Bool := c.isAlphanum || c = '_' || c = '-'

/-- Takes a single key. -/
def key? (cs : List Char) : Taken String :=
  let bare := cs.takeWhile isBare
  if bare.isEmpty then short? cs else some (String.ofList bare, cs.drop bare.length)

/-- Takes keys joined by dots, with blanks around them: those in front, and the last one.  `fuel`
    bounds their number. -/
def takeKeys : Nat → List Char → Taken (List String × String)
  | 0, _ => none
  | fuel + 1, cs =>
    (key? (overGaps cs)).bind fun (key, r) =>
      match overGaps r with
      | '.' :: r => (takeKeys fuel r).map fun ((path, last), r) => ((key :: path, last), r)
      | r => some (([], key), r)

/-- Takes keys joined by dots: those in front, and the last one. -/
def keys? (cs : List Char) : Taken (List String × String) := takeKeys (cs.length + 1) cs

end ServiceRegistry.Toml
