/-
  JSON tokens.

  A text is a sequence of tokens.  Two kinds carry a doubt with them, because a reader that skips a
  value accepts more than one that wants it: a string that is closed properly but holds no text (a
  lone surrogate, a malformed byte) is `string none`, a numeral beyond the range of a double is
  `number none`.  Whatever is no token at all is `invalid`, and nothing follows it.

    * `Token.text`     how a token is written; `escape` the rule for characters inside a string;
    * `render`         the text of a token sequence, without blanks.
-/
import ServiceRegistry.Text.Double
import ServiceRegistry.Text.Hex

namespace ServiceRegistry.Json

open ServiceRegistry.Text

/-- A JSON number: an integer, or the bits of a double. -/
inductive Number
  | int (i : Int)
  | real (bits : UInt64)
  deriving DecidableEq, Repr

/-- A JSON token. -/
inductive Token
  | openBrace
  | closeBrace
  | openBracket
  | closeBracket
  | comma
  | colon
  | null
  | bool (b : Bool)
  | string (s : Option String)
  | number (n : Option Number)
  | invalid
  deriving DecidableEq, Repr

/-! ## Writing -/

/-- A character inside a string: the quote, the backslash and the controls are escaped. -/
def escape (c : Char) : List Char :=
  if c = '"' then ['\\', '"']
  else if c = '\\' then ['\\', '\\']
  else if c = '\x08' then ['\\', 'b']
  else if c = '\x0c' then ['\\', 'f']
  else if c = '\n' then ['\\', 'n']
  else if c = '\r' then ['\\', 'r']
  else if c = '\t' then ['\\', 't']
  else if c.toNat < 0x20 then
    ['\\', 'u', '0', '0', hexLower (c.toNat / 16), hexLower (c.toNat % 16)]
  else [c]

/-- A string in quotes. -/
def quoted (s : String) : List Char := '"' :: (s.toList.flatMap escape ++ ['"'])

/-- The text of a number; a double that is no number has none and is written `null`. -/
def Number.text : Number → List Char
  | .int i => integerText i
  | .real bits =>
    match Double.read bits with
    | .nan => "null".toList
    | .infinite _ => "null".toList
    | _ => Double.text .exponential bits

/-- The text of a token; the doubtful ones have none. -/
def Token.text : Token → List Char
  | .openBrace => ['\x7b']
  | .closeBrace => ['\x7d']
  | .openBracket => ['[']
  | .closeBracket => [']']
  | .comma => [',']
  | .colon => [':']
  | .null => "null".toList
  | .bool true => "true".toList
  | .bool false => "false".toList
  | .string (some s) => quoted s
  | .string none => []
  | .number (some n) => n.text
  | .number none => []
  | .invalid => []

/-- The text of a token sequence, without blanks. -/
def render (ts : List Token) : List Char := ts.flatMap Token.text

end ServiceRegistry.Json
