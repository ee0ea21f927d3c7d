/-
  Form-urlencoded text.

  A query is a list of pairs joined by `&`, each a key and a value joined by `=`.  Inside them a
  blank is written `+` and every byte outside letters, digits and `*-._` as `%` and two hexadecimal
  digits. Reading is lenient: a `%` that no two hexadecimal digits follow stands for itself,
  malformed bytes become U+FFFD, empty pairs are skipped, and a pair without `=` has the empty
  value.

    * `encode`, `decode`   one key or value;
    * `pairs`              a whole query.
-/
import ServiceRegistry.Text.Hex
import ServiceRegistry.Text.Octets
import ServiceRegistry.Text.Pieces

namespace ServiceRegistry.FormUrl

open ServiceRegistry.Text

/-! ## Writing -/

/-- Whether a byte is written as it is. -/
def isPlain (b : UInt8) : Bool :=
  within 0x30 0x39 b || within 0x41 0x5A b || within 0x61 0x7A b
    || b == 0x2A || b == 0x2D || b == 0x2E || b == 0x5F

/-- One byte, written. -/
def escape (b : UInt8) : List Char :=
  if isPlain b then [Char.ofNat b.toNat]
  else if b == 0x20 then ['+']
  else ['%', hexUpper (b.toNat / 16), hexUpper (b.toNat % 16)]

/-- The UTF-8 bytes of a text. -/
def bytes (cs : List Char) : List UInt8 := cs.flatMap String.utf8EncodeChar

/-- A key or value, written. -/
def encode (cs : List Char) : List Char := (bytes cs).flatMap escape

/-! ## Reading -/

/-- The bytes of a written key or value. -/
def unescape : List Char → List UInt8
  | '%' :: a :: b :: cs =>
    match hexByte? a b with
    | some x => x :: unescape cs
    | none => 0x25 :: unescape (a :: b :: cs)
  | '+' :: cs => 0x20 :: unescape cs
  | c :: cs => String.utf8EncodeChar c ++ unescape cs
  | [] => []

/-- A key or value, read. -/
def decode (cs : List Char) : List Char := lossy (unescape cs)

/-- A whole query, read. -/
def pairs (query : List Char) : List (List Char × List Char) :=
  ((pieces '&' query).filter (!·.isEmpty)).map fun piece =>
    let (key, value) := cut '=' piece
    (decode key, decode (value.getD []))

end ServiceRegistry.FormUrl
