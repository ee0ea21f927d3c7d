/-
  Percent-encoded text.

  A byte outside the set that may stand for itself is written `%` and two hexadecimal digits; a
  character outside ASCII is written byte by byte.  Reading is lenient: a `%` that no two digits
  follow stands for itself.

    * `encode keep`   writes a text, keeping the ASCII characters in `keep`;
    * `decode`        the bytes of a written text.
-/
import ServiceRegistry.Text.Hex

namespace ServiceRegistry.Percent

open Text

/-- One byte, written. -/
def escape (b : UInt8) : List Char := ['%', hexUpper (b.toNat / 16), hexUpper (b.toNat % 16)]

/-- A text, written. -/
def encode (keep : Char → Bool) (cs : List Char) : List Char :=
  cs.flatMap fun c =>
    if c.toNat < 128 && keep c then [c] else (String.utf8EncodeChar c).flatMap escape

/-- The bytes of a written text. -/
def decode : List Char → List UInt8
  | '%' :: a :: b :: cs =>
    match hexByte? a b with
    | some x => x :: decode cs
    | none => 0x25 :: decode (a :: b :: cs)
  | c :: cs => String.utf8EncodeChar c ++ decode cs
  | [] => []

/-- Control characters are never kept. -/
def isControl (c : Char) : Bool := c.toNat < 32 || c.toNat = 127

end ServiceRegistry.Percent
