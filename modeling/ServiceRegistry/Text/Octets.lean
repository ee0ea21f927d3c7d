/-
  Byte strings read as UTF-8.

  `Octets` keeps what a byte string says: each well-formed character, and a mark for every byte that
  belongs to none.  A body is carried in this form, so that the same value serves a reader that
  refuses malformed text and one that skips over it.

    * `ofBytes`     reads bytes; `lossy` reads them with U+FFFD for each maximal malformed part;
    * `size`        is the number of bytes again;
    * `toText?`     the text, when every byte is part of a character.
-/

namespace ServiceRegistry.Text

/-- A byte string read as UTF-8: `some c` is a character, `none` a byte that is part of none. -/
abbrev Octets := List (Option Char)

/-! ## Decoding -/

/-- The bytes `lo … hi`. -/
def within (lo hi : Nat) (b : UInt8) : Bool := lo ≤ b.toNat && b.toNat ≤ hi

/-- The bytes allowed after the lead byte `b` of a longer character, and how many follow in all. -/
def follow (b : UInt8) : Option (Nat × Nat × Nat) :=
  if within 0xC2 0xDF b then some (1, 0x80, 0xBF)
  else if within 0xE0 0xE0 b then some (2, 0xA0, 0xBF)
  else if within 0xED 0xED b then some (2, 0x80, 0x9F)
  else if within 0xE1 0xEF b then some (2, 0x80, 0xBF)
  else if within 0xF0 0xF0 b then some (3, 0x90, 0xBF)
  else if within 0xF1 0xF3 b then some (3, 0x80, 0xBF)
  else if within 0xF4 0xF4 b then some (3, 0x80, 0x8F)
  else none

/-- The payload bits of a lead byte that `n` bytes follow. -/
def leadBits (n : Nat) (b : UInt8) : Nat := b.toNat % (64 >>> n)

/-- Where the reader stands: between characters, or inside one of which `seen` bytes are read,
    `left` more are due, the next one in `lo … hi`. -/
inductive Octets.State
  | between
  | inside (seen left lo hi value : Nat)
  deriving DecidableEq, Repr

/-- One byte read: the marks it settles (a malformed part of `k` bytes, then perhaps a character)
    and the new state. -/
def Octets.step : Octets.State → UInt8 → List (Nat ⊕ Char) × Octets.State
  | .between, b =>
    if b.toNat < 0x80 then ([.inr (Char.ofNat b.toNat)], .between)
    else match follow b with
      | some (n, lo, hi) => ([], .inside 1 n lo hi (leadBits n b))
      | none => ([.inl 1], .between)
  | .inside seen left lo hi value, b =>
    if within lo hi b then
      let value := value * 64 + b.toNat % 64
      if left ≤ 1 then ([.inr (Char.ofNat value)], .between)
      else ([], .inside (seen + 1) (left - 1) 0x80 0xBF value)
    else if b.toNat < 0x80 then ([.inl seen, .inr (Char.ofNat b.toNat)], .between)
    else match follow b with
      | some (n, lo, hi) => ([.inl seen], .inside 1 n lo hi (leadBits n b))
      | none => ([.inl seen, .inl 1], .between)

/-- The well-formed characters and the lengths of the maximal malformed parts, in order. -/
def Octets.parts : Octets.State → List UInt8 → List (Nat ⊕ Char)
  | .between, [] => []
  | .inside seen .., [] => [.inl seen]
  | st, b :: bs => let (out, st) := Octets.step st b; out ++ Octets.parts st bs

/-- Reads bytes, marking each malformed byte. -/
def Octets.ofBytes (bs : List UInt8) : Octets :=
  (Octets.parts .between bs).flatMap fun
    | .inl k => List.replicate k none
    | .inr c => [some c]

/-- Reads bytes as text, each maximal malformed part becoming one U+FFFD. -/
def lossy (bs : List UInt8) : List Char :=
  (Octets.parts .between bs).map fun
    | .inl _ => '\ufffd'
    | .inr c => c

/-! ## Text -/

/-- Text as octets. -/
def Octets.ofText (cs : List Char) : Octets := cs.map some

/-- The octets of a string. -/
def Octets.ofString (s : String) : Octets := Octets.ofText s.toList

/-- The text, when every byte belongs to a character. -/
def Octets.toText? (o : Octets) : Option (List Char) := o.mapM id

/-- The number of bytes. -/
def Octets.size (o : Octets) : Nat :=
  o.foldr (fun m n => (m.map Char.utf8Size).getD 1 + n) 0

end ServiceRegistry.Text
