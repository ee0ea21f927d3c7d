/-
  Decoding JSON into records.

  A decoder takes a value off the front of a token sequence.  It reads from left to right and stops
  at the first fault: a value of the wrong type (`mistyped`) or something that is no JSON there
  (`malformed`).  Values of unknown members are only skipped, at any depth of nesting.

  A record is described by its fields in order.  It may be written as an object, where unknown
  members are skipped and a repeated one is mistyped, or as an array of the fields from the first
  on.

    * `Decoder.record`   a record from its fields;
    * `decode`           a value and nothing but blanks after it; `decodeHead` a value and anything
                         after it;
    * `skip`             what may stand in the place of an unknown member.
-/
import ServiceRegistry.Json.Lexer
import ServiceRegistry.Json.Value

namespace ServiceRegistry.Json

open ServiceRegistry.Text

/-- Why a text does not decode. -/
inductive Fault
  | mistyped
  | malformed
  deriving DecidableEq, Repr

/-- Takes a value off a token sequence. -/
abbrev Decoder (α : Type) := List Token → Except Fault (α × List Token)

/-! ## Single values -/

/-- The fault of finding this token where a value of another type is wanted. -/
def Token.refusal : Token → Fault
  | .null | .bool _ | .string (some _) | .number (some _) | .openBrace | .openBracket => .mistyped
  | _ => .malformed

/-- The fault of finding this rest where a value of another type is wanted. -/
def refuse (ts : List Token) : Fault := (ts.head?.map Token.refusal).getD .malformed

namespace Decoder

/-- Applies a function to what is decoded. -/
def map {α β : Type} (f : α → β) (d : Decoder α) : Decoder β := fun ts =>
  (d ts).map fun (a, r) => (f a, r)

/-- A string. -/
def text : Decoder String
  | .string (some s) :: r => .ok (s, r)
  | ts => .error (refuse ts)

/-- An integer of `lo … hi`. -/
def integer (lo hi : Int) : Decoder Int
  | .number (some (.int i)) :: r => if lo ≤ i ∧ i ≤ hi then .ok (i, r) else .error .mistyped
  | ts => .error (refuse ts)

/-- A 16-bit word. -/
def word16 : Decoder UInt16 := (integer 0 (UInt16.size - 1)).map fun i => UInt16.ofNat i.toNat

/-- A 32-bit word. -/
def word32 : Decoder UInt32 := (integer 0 (UInt32.size - 1)).map fun i => UInt32.ofNat i.toNat

/-- A 64-bit word. -/
def word64 : Decoder UInt64 := (integer 0 (UInt64.size - 1)).map fun i => UInt64.ofNat i.toNat

/-- A signed 64-bit word. -/
def int64 : Decoder Int64 :=
  (integer Int64.minValue.toInt Int64.maxValue.toInt).map Int64.ofInt

/-- Null, or a value. -/
def nullable {α : Type} (d : Decoder α) : Decoder (Option α)
  | .null :: r => .ok (none, r)
  | ts => d.map some ts

end Decoder

/-! ## Skipping -/

/-- What the skipped value is inside of. -/
inductive Frame
  | array
  | object
  deriving DecidableEq, Repr

/-- What is due next. -/
inductive Due
  | value
  | firstItem
  | key
  | firstKey
  | colon
  | next
  deriving DecidableEq, Repr

/-- After the first token of a value inside these containers. -/
def opened (st : List Frame) : Token → Option (List Frame × Due)
  | .null | .bool _ | .string _ | .number _ => some (st, .next)
  | .openBracket => some (.array :: st, .firstItem)
  | .openBrace => some (.object :: st, .firstKey)
  | _ => none

/-- One token skipped inside these containers, if it may stand there. -/
def passed : List Frame → Due → Token → Option (List Frame × Due)
  | .array :: st, .next, .comma => some (.array :: st, .value)
  | .array :: st, .next, .closeBracket => some (st, .next)
  | .object :: st, .next, .comma => some (.object :: st, .key)
  | .object :: st, .next, .closeBrace => some (st, .next)
  | .array :: st, .firstItem, .closeBracket => some (st, .next)
  | .object :: st, .firstKey, .closeBrace => some (st, .next)
  | st, .firstKey, .string _ => some (st, .colon)
  | st, .key, .string _ => some (st, .colon)
  | st, .colon, .colon => some (st, .value)
  | st, .value, t => opened st t
  | st, .firstItem, t => opened st t
  | _, _, _ => none

/-- The rest after the skipped value, given the containers that are open, innermost first. -/
def skipFrom : List Frame → Due → List Token → Except Fault (List Token)
  | [], .next, ts => .ok ts
  | _, _, [] => .error .malformed
  | st, due, t :: ts =>
    match passed st due t with
    | some (st, due) => skipFrom st due ts
    | none => .error .malformed

/-- The rest after a value of any kind. -/
def skip : List Token → Except Fault (List Token) := skipFrom [] .value

/-! ## Arrays and objects

  `fuel` bounds the number of elements or members; the number of tokens is always enough. -/

/-- The elements after the first, up to the closing bracket. -/
def moreItems {α : Type} (d : Decoder α) : Nat → Decoder (List α)
  | _, .closeBracket :: r => .ok ([], r)
  | fuel + 1, .comma :: r =>
    match d r with
    | .error e => .error e
    | .ok (a, r) => (moreItems d fuel r).map fun (as, r) => (a :: as, r)
  | _, _ => .error .malformed

/-- A colon, then a value. -/
def Decoder.afterColon {α : Type} (d : Decoder α) : Decoder α
  | .colon :: r => d r
  | _ => .error .malformed

/-- The members of an object from a key on; `onMember` decodes what follows the key into the
    state. -/
def membersFrom {σ : Type} (onMember : String → σ → Decoder σ) : Nat → σ → Decoder σ
  | fuel + 1, s, .string (some k) :: r =>
    match onMember k s r with
    | .error e => .error e
    | .ok (s, .closeBrace :: r) => .ok (s, r)
    | .ok (s, .comma :: r) => membersFrom onMember fuel s r
    | .ok (_, _) => .error .malformed
  | _, _, _ => .error .malformed

namespace Decoder

/-- An array of values. -/
def list {α : Type} (d : Decoder α) : Decoder (List α)
  | .openBracket :: .closeBracket :: r => .ok ([], r)
  | .openBracket :: r =>
    match d r with
    | .error e => .error e
    | .ok (a, r) => (moreItems d r.length r).map fun (as, r) => (a :: as, r)
  | ts => .error (refuse ts)

/-- The members of an object, `{` being taken already. -/
def object {σ : Type} (onMember : String → σ → Decoder σ) (s : σ) : Decoder σ
  | .closeBrace :: r => .ok (s, r)
  | ts => membersFrom onMember ts.length s ts

/-- An object of equally typed values; of several equal keys the last counts. -/
def dictionary {α : Type} (d : Decoder α) : Decoder (List (String × α))
  | .openBrace :: r =>
    let entry (k : String) (s : List (String × α)) : Decoder (List (String × α)) := fun ts =>
      (afterColon d ts).map fun (a, r) => (s.filter (·.1 != k) ++ [(k, a)], r)
    object entry [] r
  | ts => .error (refuse ts)

end Decoder

/-! ## Records -/

/-- A field of a record that is gathered in a draft of type `σ`. -/
structure Field (σ : Type) where
  key : String
  isSet : σ → Bool
  read : σ → Decoder σ

/-- A field kept in the draft as an optional value. -/
def Field.of {σ β : Type} (key : String) (get : σ → Option β) (put : σ → β → σ) (d : Decoder β) :
    Field σ :=
  ⟨key, fun s => (get s).isSome, fun s ts => (d ts).map fun (b, r) => (put s b, r)⟩

/-- What follows a key: the value of the field with that key, mistyped if it has one already, or a
    value to skip. -/
def readMember {σ : Type} (fields : List (Field σ)) (key : String) (s : σ) : Decoder σ := fun ts =>
  match fields.find? (·.key == key) with
  | some f => if f.isSet s then .error .mistyped else (f.read s).afterColon ts
  | none => Decoder.afterColon (fun ts => (skip ts).map fun r => (s, r)) ts

/-- The fields after the first in the array form, up to the closing bracket, and their number. -/
def morePositions {σ : Type} : List (Field σ) → σ → Decoder (σ × Nat)
  | _, s, .closeBracket :: r => .ok ((s, 0), r)
  | f :: fs, s, .comma :: r =>
    match f.read s r with
    | .error e => .error e
    | .ok (s, r) => (morePositions fs s r).map fun ((s, n), r) => ((s, n + 1), r)
  | _, _, _ => .error .malformed

/-- The array form of a record, `[` being taken already, and the number of its elements. -/
def positions {σ : Type} (fields : List (Field σ)) (s : σ) : Decoder (σ × Nat)
  | .closeBracket :: r => .ok ((s, 0), r)
  | ts =>
    match fields with
    | [] => .error .malformed
    | f :: fs =>
      match f.read s ts with
      | .error e => .error e
      | .ok (s, r) => (morePositions fs s r).map fun ((s, n), r) => ((s, n + 1), r)

/-- A record: an object, or an array of at least `least` of its fields.  `close` makes the record of
    the draft, or finds a field missing. -/
def Decoder.record {σ α : Type} (fields : List (Field σ)) (least : Nat) (blank : σ)
    (close : σ → Option α) : Decoder α
  | .openBrace :: r =>
    match Decoder.object (readMember fields) blank r with
    | .error e => .error e
    | .ok (s, r) => match close s with
      | some a => .ok (a, r)
      | none => .error .mistyped
  | .openBracket :: r =>
    match positions fields blank r with
    | .error e => .error e
    | .ok ((s, n), r) =>
      if n < least then .error .mistyped
      else match close s with
        | some a => .ok (a, r)
        | none => .error .mistyped
  | ts => .error (refuse ts)

/-! ## Whole texts -/

/-- Decodes a text that holds a value, whatever follows it. -/
def decodeHead {α : Type} (d : Decoder α) (text : Octets) : Except Fault α :=
  (d (tokens text)).map (·.1)

/-- Decodes a text that holds a value and nothing else. -/
def decode {α : Type} (d : Decoder α) (text : Octets) : Except Fault α :=
  match d (tokens text) with
  | .ok (a, []) => .ok a
  | .ok (_, _ :: _) => .error .malformed
  | .error e => .error e

/-! ## Any value -/

/-- Any value whose containers nest at most `depth` deep. -/
def Decoder.value : Nat → Decoder Value
  | _, .null :: r => .ok (.null, r)
  | _, .bool b :: r => .ok (.bool b, r)
  | _, .number (some n) :: r => .ok (.number n, r)
  | _, .string (some s) :: r => .ok (.string s, r)
  | depth + 1, .openBracket :: r =>
    ((Decoder.value depth).list (.openBracket :: r)).map fun (vs, r) => (.array vs, r)
  | depth + 1, .openBrace :: r =>
    (Decoder.object
      (fun k ms ts => ((Decoder.value depth).afterColon ts).map fun (v, r) => (ms ++ [(k, v)], r))
      [] r).map fun (ms, r) => (.object ms, r)
  | _, _ => .error .malformed

/-- How deep containers may nest in a value that is read as such. -/
def maxDepth : Nat := 127

/-- Reads a text that holds a value and nothing else. -/
def Value.ofText (text : Octets) : Except Fault Value := decode (Decoder.value maxDepth) text

end ServiceRegistry.Json
