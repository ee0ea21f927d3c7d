/-
  Settings before they are typed.

  Files and the environment give a tree of values.  Trees are laid over one another key by key, a
  list being replaced as a whole; then typed settings are read off the result.  Reading is lenient
  between scalars: a number may be written as text, a text as a number, truth as either.

    * `Setting.overlay`            one tree laid over another;
    * `Setting.alter`              a change at the end of a path;
    * `Setting.pathOf`             the path that a key stands for;
    * `Setting.unsigned?`, `text?`, `texts?`, `nullable?`   reading single values;
    * `Setting.fill?`              reading a record, from a table or from a list of its fields.
-/
import ServiceRegistry.Text.Blank
import ServiceRegistry.Text.Double
import ServiceRegistry.Text.Pieces

namespace ServiceRegistry

open Text

/-- A setting that has no type yet. -/
inductive Setting
  | null
  | bool (b : Bool)
  | int (i : Int)
  /-- A double, by its bits. -/
  | real (bits : UInt64)
  | text (s : String)
  | list (items : List Setting)
  | table (members : List (String × Setting))
  deriving Repr

namespace Setting

/-! ## Trees -/

/-- The members of a table; none of anything else. -/
def members : Setting → List (String × Setting)
  | table ms => ms
  | _ => []

/-- The member of a list of members with this key. -/
def lookup {α : Type} (key : String) (ms : List (String × α)) : Option α :=
  (ms.find? (·.1 = key)).map (·.2)

/-- Sets the member with this key. -/
def assign {α : Type} (key : String) (v : α) : List (String × α) → List (String × α)
  | [] => [(key, v)]
  | m :: ms => if m.1 = key then (key, v) :: ms else m :: assign key v ms

mutual

/-- A tree laid over another: tables are joined key by key, anything else replaces what was. -/
def overlay (base : Setting) : Setting → Setting
  | table ms => table (overlayMembers base.members ms)
  | v => v

/-- Members laid over others, one after the other. -/
def overlayMembers (base : List (String × Setting)) :
    List (String × Setting) → List (String × Setting)
  | [] => base
  | (k, v) :: ms => overlayMembers (assign k (overlay ((lookup k base).getD null) v) base) ms

end

/-! ## Paths -/

/-- A step into a tree: to the member with a key, or to an item; a negative index counts from the
    end. -/
inductive Step
  | key (k : String)
  | index (i : Int)
  deriving DecidableEq, Repr

/-- The items of a list; none of anything else. -/
def items : Setting → List Setting
  | list vs => vs
  | _ => []

/-- Changes the item at an index.  Nulls fill the gap between the items and it, on either side. -/
def alterItem (i : Int) (f : Setting → Setting) (vs : List Setting) : List Setting :=
  if 0 ≤ i then (vs ++ List.replicate (i.toNat + 1 - vs.length) null).modify i.toNat f
  else
    (List.replicate (i.natAbs - vs.length) null ++ vs).modify (vs.length - i.natAbs) f

/-- Changes what stands at the end of a path.  What is missing on the way is made, and what is in
    the way is replaced. -/
def alter (f : Setting → Setting) : List Step → Setting → Setting
  | [], v => f v
  | .key k :: path, v =>
    table (assign k (alter f path ((lookup k v.members).getD null)) v.members)
  | .index i :: path, v => list (alterItem i (alter f path) v.items)

/-- A character of a key in a path. -/
def isKeyChar (c : Char) : Bool := c.isAlphanum || c = '_' || c = '-'

/-- Takes a key at the front of a path. -/
def key? (cs : List Char) : Option (String × List Char) :=
  let key := cs.takeWhile isKeyChar
  if key.isEmpty then none else some (String.ofList key, cs.drop key.length)

/-- The index between brackets. -/
def index? (cs : List Char) : Option Int :=
  let isGap (c : Char) : Bool := c = ' ' || c = '\t'
  let word := trimEnd isGap (cs.dropWhile isGap)
  if word.head? = some '+' then none
  else integer? Int64.minValue.toInt Int64.maxValue.toInt word

/-- The steps after the first key of a path: keys after dots, and indices in brackets.  `fuel`
    bounds their number. -/
def steps? : Nat → List Char → Option (List Step)
  | _, [] => some []
  | fuel + 1, '.' :: cs =>
    (key? cs).bind fun (k, r) => (steps? fuel r).map (.key k :: ·)
  | fuel + 1, '[' :: cs =>
    match cut ']' cs with
    | (inner, some r) => (index? inner).bind fun i => (steps? fuel r).map (.index i :: ·)
    | (_, none) => none
  | _, _ => none

/-- The path that a key at the top of a tree stands for; a text that is no path is a key itself. -/
def pathOf (text : String) : List Step :=
  let read := (key? text.toList).bind fun (k, r) => (steps? r.length r).map (.key k :: ·)
  read.getD [.key text]

/-! ## Reading -/

/-- The words that stand for truth and falsehood. -/
def truthOf? (cs : List Char) : Option Bool :=
  let word := String.ofList (cs.map Char.toLower)
  if ["true", "on", "yes"].contains word then some true
  else if ["false", "off", "no"].contains word then some false
  else none

/-- Reads a natural number of 64 bits: a double is rounded, a half away from zero, truth is one. -/
def word? : Setting → Option Nat
  | int i => if 0 ≤ i then some i.toNat else none
  | bool b => some b.toNat
  | real bits => some (Float.ofBits bits).round.toUInt64.toNat
  | text s =>
    match truthOf? s.toList with
    | some b => some b.toNat
    | none => unsigned? (UInt64.size - 1) s.toList
  | _ => none

/-- Reads a natural number of at most `max`. -/
def unsigned? (max : Nat) (v : Setting) : Option Nat := v.word?.filter (· ≤ max)

/-- Reads a text: other scalars are printed. -/
def text? : Setting → Option String
  | text s => some s
  | bool true => some "true"
  | bool false => some "false"
  | int i => some (String.ofList (integerText i))
  | real bits => some (String.ofList (Double.text .positional bits))
  | _ => none

/-- Reads a list of texts. -/
def texts? : Setting → Option (List String)
  | list vs => vs.mapM text?
  | _ => none

/-- Reads null, or a value. -/
def nullable? {α : Type} (read : Setting → Option α) : Setting → Option (Option α)
  | null => some none
  | v => (read v).map some

/-- A field of a record of type `σ`: reads a value into it. -/
structure Entry (σ : Type) where
  key : String
  read : Setting → σ → Option σ

/-- A field, by its reader and its place in the record. -/
def Entry.of {σ α : Type} (key : String) (read : Setting → Option α) (put : σ → α → σ) : Entry σ :=
  ⟨key, fun v s => (read v).map (put s)⟩

/-- Reads what a table says of a record, or what a list says of its fields in order; the rest stays
    as it is. -/
def fill? {σ : Type} (entries : List (Entry σ)) (s : σ) : Setting → Option σ
  | table ms => ms.foldlM (fun s (k, v) =>
      match entries.find? (·.key = k) with
      | some e => e.read v s
      | none => some s) s
  | list vs => (entries.zip vs).foldlM (fun s (e, v) => e.read v s) s
  | _ => none

end Setting

end ServiceRegistry
