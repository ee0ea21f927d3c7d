/-
  Settings files in TOML.

  A text is a sequence of lines: a key with its value, or the header of a table whose keys follow.
  A header in double brackets adds a table to a list of tables.

    * `Toml.read?`   the tree of a text.
-/
import ServiceRegistry.Settings.Toml.Value

namespace ServiceRegistry.Toml

/-! ## Headers -/

/-- The header of a table: the keys that lead to it, its own key, and whether it is one of many. -/
structure Heading where
  path : List String
  key : String
  isListed : Bool
  deriving DecidableEq, Repr

/-- Takes a header, its first bracket being left out. -/
def heading? (cs : List Char) : Taken Heading :=
  match cs with
  | '[' :: r =>
    (keys? r).bind fun ((path, key), r) =>
      match r with
      | ']' :: ']' :: r => some (⟨path, key, true⟩, r)
      | _ => none
  | cs =>
    (keys? cs).bind fun ((path, key), r) =>
      match r with
      | ']' :: r => some (⟨path, key, false⟩, r)
      | _ => none

/-! ## The text -/

/-- What has been read: the tables that are complete, and the one that keys go into. -/
structure Draft where
  root : Item := .empty .named
  current : Item := .empty .named
  heading : Option Heading := none

/-- Puts the table that keys went into where it belongs. -/
def Draft.finish (d : Draft) : Option Item :=
  match d.heading with
  | none => some d.current
  | some h => d.root.place? h.isListed h.path h.key d.current

/-- Goes on with the table that a header names. -/
def Draft.start (h : Heading) (d : Draft) : Option Draft :=
  d.finish.bind fun root =>
    (root.named? h.isListed h.path h.key).map fun current =>
      { root, current, heading := some h }

/-- Reads line after line.  `fuel` bounds their number. -/
def readLines : Nat → List Char → Draft → Option Item
  | 0, _, _ => none
  | fuel + 1, cs, d =>
    match overLines cs with
    | [] => d.finish
    | '[' :: r =>
      (heading? r).bind fun (h, r) => (endOfLine? r).bind fun r =>
        (d.start h).bind (readLines fuel r)
    | '#' :: r => if overComment ('#' :: r) = [] then d.finish else none
    | cs =>
      (keys? cs).bind fun ((path, key), r) =>
        match r with
        | '=' :: r =>
          (value? (overGaps r)).bind fun (v, r) => (endOfLine? r).bind fun r =>
            (d.current.put? path key v).bind fun current => readLines fuel r { d with current }
        | _ => none

/-- The tree of a text, in front of which the mark of the byte order may stand. -/
def read? (cs : List Char) : Option Setting :=
  let cs := match cs with | '\uFEFF' :: r => r | _ => cs
  (readLines (cs.length + 1) cs {}).map Item.setting

end ServiceRegistry.Toml
