/-
  Tables of TOML.

  No table and no key is defined twice.  What a definition may still add to a table depends on where
  the table comes from: whether a header names it, whether it is only on the way to one, whether a
  dotted key makes it, or whether it stands in braces.

    * `Item`            what a key stands for;
    * `Item.within?`    a change to the table at the end of a path;
    * `Item.put?`       a key with its value, put into a table;
    * `Item.setting`    an item as a setting.
-/
import ServiceRegistry.Settings.Tree

namespace ServiceRegistry.Toml

/-- Where a table comes from. -/
inductive Origin
  /-- It is named by a header, or is the whole text. -/
  | named
  /-- It is on the way to one that a header names. -/
  | passed
  /-- It is on the way of a dotted key. -/
  | dotted
  /-- It stands in braces. -/
  | braced
  deriving DecidableEq, Repr

/-- Whether a table is defined by the way to another one only. -/
def Origin.isImplied : Origin → Bool
  | passed => true
  | dotted => true
  | _ => false

/-- What a key stands for. -/
inductive Item
  | value (v : Setting)
  /-- A list in brackets. -/
  | list (items : List Item)
  /-- The tables that headers in double brackets name, in order. -/
  | tables (items : List Item)
  | table (origin : Origin) (members : List (String × Item))
  deriving Repr

namespace Item

open Setting (lookup assign)

/-- A table without keys. -/
def empty (origin : Origin) : Item := .table origin []

/-- Changes the table at the end of a path; tables that are missing on the way are made.  Into a
    list of tables the way leads to its last one, and never into braces.  The keys of a dotted key
    lead only through tables that are implied. -/
def within? (isDotted : Bool) (change : Item → Option Item) : List String → Item → Option Item
  | [], t => change t
  | k :: path, .table origin ms =>
    let put (t : Item) : Item := .table origin (assign k t ms)
    match lookup k ms with
    | none =>
      let made := empty (if isDotted then .dotted else .passed)
      (within? isDotted change path made).map put
    | some (.table inner ms) =>
      if inner = .braced || (isDotted && !inner.isImplied) then none
      else (within? isDotted change path (.table inner ms)).map put
    | some (.tables ts) =>
      ts.getLast?.bind fun t =>
        (within? isDotted change path t).map fun t => put (.tables (ts.dropLast ++ [t]))
    | some _ => none
  | _, _ => none

/-- The members of the table at the end of a path that headers may go; none where there is no table
    yet. -/
def members? : List String → Item → Option (List (String × Item))
  | [], .table _ ms => some ms
  | k :: path, .table _ ms =>
    match lookup k ms with
    | none => some []
    | some (.table inner ms) => if inner = .braced then none else members? path (.table inner ms)
    | some (.tables ts) => ts.getLast?.bind (members? path)
    | some _ => none
  | _, _ => none

/-- Puts a key that has no value yet into a table.  A dotted key goes into a table that a dotted key
    has made, any other one into any other one. -/
def put? (root : Item) (path : List String) (key : String) (v : Item) : Option Item :=
  let isDotted := !path.isEmpty
  within? isDotted (fun
    | .table origin ms =>
      if decide (origin = .dotted) ≠ isDotted || (lookup key ms).isSome then none
      else some (.table origin (ms ++ [(key, v)]))
    | _ => none) path root

/-- Puts a table that a header has named where it belongs: at the end of a list of tables, or in
    place of one that was on the way. -/
def place? (root : Item) (isListed : Bool) (path : List String) (key : String) (t : Item) :
    Option Item :=
  within? false (fun
    | .table origin ms =>
      if !isListed then some (.table origin (assign key t ms))
      else match lookup key ms with
        | none => some (.table origin (assign key (.tables [t]) ms))
        | some (.tables ts) => some (.table origin (assign key (.tables (ts ++ [t])) ms))
        | some _ => none
    | _ => none) path root

/-- The table that a header names, before its keys: what was on the way goes on. -/
def named? (root : Item) (isListed : Bool) (path : List String) (key : String) : Option Item :=
  if isListed then some (.empty .named)
  else (members? path root).bind fun ms =>
    match lookup key ms with
    | none => some (.empty .named)
    | some (.table .passed ms) => some (.table .named ms)
    | some _ => none

mutual

/-- An item as a setting. -/
def setting : Item → Setting
  | .value v => v
  | .list items => .list (settings items)
  | .tables items => .list (settings items)
  | .table _ ms => .table (entries ms)

/-- Items as settings. -/
def settings : List Item → List Setting
  | [] => []
  | i :: is => setting i :: settings is

/-- Members as settings. -/
def entries : List (String × Item) → List (String × Setting)
  | [] => []
  | (k, i) :: ms => (k, setting i) :: entries ms

end

end Item

end ServiceRegistry.Toml
