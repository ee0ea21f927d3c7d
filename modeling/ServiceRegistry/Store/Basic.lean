/-
  The table of instances.

  The records stand in lists, one for each service.  Beside the lists the table keeps three
  maps: the cursors of the round robin, the service each id is listed under, and the id that holds
  each endpoint.

    * `find?`, `owner?`, `ofService`, `all`   the views;
    * `insert`, `replace`, `remove`, `put`       the ways a record enters, changes and leaves.
-/
import ServiceRegistry.Store.ServiceMap
import ServiceRegistry.Store.Index

namespace ServiceRegistry

/-- Round-robin cursors: a position for each service. -/
abbrev Cursors := Index String Nat

/-- The records, the round-robin cursors, and where an id and an endpoint are found. -/
structure Store where
  services : ServiceMap := .empty
  cursors : Cursors := {}
  /-- The service of each id. -/
  names : Index String String := {}
  /-- The id that holds each endpoint. -/
  owners : Index Endpoint String := {}
  deriving DecidableEq, Repr

namespace Store

/-! ## Views -/

/-- The records of a service, in round-robin order. -/
def ofService (s : Store) (name : String) : List Instance := s.services.get name

/-- All records, services in order of their names and the records of each in order of arrival. -/
def all (s : Store) : List Instance := s.services.all

/-- The number of records. -/
def size (s : Store) : Nat := s.services.size

/-- Where the record with an id stands: its service, and the place in the list. -/
def position? (s : Store) (id : String) : Option (String × Nat) :=
  match s.names.get? id with
  | none => none
  | some name => ((s.ofService name).findIdx? (·.id = id)).map fun i => (name, i)

/-- The record with an id. -/
def find? (s : Store) (id : String) : Option Instance :=
  match s.position? id with
  | none => none
  | some (name, i) => (s.ofService name)[i]?

/-- The id that holds an endpoint. -/
def owner? (s : Store) (e : Endpoint) : Option String := s.owners.get? e

/-! ## Changes -/

/-- Adds a record at the end of the list of its service. -/
def insert (s : Store) (x : Instance) : Store :=
  { s with
    services := s.services.set x.service (s.ofService x.service ++ [x])
    names := s.names.set x.id x.service
    owners := s.owners.set x.endpoint x.id }

/-- Puts a record in the place of the one with its id. -/
def replace (s : Store) (x : Instance) : Store :=
  match s.position? x.id with
  | none => s
  | some (name, i) => { s with services := s.services.set name ((s.ofService name).set i x) }

/-- Takes out the record with an id.  The list of its service starts anew, or, when it was the
    last one, ends. -/
def remove (s : Store) (id : String) : Option Instance × Store :=
  match s.position? id, s.find? id with
  | some (name, i), some x =>
    let left := (s.ofService name).eraseIdx i
    (some x,
      { services := if left.isEmpty then s.services.erase name else s.services.set name left
        cursors := if left.isEmpty then s.cursors.erase name else s.cursors.set name 0
        names := s.names.erase id
        owners := if s.owner? x.endpoint = some id then s.owners.erase x.endpoint else s.owners })
  | _, _ => (none, s)

/-- Puts a record in the place of the one with its id, whose endpoint becomes free when it is
    another one. -/
def swap (s : Store) (old x : Instance) : Store :=
  let owners := if old.endpoint = x.endpoint then s.owners else s.owners.erase old.endpoint
  { s.replace x with owners := owners.set x.endpoint x.id }

/-- Puts a record into the table: in its old place while its service stays the same, otherwise out
    of the old service and to the end of the new one. -/
def put (s : Store) (x : Instance) : Store :=
  if s.names.get? x.id = some x.service then
    match s.find? x.id with
    | some old => s.swap old x
    | none => s
  else (s.remove x.id).2.insert x

end Store

end ServiceRegistry
