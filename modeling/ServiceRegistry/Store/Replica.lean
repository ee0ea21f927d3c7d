/-
  What a follower does to its table: it takes over what its master committed.

  A change is a committed write on its way between nodes: the kind of write and the record after it
  (or as removed by it).

    * `merge`     takes over a record, with the timestamps it carries;
    * `touch`     takes over a heartbeat;
    * `adopt`     takes over cursors, kept inside the local lists;
    * `apply`     carries out a change.
-/
import ServiceRegistry.Store.Basic
import ServiceRegistry.Instance.Wire

namespace ServiceRegistry

open Json

/-! ## Changes -/

/-- The kinds of writes. -/
inductive WriteKind
  | register
  | unregister
  | heartbeat
  deriving DecidableEq, Repr

namespace WriteKind

/-- The name of a kind in bodies. -/
def name : WriteKind → String
  | .register => "register"
  | .unregister => "unregister"
  | .heartbeat => "heartbeat"

/-- The path a write of this kind is sent to. -/
def path (k : WriteKind) : String := "/api/" ++ k.name

/-- The kind with a name. -/
def ofName? (name : String) : Option WriteKind :=
  [register, unregister, heartbeat].find? (·.name = name)

/-- Reads a kind: its name, or an object with the name as its only key and null as its value. -/
def decoder : Decoder WriteKind
  | .string (some s) :: r =>
    match ofName? s with
    | some k => .ok (k, r)
    | none => .error .mistyped
  | .openBrace :: .string (some s) :: r =>
    match ofName? s, r with
    | none, _ => .error .mistyped
    | some k, .colon :: .null :: .closeBrace :: r => .ok (k, r)
    | some _, .colon :: .null :: _ => .error .malformed
    | some _, .colon :: r => .error (refuse r)
    | some _, _ => .error .malformed
  | _ => .error .malformed

end WriteKind

/-- A committed write on its way between nodes. -/
structure Change where
  kind : WriteKind
  record : Instance
  deriving DecidableEq, Repr

namespace Change

/-- The body of a change. -/
def wire (c : Change) : Value :=
  .object [("action", .string c.kind.name), ("instance", c.record.wire)]

/-- A change of which only some fields are known. -/
structure Draft where
  kind : Option WriteKind := none
  record : Option Instance := none

/-- Reads the body of a change. -/
def decoder : Decoder Change :=
  .record
    [.of "action" (·.kind) (fun d x => { d with kind := some x }) WriteKind.decoder,
      .of "instance" (·.record) (fun d x => { d with record := some x }) Instance.wireDecoder]
    2 ({} : Draft)
    fun d => match d.kind, d.record with
      | some k, some x => some ⟨k, x⟩
      | _, _ => none

end Change

/-! ## Taking over -/

/-- A timestamp as it arrives: its own when it is set, else the fallback. -/
def Stamp.orElse (t fallback : Stamp) : Stamp := if t.secs ≤ 0 then fallback else t

namespace Store

/-- A record as it is taken over in the place of another, if any.  A timestamp it does not carry is
    the one already stored, or now for a new record. -/
def takenOver (now : Int64) (old : Option Instance) (x : Instance) : Instance :=
  let (registered, heartbeat) := match old with
    | some old => (old.registered, old.heartbeat)
    | none => (Stamp.ofSecs now, Stamp.ofSecs now)
  { x with
    registered := (x.registered.orElse registered).completed
    heartbeat := (x.heartbeat.orElse heartbeat).completed }

/-- Whoever else holds the endpoint of a record leaves the table. -/
def clear (x : Instance) (s : Store) : Store :=
  match s.owner? x.endpoint with
  | some stale => if stale = x.id then s else (s.remove stale).2
  | none => s

/-- Takes over a record, and its endpoint with it. -/
def merge (now : Int64) (x : Instance) (s : Store) : Except RegistryError Unit × Store :=
  if x.id.isEmpty then (.error (.required "serviceId"), s)
  else (.ok (), (s.clear x).put (takenOver now (s.find? x.id) x))

/-- Takes over a heartbeat, or sets it to now when none is given; `false` for an unknown id. -/
def touch (now : Int64) (id : String) (secs : Int64) (readable : String) (s : Store) :
    Bool × Store :=
  match s.find? id with
  | none => (false, s)
  | some x =>
    let beat := if 0 < secs then Stamp.of secs readable else .ofSecs now
    (true, s.replace { x with heartbeat := beat })

/-- A cursor kept inside a list of `n` records. -/
def clampCursor (n : Nat) (i : Int64) : Nat := min i.toInt.toNat (n - 1)

/-- Takes over one cursor; nothing happens when the service is not known. -/
def adoptOne (s : Store) (name : String) (i : Int64) : Store :=
  let n := (s.ofService name).length
  if n = 0 then s else { s with cursors := s.cursors.set name (clampCursor n i) }

/-- Takes over cursors; returns of how many services. -/
def adopt (cursors : List (String × Int64)) (s : Store) : Nat × Store :=
  ((cursors.filter fun c => !(s.ofService c.1).isEmpty).length,
    cursors.foldl (fun s c => s.adoptOne c.1 c.2) s)

/-- Carries out a change that the master committed. -/
def apply (now : Int64) (c : Change) (s : Store) : Except RegistryError Unit × Store :=
  match c.kind with
  | .register => s.merge now c.record
  | .unregister =>
    match s.remove c.record.id with
    | (some _, s) => (.ok (), s)
    | (none, s) => (.error (.unknownId c.record.id), s)
  | .heartbeat =>
    match s.touch now c.record.id c.record.heartbeat.secs c.record.heartbeat.readable with
    | (true, s) => (.ok (), s)
    | (false, s) => (.error (.unknownId c.record.id), s)

end Store

end ServiceRegistry
