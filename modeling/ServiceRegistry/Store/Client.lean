/-
  What clients do to the table: register, heartbeat, unregister, discover.

  Every operation takes the clock reading it acts at and returns its result beside the new table; a
  failing one returns the table it was given.

    * `refreshedAt`   where a refresh moves a heartbeat: never back, and ahead of neither the clock
                      nor the stored heartbeat.
-/
import ServiceRegistry.Store.Basic

namespace ServiceRegistry

/-- What a successful registration did. -/
inductive Registration
  /-- A new record was added. -/
  | registered (x : Instance)
  /-- The record was there already; its heartbeat moved. -/
  | refreshed (x : Instance)
  deriving DecidableEq, Repr

/-- The record as it stands after the registration. -/
def Registration.record : Registration → Instance
  | .registered x => x
  | .refreshed x => x

/-- The larger of two timestamps. -/
def later (a b : Int64) : Int64 := if a ≤ b then b else a

/-- The smaller of two timestamps. -/
def earlier (a b : Int64) : Int64 := if a ≤ b then a else b

/-- The heartbeat after a refresh: the supplied one, if any, else the clock; capped by the clock,
    and never before the stored one. -/
def refreshedAt (now supplied stored : Int64) : Int64 :=
  later stored (if 0 < supplied then earlier supplied now else now)

namespace Store

/-- Registers an instance, or refreshes the heartbeat of a known one. -/
def register (now : Int64) (x : Instance) (s : Store) : Except RegistryError Registration × Store :=
  if x.id.isEmpty then (.error (.required "serviceId"), s)
  else match s.find? x.id with
    | some old =>
      if x.isBareHeartbeat || x.identity = old.identity then
        let secs := refreshedAt now x.heartbeat.secs old.heartbeat.secs
        let new := { old with heartbeat := .ofSecs secs }
        (.ok (.refreshed new), s.replace new)
      else
        (.error (.conflict x.id "serviceId is already registered with a different identity"), s)
    | none =>
      match x.checkRegistration with
      | .error e => (.error e, s)
      | .ok () =>
        match s.owner? x.endpoint with
        | some owner =>
          let at_ := s!"{x.identity.ip}:{x.identity.text .port}"
          (.error (.conflict x.id s!"{at_} is already used by serviceId {owner}"), s)
        | none =>
          let new := { x with registered := .ofSecs now, heartbeat := .ofSecs now }
          (.ok (.registered new), s.insert new)

/-- Moves the heartbeat of the claimed record to the clock. -/
def heartbeat (now : Int64) (c : Claim) (s : Store) : Except RegistryError Instance × Store :=
  match s.find? c.id with
  | none => (.error (.unknownId c.id), s)
  | some x =>
    match x.checkClaim c with
    | .error e => (.error e, s)
    | .ok () =>
      let new := { x with heartbeat := .ofSecs now }
      (.ok new, s.replace new)

/-- Takes out the claimed record. -/
def unregister (c : Claim) (s : Store) : Except RegistryError Instance × Store :=
  match s.find? c.id with
  | none => (.error (.unknownId c.id), s)
  | some x =>
    match x.checkClaim c with
    | .error e => (.error e, s)
    | .ok () => (.ok x, (s.remove c.id).2)

/-- All records for the empty name; otherwise the record under the cursor of the service, which
    moves on to the next one. -/
def discover (name : String) (s : Store) : Except RegistryError (List Instance) × Store :=
  if name.isEmpty then (.ok s.all, s)
  else
    let records := s.ofService name
    let i := ((s.cursors.get? name).getD 0) % records.length
    match records[i]? with
    | none => (.error (.unknownService name), s)
    | some x => (.ok [x], { s with cursors := s.cursors.set name ((i + 1) % records.length) })

end Store

end ServiceRegistry
