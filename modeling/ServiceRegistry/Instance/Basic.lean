/-
  Instances of services.

  An instance has an id, an identity and two timestamps, of its registration and of its last
  heartbeat.  A timestamp goes with its readable form; zero and the empty text stand for "not set".

    * `Stamp.of_readable_ne`    a readable form that is given is kept;
    * `Instance.checkClaim_eq_ok_iff`   a claim passes iff it names the identity.
-/
import ServiceRegistry.Error
import ServiceRegistry.Time.Calendar

namespace ServiceRegistry

/-- A timestamp in seconds with its readable form. -/
structure Stamp where
  secs : Int64 := 0
  readable : String := ""
  deriving DecidableEq, Repr

namespace Stamp

/-- No timestamp. -/
def unset : Stamp := {}

/-- The timestamp of a second, in its own readable form. -/
def ofSecs (secs : Int64) : Stamp := ⟨secs, Time.readable secs.toInt⟩

/-- The timestamp of a second with a readable form, derived when none is given. -/
def of (secs : Int64) (readable : String) : Stamp :=
  if readable.isEmpty then .ofSecs secs else ⟨secs, readable⟩

/-- The same second with its readable form derived when it is missing and the second is set. -/
def completed (t : Stamp) : Stamp := if 0 < t.secs then .of t.secs t.readable else t

theorem of_readable_ne {secs : Int64} {readable : String} (h : readable ≠ "") :
    Stamp.of secs readable = ⟨secs, readable⟩ := by
  simp [Stamp.of, h]

@[simp] theorem secs_of (secs : Int64) (readable : String) :
    (Stamp.of secs readable).secs = secs := by
  unfold Stamp.of; split <;> rfl

@[simp] theorem secs_completed (t : Stamp) : t.completed.secs = t.secs := by
  unfold completed; split
  · exact secs_of _ _
  · rfl

end Stamp

/-- A registered instance. -/
structure Instance where
  id : String
  identity : Identity := .blank
  registered : Stamp := .unset
  heartbeat : Stamp := .unset
  deriving DecidableEq, Repr

namespace Instance

/-- The service the instance belongs to. -/
def service (x : Instance) : String := x.identity.service

/-- Where the instance is reached. -/
def endpoint (x : Instance) : Endpoint := x.identity.endpoint

/-- What the instance says of itself. -/
def claim (x : Instance) : Claim := ⟨x.id, x.identity⟩

/-- Whether the instance carries no identity: a heartbeat sent as a registration. -/
def isBareHeartbeat (x : Instance) : Bool := x.identity = .blank

/-! ## Checks -/

/-- An id must be given. -/
def checkId (id : String) : Except RegistryError Unit :=
  if id.isEmpty then .error (.required "serviceId") else .ok ()

/-- A port is one of 1 … 65535. -/
def checkPort (port : UInt32) : Except RegistryError Unit :=
  if port = 0 then .error (.required "port")
  else if 65535 < port then .error (.validation "port must be between 1 and 65535")
  else .ok ()

/-- What a new registration needs: an id, a name, an address and a port. -/
def checkRegistration (x : Instance) : Except RegistryError Unit :=
  if x.id.isEmpty then .error (.required "serviceId")
  else if x.service.isEmpty then .error (.required "serviceName")
  else if x.identity.ip.isEmpty then .error (.required "ipAddress")
  else checkPort x.identity.port

/-- A claim must name the stored identity; the first field that differs is reported. -/
def checkClaim (x : Instance) (c : Claim) : Except RegistryError Unit :=
  match c.identity.firstDifference x.identity with
  | some field => .error (.mismatch x.id field (c.identity.text field))
  | none => .ok ()

@[simp] theorem checkClaim_eq_ok_iff (x : Instance) (c : Claim) :
    x.checkClaim c = .ok () ↔ c.identity = x.identity := by
  rw [← Identity.firstDifference_eq_none_iff, checkClaim]
  split <;> simp_all

@[simp] theorem checkId_eq_ok_iff (id : String) : checkId id = .ok () ↔ id ≠ "" := by
  unfold checkId; split <;> simp_all

end Instance

end ServiceRegistry
