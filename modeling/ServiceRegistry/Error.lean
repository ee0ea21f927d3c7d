/-
  What can go wrong.

  One type for the failures of the registry, with the wording in `message`, the HTTP status in
  `status` and the name of the kind in `kind`.

    * `status_mem`   only six statuses occur, all of them failures.
-/
import ServiceRegistry.Instance.Identity

namespace ServiceRegistry

/-- A failure of the registry. -/
inductive RegistryError
  /-- The request itself is not acceptable. -/
  | validation (reason : String)
  /-- The id or the endpoint belongs to another instance. -/
  | conflict (id reason : String)
  /-- No such instance or service. -/
  | notFound (what : String)
  /-- The claim names another value for a field than the stored one. -/
  | mismatch (id : String) (field : IdentityField) (provided : String)
  /-- No master can be reached. -/
  | unavailable (reason : String)
  /-- Only the master answers this. -/
  | notMaster (master : String)
  /-- A call to another node failed. -/
  | peer (peer reason : String)
  /-- A file or socket failed. -/
  | io (reason : String)
  /-- The settings cannot be read. -/
  | config (reason : String)
  /-- The settings are read but make no sense. -/
  | invalidConfig (reason : String)
  /-- Anything else. -/
  | internal (reason : String)
  deriving DecidableEq, Repr

namespace RegistryError

/-- The text of a failure. -/
def message : RegistryError → String
  | .validation reason => s!"Invalid request: {reason}"
  | .conflict id reason => s!"Conflict on {id}: {reason}"
  | .notFound what => s!"Not found: {what}"
  | .mismatch id field provided => s!"Field mismatch for {id}: {field.name} (provided {provided})"
  | .unavailable reason => s!"Master unavailable: {reason}"
  | .notMaster master => s!"Not master: current master is {master}"
  | .peer address reason => s!"Peer request to {address} failed: {reason}"
  | .io reason => s!"I/O error: {reason}"
  | .config reason => s!"Config error: {reason}"
  | .invalidConfig reason => s!"Invalid configuration: {reason}"
  | .internal reason => s!"Internal error: {reason}"

/-- The HTTP status of a failure. -/
def status : RegistryError → Nat
  | .validation _ => 400
  | .mismatch _ _ _ => 400
  | .conflict _ _ => 409
  | .notFound _ => 404
  | .notMaster _ => 403
  | .unavailable _ => 503
  | .peer _ _ => 503
  | _ => 500

/-- The name of the kind. -/
def kind : RegistryError → String
  | .validation _ => "Validation"
  | .conflict _ _ => "Conflict"
  | .notFound _ => "NotFound"
  | .mismatch _ _ _ => "Mismatch"
  | .unavailable _ => "Unavailable"
  | .notMaster _ => "NotMaster"
  | .peer _ _ => "Peer"
  | .io _ => "Io"
  | .config _ => "Config"
  | .invalidConfig _ => "InvalidConfig"
  | .internal _ => "Internal"

/-- A field that must be there is empty. -/
def required (field : String) : RegistryError := .validation s!"{field} is required"

/-- No instance has this id. -/
def unknownId (id : String) : RegistryError := .notFound s!"serviceId {id}"

/-- No instance of this service is known. -/
def unknownService (name : String) : RegistryError := .notFound s!"service {name}"

theorem status_mem (e : RegistryError) : e.status ∈ [400, 403, 404, 409, 500, 503] := by
  cases e <;> simp [status]

end RegistryError

end ServiceRegistry
