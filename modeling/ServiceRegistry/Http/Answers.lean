/-
  The answers of a node.

  Every answer but those of health and metrics has the common shape.  An answer that another node
  gave is passed on with its status, as JSON, unread.

    * `answerTo`       the answer to a call;
    * `syncAnswer`, `cursorsAnswer`, `healthAnswer`, `metricsAnswer`   the answers to the rest.
-/
import ServiceRegistry.Http.Routes
import ServiceRegistry.Instance.Listing
import ServiceRegistry.Version

namespace ServiceRegistry.Http

open ServiceRegistry.Json

/-! ## Failures -/

/-- A failure without further data. -/
def failure (e : RegistryError) : Response := .enveloped e.status e.message

/-- The members with a text, those with an empty one left out. -/
def textMembers (ms : List (String × String)) : Value :=
  .object (ms.flatMap fun (k, s) => textMember k s)

/-- A failed registration: a conflict says whose id it concerns. -/
def registerFailure : RegistryError → Response
  | .conflict id reason => .enveloped 409 reason
      (.object (("conflictServiceId", .string id) :: textMember "suggestion"
        "use a different serviceId or endpoint, or check for a duplicate registration"))
  | e => failure e

/-- The data of a failed call on an instance with an id. -/
def instanceFailureData (id : String) : RegistryError → Value
  | .notFound _ => textMembers
      [("serviceId", id), ("suggestion", "check the serviceId or register the instance first")]
  | .mismatch _ field _ => textMembers
      [("serviceId", id), ("fieldMismatch", field.name),
        ("suggestion", s!"{field.name} must match the registered value")]
  | .validation _ => textMembers [("serviceId", id), ("suggestion", "serviceId is required")]
  | _ => .null

/-- A failed call on an instance with an id. -/
def instanceFailure (id : String) (e : RegistryError) : Response :=
  .enveloped e.status e.message (instanceFailureData id e)

/-- A failed query. -/
def discoveryFailure (name : String) : RegistryError → Response
  | .notFound _ => .enveloped 404 "service not found"
      (.object [("serviceName", .string name),
        ("suggestion", .string "check the service name or make sure the service is registered")])
  | e => failure e

/-- A failed call. -/
def callFailure (c : Call) (e : RegistryError) : Response :=
  match c with
  | .write (.register _) => registerFailure e
  | .write (.heartbeat c) => instanceFailure c.id e
  | .write (.unregister c) => instanceFailure c.id e
  | .discover name => discoveryFailure name e

/-! ## Results -/

/-- The message of an answer to a query. -/
def foundMessage (name : String) (xs : List Instance) : String :=
  if !name.isEmpty then "service discovered"
  else if xs.isEmpty then "no services registered"
  else "all instances"

/-- What a call did, as an answer. -/
def success (c : Call) : Outcome → Response
  | .registered x => .enveloped 200 "registered" x.view
  | .refreshed x => .enveloped 200 "heartbeat refreshed" x.view
  | .beaten x => .enveloped 200 "heartbeat updated" x.view
  | .removed x => .enveloped 200 "unregistered" x.removal
  | .found xs =>
    let name := match c with | .discover name => name | .write _ => ""
    .enveloped 200 (foundMessage name xs) (Listing.of name xs).value

/-- Another node's answer, passed on; what is no status at all becomes 502. -/
def relay (r : Relayed) : Response where
  status := if 100 ≤ r.status && r.status < 1000 then r.status else 502
  type := Response.jsonType
  body := .raw r.body

/-- The answer to a call. -/
def answerTo (c : Call) : Except RegistryError (Routed Outcome) → Response
  | .ok (.here o) => success c o
  | .ok (.relayed r) => relay r
  | .error e => callFailure c e

/-! ## The other answers -/

/-- The answer to a push. -/
def syncAnswer : Except RegistryError Unit → Response
  | .ok () => .enveloped 200 "sync applied"
  | .error e => .enveloped 500 e.message

/-- The answer to a request for cursors. -/
def cursorsAnswer : Except RegistryError Cursors → Response
  | .ok c => .enveloped 200 "load balance state" (.object (c.entries.map fun (k, i) => (k, .nat i)))
  | .error e => failure e

/-- The answer to a health check. -/
def healthAnswer (isMaster : Bool) (master : Option String) (self : String) (size : Nat) :
    Response :=
  .json 200 (.object
    [("status", .string "healthy"), ("role", .string (if isMaster then "master" else "slave")),
      ("master", .orNull (master.map .string)), ("node", .string self), ("instances", .nat size),
      ("version", .string version)])

/-- The content type of metrics. -/
def metricsType : String := "text/plain; version=0.0.4"

/-- The answer to a request for metrics. -/
def metricsAnswer (exposition : String) : Response :=
  { status := 200, type := metricsType, body := .text exposition }

end ServiceRegistry.Http
