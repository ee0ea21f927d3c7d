/-
  The routes of a node, and what a request asks.

  Eight paths, each with one method; a path that is asked with GET may also be asked with HEAD.  A
  request is checked from the outside in: its path, its method, its declared length, its body or
  query; that a body is too long is told first.  What passes is an inquiry; what does not is
  answered at once.

    * `Request.inquiry`   does all of it.
-/
import ServiceRegistry.Http.Message
import ServiceRegistry.Instance.Wire
import ServiceRegistry.Service.Basic
import ServiceRegistry.Text.FormUrl

namespace ServiceRegistry.Http

open ServiceRegistry.Text ServiceRegistry.Json

/-! ## Routes -/

/-- The routes of a node. -/
inductive Route
  | write (kind : WriteKind)
  | discovery
  | sync
  | cursors
  | health
  | metrics
  deriving DecidableEq, Repr

namespace Route

/-- All routes. -/
def list : List Route :=
  [write .register, write .unregister, write .heartbeat, discovery, sync, cursors, health, metrics]

/-- The path of a route. -/
def path : Route → String
  | write kind => kind.path
  | discovery => "/api/discovery"
  | sync => "/api/internal/sync"
  | cursors => "/api/internal/loadbalance"
  | health => "/health"
  | metrics => "/metrics"

/-- The methods of a route. -/
def methods : Route → List String
  | write _ => ["POST"]
  | sync => ["POST"]
  | _ => ["GET", "HEAD"]

end Route

/-! ## Inquiries -/

/-- What a request asks a node. -/
inductive Inquiry
  | call (c : Call)
  | sync (c : Change)
  | cursors
  | health
  | metrics
  deriving DecidableEq, Repr

/-- The answer to a write whose body is refused. -/
def malformedBody (r : Rejection) : Response := .enveloped 400 s!"malformed request body: {r.text}"

/-- The answer to a push whose body is refused. -/
def malformedSync (r : Rejection) : Response := .enveloped 500 s!"invalid sync payload: {r.text}"

/-- The service name in a query, empty when there is none; a name given twice is refused. -/
def serviceName? (query : List Char) : Option String :=
  match ((FormUrl.pairs query).filter (·.1 = "name".toList)).map (·.2) with
  | [] => some ""
  | [name] => some (String.ofList name)
  | _ => none

/-- The answer to a query with two names. -/
def malformedQuery : Response := .text 400 "Failed to deserialize query string"

/-- Reads what a request to a route asks. -/
def Request.read (r : Request) : Route → Except Response Inquiry
  | .write .register =>
    match r.json Instance.wireDecoder with
    | .ok x => .ok (.call (.write (.register x)))
    | .error e => .error (malformedBody e)
  | .write .unregister =>
    match r.json Claim.decoder with
    | .ok c => .ok (.call (.write (.unregister c)))
    | .error e => .error (malformedBody e)
  | .write .heartbeat =>
    match r.json Claim.decoder with
    | .ok c => .ok (.call (.write (.heartbeat c)))
    | .error e => .error (malformedBody e)
  | .discovery =>
    match serviceName? r.query with
    | some name => .ok (.call (.discover name))
    | none => .error malformedQuery
  | .sync =>
    match r.json Change.decoder with
    | .ok c => .ok (.sync c)
    | .error e => .error (malformedSync e)
  | .cursors => .ok .cursors
  | .health => .ok .health
  | .metrics => .ok .metrics

/-- The answer to an unknown path. -/
def unknownPath : Response := { status := 404 }

/-- The answer to a known path with another method. -/
def wrongMethod (route : Route) : Response :=
  { status := 405, allow := some (",".intercalate route.methods) }

/-- The answer to a request that declares too long a body; the methods of the path are told where
    they are the other fault. -/
def tooLarge (allow : Option String) : Response :=
  { Response.text 413 "length limit exceeded" with allow }

/-- The route of a request, or the answer when there is none. -/
def Request.route (r : Request) : Except Response Route :=
  match Route.list.find? (·.path = r.path) with
  | none => .error unknownPath
  | some route => if route.methods.contains r.method then .ok route else .error (wrongMethod route)

/-- The answer without its body when it is for a request that wants none. -/
def Request.trimmed (r : Request) (answer : Response) : Response :=
  if r.method = "HEAD" then answer.bodiless else answer

/-- What the router does to an answer on its way out: the id is put on, and a HEAD request gets no
    body. -/
def Request.dress (r : Request) (answer : Response) : Response :=
  r.trimmed { answer with id := some r.id }

/-- What a request asks, or the answer to it when it asks nothing. -/
def Request.inquiry (r : Request) : Except Response Inquiry :=
  match r.oversized, r.route with
  | true, .ok _ => .error (r.trimmed (tooLarge none))
  | true, .error answer => .error (tooLarge answer.allow)
  | false, .ok route => (r.read route).mapError r.dress
  | false, .error answer => .error (r.dress answer)

end ServiceRegistry.Http
