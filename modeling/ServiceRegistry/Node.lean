/-
  A node: what it answers.

  A node is a member of a cluster, or stands alone: then it is always master and nobody pushes to
  it. A request is answered in one turn, or it is a call that waits, as calls do, for the master or
  for the grace period; then its answer is made in a later turn.

    * `Node.receive`            a request arrives;
    * `Node.hear`, `Node.wake`  the turns of a call that waits;
    * `Member.forward`          the call to the master that it waits for.
-/
import ServiceRegistry.Coordinator.Task
import ServiceRegistry.Http.Answers

namespace ServiceRegistry

open Http

/-- A node. -/
inductive Node
  | standalone (address : String) (service : Service)
  | member (m : Member)

/-- A call of a client that waits. -/
structure Pending where
  request : Request
  call : Call
  stage : Stage

/-- What a turn leaves of a request. -/
inductive Handled
  | answered (r : Response)
  | waiting (p : Pending)

/-- What a turn leaves: the node, what it asks of its cluster, and the request. -/
structure Handling where
  node : Node
  orders : List Order := []
  handled : Handled

namespace Node

/-- The service of a node. -/
def service : Node → Service
  | standalone _ s => s
  | member m => m.service

/-- The node with another service. -/
def withService (service : Service) : Node → Node
  | standalone a _ => standalone a service
  | member m => member { m with service }

/-- The address of a node. -/
def address : Node → String
  | standalone a _ => a
  | member m => m.coordinator.self

/-- Whether a node is master. -/
def isMaster : Node → Bool
  | standalone _ _ => true
  | member m => m.isMaster

/-- The master, as the node sees it. -/
def master : Node → Option String
  | standalone a _ => some a
  | member m => m.coordinator.master

/-- The number of records a node holds. -/
def size (n : Node) : Nat := n.service.store.size

/-- Takes over a change that another node pushes. -/
def handleSync (now : Int64) (c : Change) : Node → Except RegistryError Unit × Node
  | standalone a s => (.error (.internal "standalone node does not accept syncs"), standalone a s)
  | member m =>
    let (result, m) := m.handleSync now c
    (result, member m)

/-- The cursors a node gives away. -/
def cursors : Node → Except RegistryError Cursors
  | standalone _ s => .ok s.store.cursors
  | member m => m.cursors

/-! ## Turns -/

/-- The orders that reach a cluster: a node that stands alone has none. -/
def sent (n : Node) (orders : List Order) : List Order :=
  match n with
  | standalone _ _ => []
  | member _ => orders

/-- What a turn of a call leaves. -/
def handling (n : Node) (request : Request) (call : Call) (t : Turn) : Handling where
  node := n.withService t.service
  orders := n.sent t.orders
  handled := match t.stage with
    | .done result => .answered (request.dress (answerTo call result))
    | stage => .waiting ⟨request, call, stage⟩

/-- A request that a turn answers. -/
def answering (n : Node) (request : Request) (answer : Response) : Handling where
  node := n
  handled := .answered (request.dress answer)

/-- Carries out what a request asks. -/
def carryOut (n : Node) (now : Int64) (uptime : Nat) (request : Request) : Inquiry → Handling
  | .call c => n.handling request c (n.service.begin n.isMaster now c)
  | .sync c =>
    let (result, n) := n.handleSync now c
    n.answering request (syncAnswer result)
  | .cursors => n.answering request (cursorsAnswer n.cursors)
  | .health => n.answering request (healthAnswer n.isMaster n.master n.address n.size)
  | .metrics =>
    n.answering request (metricsAnswer (n.service.counters.exposition n.isMaster n.size uptime))

/-- A request arrives. -/
def receive (n : Node) (now : Int64) (uptime : Nat) (request : Request) : Handling :=
  match request.inquiry with
  | .error answer => { node := n, handled := .answered answer }
  | .ok inquiry => n.carryOut now uptime request inquiry

/-- The master's reply to a call that waits for it arrives. -/
def hear (n : Node) (p : Pending) (reply : Except RegistryError Relayed) : Handling :=
  n.handling p.request p.call (n.service.hear p.stage reply)

/-- The grace period of a call has passed. -/
def wake (n : Node) (p : Pending) : Handling :=
  n.handling p.request p.call (n.service.wake n.isMaster p.stage)

end Node

/-! ## Calls between nodes -/

/-- The call that a stage waits for; it goes to the master, if there is one. -/
def Member.forward (m : Member) : Stage → Option (Except RegistryError PeerCall)
  | .forwarding c => some (m.forwardTo.map (.write · c))
  | .asking name _ => some (m.forwardTo.map (.discovery · name))
  | _ => none

/-- A call as the request that arrives. -/
def PeerCall.request (c : PeerCall) : Request where
  method := c.method
  target := c.target
  headers := if c.body.isSome then [("content-type", Response.jsonType)] else []
  body := match c.body with
    | some v => Text.Octets.ofText v.compact
    | none => []

/-- An answer as the caller receives it. -/
def Http.Response.relayed (r : Response) : Relayed := ⟨r.status, r.body.octets⟩

end ServiceRegistry
