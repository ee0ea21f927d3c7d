/-
  How a node handles requests.

  A request is answered at once when it asks nothing; else its inquiry decides.  A call runs in
  turns: on the master it is done in the first, with a result of the master's own
  (`Service.begin_local`); elsewhere it may have to wait for the master's answer (`Stage.Relays`).

    * `Node.receive_of_refused`, `Node.receive_of_call`   how requests are received;
    * `Node.handling_of_done`, `Node.handling_of_relays`, `Node.hear_of_relays`   what turns leave;
    * `Handling.reply`, `PeerCall.dress_request`   the reply that another node gets.
-/
import ServiceRegistry.Node
import ServiceRegistry.Proofs.Store.Operations

namespace ServiceRegistry

open Http

/-! ## Turns -/

/-- What the router does to an answer leaves its status. -/
@[simp] theorem Http.Request.status_dress (r : Request) (answer : Response) :
    (r.dress answer).status = answer.status := by
  unfold dress trimmed
  split <;> rfl

/-- The result of a call that the node itself has made. -/
def Turn.Local (t : Turn) : Prop :=
  ∃ result, t.stage = .done result ∧ ∀ r, result ≠ .ok (.relayed r)

namespace Service

variable {w : Write} {e : RegistryError} {now : Int64}

/-- A failure is the node's own result. -/
theorem fail_local (s : Service) (e : RegistryError) : (s.fail e).Local :=
  ⟨.error e, rfl, by simp⟩

/-- So is what becomes of a write on the node. -/
theorem writeHere_local (s : Service) (now : Int64) (w : Write) : (s.writeHere now w).Local := by
  unfold writeHere
  split
  · exact fail_local _ _
  · dsimp only
    split <;> exact ⟨_, rfl, by simp⟩

/-- So is what becomes of a query on the node. -/
theorem discoverHere_local (s : Service) (name : String) : (s.discoverHere name).Local := by
  unfold discoverHere
  split
  · exact fail_local _ _
  · exact ⟨_, rfl, by simp⟩

/-- A write that fails its first check fails alike on every node. -/
theorem begin_of_unfit (unfit : w.check = .error e) (s : Service) (isMaster : Bool) :
    s.begin isMaster now (.write w) = s.fail e := by
  simp [begin, unfit]

/-- A write that passes its first check is done on the master, and forwarded elsewhere. -/
theorem begin_of_fit (fit : w.check = .ok ()) (s : Service) (isMaster : Bool) :
    s.begin isMaster now (.write w) = if isMaster then s.writeHere now w
      else ⟨s.count .forwardedRequests, [], .forwarding ⟨w.kind, w.body⟩⟩ := by
  simp [begin, fit]

/-- On the master every call is done in one turn. -/
theorem begin_local (s : Service) (now : Int64) (c : Call) : (s.begin true now c).Local := by
  cases c with
  | write w =>
    cases check : w.check with
    | error e => exact begin_of_unfit check s true ▸ fail_local s e
    | ok => exact begin_of_fit check s true ▸ writeHere_local s now w
  | discover name => exact discoverHere_local s name

end Service

namespace Node

variable {n : Node} {now : Int64} {uptime : Nat} {request : Request} {c : Call}

/-- A node with its own service is the node. -/
@[simp] theorem withService_service (n : Node) : n.withService n.service = n := by cases n <;> rfl

/-- Without orders nothing is sent. -/
@[simp] theorem sent_nil (n : Node) : n.sent [] = [] := by cases n <;> rfl

/-- A request that asks nothing is answered and leaves the node as it was. -/
theorem receive_of_refused {answer : Response} (refused : request.inquiry = .error answer) :
    n.receive now uptime request = { node := n, handled := .answered answer } := by
  simp only [receive, refused]

/-- A request that makes a call begins it. -/
theorem receive_of_call (asks : request.inquiry = .ok (.call c)) :
    n.receive now uptime request = n.handling request c (n.service.begin n.isMaster now c) := by
  simp only [receive, asks, carryOut]

/-- A call that is done is answered with its result. -/
theorem handling_of_done {t : Turn} {result : Except RegistryError (Routed Outcome)}
    (done : t.stage = .done result) :
    n.handling request c t = {
      node := n.withService t.service
      orders := n.sent t.orders
      handled := .answered (request.dress (answerTo c result)) } := by
  simp only [handling, done]

/-- A call that fails leaves the node as it was. -/
theorem handling_fail (e : RegistryError) :
    n.handling request c (n.service.fail e)
      = { node := n, handled := .answered (request.dress (callFailure c e)) } := by
  rw [handling_of_done rfl, Service.fail, withService_service, sent_nil]
  rfl

/-- A master that is asked about a service without records. -/
theorem receive_discovery_of_nobody {name : String} (master : n.isMaster = true)
    (named : name ≠ "") (nobody : n.service.store.ofService name = [])
    (asks : request.inquiry = .ok (.call (.discover name))) :
    ∃ answer, (n.receive now uptime request).handled = .answered answer ∧ answer.status = 404 := by
  have fails : n.service.begin n.isMaster now (.discover name)
      = n.service.fail (.unknownService name) := by
    rw [master]
    show n.service.discoverHere name = _
    simp only [Service.discoverHere, Store.discover_of_nobody named nobody]
  rw [receive_of_call asks, fails, handling_fail]
  exact ⟨_, rfl, request.status_dress _⟩

end Node

/-- The stages at which a call waits for the master's answer. -/
inductive Stage.Relays : Stage → Prop
  | forwarding (c : Change) : Relays (.forwarding c)
  | asking (name : String) (left : Nat) : Relays (.asking name left)

namespace Node

variable {n : Node} {request : Request} {c : Call} {stage : Stage}

/-- A call that needs the master waits. -/
theorem handling_of_relays {service : Service} {orders : List Order} (relays : stage.Relays) :
    n.handling request c ⟨service, orders, stage⟩ = {
      node := n.withService service
      orders := n.sent orders
      handled := .waiting ⟨request, c, stage⟩ } := by
  cases relays <;> rfl

/-- The master's answer is passed on as it is. -/
theorem hear_of_relays {r : Relayed} (relays : stage.Relays) :
    n.hear ⟨request, c, stage⟩ (.ok r)
      = { node := n, handled := .answered (request.dress (relay r)) } := by
  have heard : n.service.hear stage (.ok r) = ⟨n.service, [], .done (.ok (.relayed r))⟩ := by
    cases relays <;> rfl
  rw [hear, heard, handling_of_done rfl, withService_service, sent_nil]
  rfl

end Node

/-! ## Replies -/

/-- The reply that a caller gets when its request has been handled. -/
def Handling.reply (h : Handling) : Option Relayed :=
  match h.handled with
  | .answered r => some r.relayed
  | .waiting _ => none

/-- No call of a node is made with the method for heads. -/
theorem PeerCall.method_ne_head (c : PeerCall) : c.method ≠ "HEAD" := by
  cases c <;> simp [method]

/-- A call of a node never asks for an answer without its body. -/
theorem PeerCall.dress_request (c : PeerCall) (answer : Response) :
    c.request.dress answer = { answer with id := some c.request.id } :=
  if_neg c.method_ne_head

end ServiceRegistry
