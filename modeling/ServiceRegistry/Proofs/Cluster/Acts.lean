/-
  What a node does, act by act, with what can be seen of it.

  A node carries out inputs: it handles requests, it hears and wakes calls that wait, it evicts and
  sweeps.  A member of a cluster also works at its tasks in between.  Everything it does is named
  here by what sets it off, so that two runs can be compared.

    * `Input`, `Node.perform`   an input, and what it leaves; a node that stands alone has no other
                               acts;
    * `Process.Performs`       one act of a member: these are the steps of `Process.Does`
                               (`Performs.does`, `Does.performs`);
    * `Process.Passes`         a run, told as episodes: each act with what was shown and the table
                               after it.
-/
import ServiceRegistry.Proofs.Cluster.Holdings

namespace ServiceRegistry

open Http

/-! ## Inputs -/

/-- What clients, other nodes and timers ask of a node. -/
inductive Input
  /-- A request arrives. -/
  | receive (now : Int64) (uptime : Nat) (request : Request)
  /-- The master's reply to a call that waits arrives, or the attempt to reach it has failed. -/
  | reply (pending : Pending) (reply : Except RegistryError Relayed)
  /-- The grace period of a call has passed. -/
  | wake (pending : Pending)
  /-- A record is evicted, if it has expired. -/
  | evict (now : Int64) (timeout : UInt64) (id : String)
  /-- All expired records are evicted. -/
  | sweep (now : Int64) (timeout : UInt64)

/-- What can be seen of an input. -/
inductive Shown
  | handled (h : Handled)
  | evicted (gone : Bool)
  | swept (count : Nat)

/-- What an input leaves: the node, what it asks of its cluster, and what can be seen. -/
structure Performance where
  node : Node
  orders : List Order
  shown : Shown

/-- A request that has been handled. -/
def Handling.performance (h : Handling) : Performance := ⟨h.node, h.orders, .handled h.handled⟩

namespace Node

/-- Carries out an input. -/
def perform (n : Node) : Input → Performance
  | .receive now uptime request => (n.receive now uptime request).performance
  | .reply pending reply => (n.hear pending reply).performance
  | .wake pending => (n.wake pending).performance
  | .evict now timeout id =>
    let (gone, service, orders) := n.service.evict n.isMaster now timeout id
    ⟨n.withService service, n.sent orders, .evicted gone⟩
  | .sweep now timeout =>
    let (count, service, orders) := n.service.sweep n.isMaster now timeout
    ⟨n.withService service, n.sent orders, .swept count⟩

/-- A request as an input. -/
theorem perform_receive (n : Node) (now : Int64) (uptime : Nat) (request : Request) :
    n.perform (.receive now uptime request) = (n.receive now uptime request).performance := rfl

/-- An input changes nothing of a member but its service. -/
theorem node_perform (m : Member) (t : Input) :
    ∃ service, ((member m).perform t).node = .member { m with service } := by
  cases t with
  | receive now uptime request => exact node_receive m now uptime request
  | reply | wake | evict | sweep => exact ⟨_, rfl⟩

end Node

/-! ## Acts -/

/-- Whether a task is a push. -/
def Task.isPush : Task → Bool
  | .push _ _ => true
  | _ => false

/-- What a member of a cluster does next. -/
inductive Act
  | input (t : Input)
  /-- A check of the master becomes due. -/
  | due
  /-- The call of a task is answered, or its connection fails. -/
  | answer (e : Task) (reply : Option Relayed)
  /-- The reply is heard. -/
  | hear (now : Int64) (e : Task) (reply : Option Relayed)
  /-- A task that waits for no reply has its turn. -/
  | run (e : Task)
  /-- A settle time has passed. -/
  | rest (master : String)

/-- Whether an act belongs to a push. -/
def Act.isPush : Act → Bool
  | .answer e _ => e.isPush
  | .hear _ e _ => e.isPush
  | _ => false

namespace Process

/-- A member does one thing, and something can be seen of it if it is an input. -/
inductive Performs (p : Process) : Act → Option Shown → Process → Prop
  | input {m} (t : Input) (node : ((Node.member p.member).perform t).node = .member m) :
      Performs p (.input t) (some ((Node.member p.member).perform t).shown)
        (p.served m ((Node.member p.member).perform t).orders)
  | due : Performs p .due none p.dueCheck
  | answer {l r e call} (reply : Option Relayed) (split : p.underway = l ++ { task := e } :: r)
      (calls : e.call = some call) :
      Performs p (.answer e reply) none
        { p with underway := l ++ { task := e, reply := some reply } :: r }
  | hear {l r e call reply} (now : Int64)
      (split : p.underway = l ++ { task := e, reply := some reply } :: r)
      (calls : e.call = some call) :
      Performs p (.hear now e reply) none (after (l ++ r) (p.member.hear now e reply))
  | run {l r e progress} (split : p.underway = l ++ { task := e } :: r)
      (turn : p.member.run e = some progress) :
      Performs p (.run e) none (after (l ++ r) progress)
  | rest {l r master} (split : p.underway = l ++ { task := .settle master } :: r) :
      Performs p (.rest master) none (after (l ++ r) (p.member.settled (.settle master)))

variable {p q : Process} {a : Act} {shown : Option Shown}

/-- Each act is a step of the node. -/
theorem Performs.does (performs : p.Performs a shown q) : ∃ ws, p.Does ws q := by
  cases performs with
  | input t node =>
    cases t with
    | receive now uptime request => exact ⟨_, .receive now uptime request node⟩
    | reply pending reply => exact ⟨_, .reply pending reply node⟩
    | wake pending => exact ⟨_, .wake pending node⟩
    | evict now timeout id =>
      cases node
      exact ⟨_, .evict now timeout id⟩
    | sweep now timeout =>
      cases node
      exact ⟨_, .sweep now timeout⟩
  | due => exact ⟨_, .check⟩
  | answer reply split calls => exact ⟨_, .answer reply split calls⟩
  | hear now split calls => exact ⟨_, .hear now split calls⟩
  | run split turn => exact ⟨_, .run split turn⟩
  | rest split => exact ⟨_, .rest split⟩

/-- Each step of the node is an act. -/
theorem Does.performs {ws : List (Int64 × Work)} (does : p.Does ws q) :
    ∃ a shown, p.Performs a shown q := by
  cases does with
  | check => exact ⟨_, _, .due⟩
  | answer reply split calls => exact ⟨_, _, .answer reply split calls⟩
  | hear now split calls => exact ⟨_, _, .hear now split calls⟩
  | run split turn => exact ⟨_, _, .run split turn⟩
  | rest split => exact ⟨_, _, .rest split⟩
  | receive now uptime request node => exact ⟨_, _, .input (.receive now uptime request) node⟩
  | reply pending reply node => exact ⟨_, _, .input (.reply pending reply) node⟩
  | wake pending node => exact ⟨_, _, .input (.wake pending) node⟩
  | evict now timeout id => exact ⟨_, _, .input (.evict now timeout id) rfl⟩
  | sweep now timeout => exact ⟨_, _, .input (.sweep now timeout) rfl⟩

/-- What a node is in its cluster, no act changes. -/
theorem Performs.membership (performs : p.Performs a shown q) :
    q.member.coordinator.membership = p.member.coordinator.membership := by
  obtain ⟨ws, does⟩ := performs.does
  exact does.move.step.membership

end Process

/-! ## Runs -/

/-- An act, what was shown of it, and the table after it. -/
structure Episode where
  act : Act
  shown : Option Shown
  store : Store

/-- What a member does, one act after another. -/
inductive Process.Passes : Process → List Episode → Process → Prop
  | nil {p} : Passes p [] p
  | cons {p q r a shown es} (performs : p.Performs a shown q) (passes : Passes q es r) :
      Passes p (⟨a, shown, q.member.store⟩ :: es) r

/-- The inputs among episodes. -/
def inputs (es : List Episode) : List Input :=
  es.filterMap fun e => match e.act with
    | .input t => some t
    | _ => none

/-- Any inputs can be carried out, one after another. -/
theorem Process.exists_passes (p : Process) (ts : List Input) :
    ∃ es q, p.Passes es q ∧ inputs es = ts := by
  induction ts generalizing p with
  | nil => exact ⟨[], p, .nil, rfl⟩
  | cons t ts ih =>
    obtain ⟨service, node⟩ := Node.node_perform p.member t
    obtain ⟨es, q, passes, same⟩ := ih (p.served { p.member with service } _)
    exact ⟨_, q, .cons (.input t node) passes, congrArg (t :: ·) same⟩

end ServiceRegistry
