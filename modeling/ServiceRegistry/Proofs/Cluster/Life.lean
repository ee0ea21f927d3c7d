/-
  The life of a node, as it can be watched.

  A node is made, it begins to start at some time, and its master may be checked at any time, also
  before that.  Each thing that happens is told with the task that had its turn, if one had, and
  with the events that the node announced.

    * `Process.Happens`   one thing that happens: a move of the node in which serving others counts
                          no failover.  All that a node does is of this kind (`Does.happens`).
    * `Process.Life`      what can become of a node; somebody else may ask it for failovers.
    * `Process.pointerState_start`   what a start puts under way.
-/
import ServiceRegistry.Proofs.Cluster.Holdings
import ServiceRegistry.Proofs.Service.Turns

namespace ServiceRegistry

/-! ## What serving others counts -/

namespace Service

/-- The failovers that a node has counted. -/
def failovers (s : Service) : UInt64 := s.counters.failovers

end Service

/-- A turn of a call counts no failover. -/
theorem Turn.Came.failovers {isMaster : Bool} {s : Service} {t : Turn} (came : t.Came isMaster s) :
    t.service.failovers = s.failovers := by
  cases came with
  | failed | forwarded | found => rfl
  | wrote master carried credited => cases carried <;> cases credited <;> rfl

namespace Service

variable (s : Service)

/-- Nor does a reply to one, -/
@[simp] theorem failovers_hear (stage : Stage) (reply : Except RegistryError Relayed) :
    (s.hear stage reply).service.failovers = s.failovers := by
  cases stage <;> cases reply <;> rfl

/-- nor a query that goes on, -/
theorem failovers_wake (isMaster : Bool) (stage : Stage) :
    (s.wake isMaster stage).service.failovers = s.failovers := by
  cases stage with
  | resting name left => exact (s.came_wake isMaster name left).failovers
  | forwarding | asking | done => rfl

/-- nor an eviction, -/
theorem failovers_evict (isMaster : Bool) (now : Int64) (timeout : UInt64) (id : String) :
    (s.evict isMaster now timeout id).2.1.failovers = s.failovers := by
  rcases s.evict_cases isMaster now timeout id with eq | ⟨x, -, -, eq⟩
  · rw [eq]
  · rw [eq]
    rfl

/-- nor several, -/
theorem failovers_evictAll (isMaster : Bool) (now : Int64) (timeout : UInt64) (xs : List Instance) :
    (evictAll isMaster now timeout xs s).2.1.failovers = s.failovers := by
  induction xs generalizing s with
  | nil => rfl
  | cons x xs ih => exact (ih _).trans (s.failovers_evict isMaster now timeout x.id)

/-- nor a sweep. -/
theorem failovers_sweep (isMaster : Bool) (now : Int64) (timeout : UInt64) :
    (s.sweep isMaster now timeout).2.1.failovers = s.failovers := by
  unfold sweep
  split
  · rfl
  · exact s.failovers_evictAll isMaster now timeout _

end Service

/-- A request counts no failover either, whatever it asks for. -/
theorem Node.failovers_receive (n : Node) (now : Int64) (uptime : Nat) (request : Http.Request) :
    (n.receive now uptime request).node.service.failovers = n.service.failovers := by
  unfold receive
  cases request.inquiry with
  | error answer => rfl
  | ok inquiry =>
    cases inquiry with
    | call c =>
      have kept := (n.service.came_begin n.isMaster now c).failovers
      cases n with
      | standalone => exact kept
      | member => exact kept
    | sync c =>
      cases n with
      | standalone => rfl
      | member m =>
        show (m.handleSync now c).2.service.failovers = m.service.failovers
        unfold Member.handleSync
        split <;> rfl
    | cursors | health | metrics => rfl

namespace Process

/-! ## What happens to a node -/

/-- One thing that happens to a node: whose turn it was, if it was one's turn, and what the node
    announced. -/
inductive Happens (p : Process) : Option Underway → List ClusterEvent → Process → Prop
  /-- A check of the master becomes due. -/
  | check : Happens p none [] p.dueCheck
  /-- The call of a task is answered, or its connection fails. -/
  | answer {l r e call} (reply : Option Relayed) (split : p.underway = l ++ { task := e } :: r)
      (calls : e.call = some call) :
      Happens p none [] { p with underway := l ++ { task := e, reply := some reply } :: r }
  /-- The reply is heard. -/
  | hear {l r e call reply} (now : Int64)
      (split : p.underway = l ++ { task := e, reply := some reply } :: r)
      (calls : e.call = some call) :
      Happens p (some ⟨e, some reply⟩) (p.member.hear now e reply).events
        (after (l ++ r) (p.member.hear now e reply))
  /-- A task that waits for no reply has its turn. -/
  | run {l r e progress} (split : p.underway = l ++ { task := e } :: r)
      (turn : p.member.run e = some progress) :
      Happens p (some { task := e }) progress.events (after (l ++ r) progress)
  /-- A settle time has passed. -/
  | rest {l r master} (split : p.underway = l ++ { task := .settle master } :: r) :
      Happens p none [] (after (l ++ r) (p.member.settled (.settle master)))
  /-- The node serves clients and peers. -/
  | serve (service : Service) (orders : List Order)
      (counted : service.failovers = p.member.service.failovers) :
      Happens p none [] (p.served { p.member with service } orders)

/-- What happens to a node is a move of it, with any answers. -/
theorem Happens.move {p q : Process} {u : Option Underway} {events : List ClusterEvent}
    (happens : p.Happens u events q) : p.Move anything q := by
  cases happens with
  | check => exact .check
  | answer reply split calls => exact .answer split calls trivial
  | hear now split calls => exact .hear now split calls
  | run split turn => exact .run split turn
  | rest split => exact .rest split
  | serve service orders counted => exact .serve service orders

/-- All that a node does happens in this way. -/
theorem Does.happens {p q : Process} {ws : List (Int64 × Work)} (does : p.Does ws q) :
    ∃ u events, p.Happens u events q := by
  cases does with
  | check => exact ⟨_, _, .check⟩
  | answer reply split calls => exact ⟨_, _, .answer reply split calls⟩
  | hear now split calls => exact ⟨_, _, .hear now split calls⟩
  | run split turn => exact ⟨_, _, .run split turn⟩
  | rest split => exact ⟨_, _, .rest split⟩
  | receive now uptime request node =>
    obtain ⟨service, same⟩ := Node.node_receive p.member now uptime request
    have counted := Node.failovers_receive (.member p.member) now uptime request
    cases node.symm.trans same
    rw [same] at counted
    exact ⟨_, _, .serve service _ counted⟩
  | reply pending reply node =>
    cases node
    exact ⟨_, _, .serve _ _ (p.member.service.failovers_hear pending.stage reply)⟩
  | wake pending node =>
    cases node
    exact ⟨_, _, .serve _ _ (p.member.service.failovers_wake p.member.isMaster pending.stage)⟩
  | evict now timeout id =>
    exact ⟨_, _, .serve _ _ (p.member.service.failovers_evict p.member.isMaster now timeout id)⟩
  | sweep now timeout =>
    exact ⟨_, _, .serve _ _ (p.member.service.failovers_sweep p.member.isMaster now timeout)⟩

/-! ## Lives -/

/-- What can become of a node: whether it has begun to start, whose turns there have been, and what
    it has announced.  The failovers that somebody else may ask it for are a parameter. -/
inductive Life (asked : Option String → Prop) (m : Membership) :
    Bool → List Underway → List ClusterEvent → Process → Prop
  /-- The node is made. -/
  | fresh : Life asked m false [] [] { member := .fresh m }
  /-- It begins to start, once. -/
  | start {turns events p} (life : Life asked m false turns events p) :
      Life asked m true turns events (after p.underway p.member.start)
  /-- It is asked for a failover. -/
  | failover {begun turns events p failed} (life : Life asked m begun turns events p)
      (allowed : asked failed) :
      Life asked m begun turns events
        { p with underway := p.underway ++ [{ task := .awaitTurn failed }] }
  /-- Something happens to it. -/
  | step {begun turns events p u es q} (life : Life asked m begun turns events p)
      (happens : p.Happens u es q) :
      Life asked m begun (turns ++ u.toList) (events ++ es) q

/-- Nobody else asks a node for a failover. -/
def unasked (_ : Option String) : Prop := False

/-- A task hears a reply, and its turn is known. -/
theorem Life.told {asked : Option String → Prop} {m : Membership} {begun : Bool}
    {turns : List Underway} {events : List ClusterEvent} {p : Process} {l r : List Underway}
    {e : Task} {call : PeerCall} {reply : Option Relayed} {progress : Progress}
    (life : Life asked m begun turns events p)
    (split : p.underway = l ++ { task := e, reply := some reply } :: r)
    (calls : e.call = some call) (turn : p.member.hear 0 e reply = progress) :
    Life asked m begun (turns ++ [⟨e, some reply⟩]) (events ++ progress.events)
      (after (l ++ r) progress) := turn ▸ life.step (.hear 0 split calls)

/-- A start puts a search under way: for the first of the peers, or for the node itself. -/
theorem pointerState_start (p : Process) :
    ∃ e, (after p.underway p.member.start).pointerState
        = ⟨p.member.coordinator, p.pointerState.tasks ++ [{ task := e }]⟩
      ∧ ((∃ peer rest, e = .seekPeer peer rest
          ∧ p.member.coordinator.membership.peers = peer :: rest)
        ∨ e = .seekSelf p.member.coordinator.self) := by
  unfold Member.start
  cases order : p.member.coordinator.membership.peers with
  | nil =>
    refine ⟨.seekSelf p.member.coordinator.self, ?_, .inr rfl⟩
    exact pointerState_after p.underway ⟨rfl, by simp [Member.seek], rfl⟩
      (by simp [Member.seek, Task.steers])
  | cons peer rest =>
    refine ⟨.seekPeer peer rest, ?_, .inl ⟨peer, rest, rfl, rfl⟩⟩
    exact pointerState_after p.underway ⟨rfl, by simp [Member.seek], rfl⟩
      (by simp [Member.seek, Task.steers])

end Process

end ServiceRegistry
