/-
  What a master holds is its own work.

  A node serves clients and peers, checks its master, fails over, and pulls snapshots from masters
  that it follows; all of this at the same time, and calls may be answered in any way.  What becomes
  of its records once it is master?

  1. `Work`: what may change the records of a master.  That is its own deeds, and also the snapshots
     that it takes over: a full sync that was under way when the node became master goes on.
  2. `Process.Does`: everything that can happen to a node, with the work it does as a master.
  3. `Process.Does.of_isMaster`: one step of a master.  It stays master, its records change by its
     work alone, and with each snapshot a pull that was under way has ended.
  4. `records_of_master`: so they are its own deeds and at most as many snapshots as there were full
     syncs under way when it became master; `snapshot_of_promoted` shows such a snapshot.
-/
import ServiceRegistry.Proofs.Cluster.TaskOrder
import ServiceRegistry.Proofs.Handling
import ServiceRegistry.Proofs.Replication
import ServiceRegistry.Proofs.Snapshot
import ServiceRegistry.Proofs.Store.Records

namespace ServiceRegistry

open Http

/-! ## Work -/

/-- What a write asks of the table. -/
def Write.operation : Write → Store.Operation
  | register x => .register x
  | heartbeat c => .heartbeat c
  | unregister c => .unregister c

/-- What changes the records of a master. -/
inductive Work
  /-- A deed of its own. -/
  | deed (d : Deed)
  /-- The records of another node, taken over. -/
  | snapshot (xs : List Instance)

/-- Whether work is done by another node's records. -/
def Work.isSnapshot : Work → Bool
  | deed _ => false
  | snapshot _ => true

namespace Service

/-- The service after some work. -/
def work (now : Int64) (w : Work) (s : Service) : Service :=
  match w with
  | .deed d => (s.deed now d).1
  | .snapshot xs => { s with store := s.store.merges now (xs.filter Member.isStamped) }

/-- The service after work, each piece at a clock reading. -/
def works : List (Int64 × Work) → Service → Service
  | [], s => s
  | (now, w) :: ws, s => works ws (s.work now w)

/-- Work in two parts. -/
theorem works_append (ws vs : List (Int64 × Work)) (s : Service) :
    s.works (ws ++ vs) = (s.works ws).works vs := by
  induction ws generalizing s with
  | nil => rfl
  | cons w ws ih => exact ih _

/-- The deeds of a master are its work. -/
theorem works_deeds (ds : List (Int64 × Deed)) (s : Service) :
    s.works (ds.map fun d => (d.1, .deed d.2)) = (s.deeds ds).1 := by
  induction ds generalizing s with
  | nil => rfl
  | cons d ds ih => exact ih _

/-- A write is an operation of the table; -/
theorem snd_writeStore (now : Int64) (w : Write) (s : Store) :
    (writeStore now w s).2 = s.carryOut now w.operation := by
  unfold writeStore Store.carryOut
  cases w <;> dsimp only [Write.operation] <;> split <;> rename_i eq <;> rw [eq]

/-- so the turn of a write leaves what that operation leaves, -/
theorem store_writeHere (now : Int64) (w : Write) (s : Service) :
    (s.writeHere now w).service.store = s.store.carryOut now w.operation := by
  rw [← snd_writeStore]
  unfold writeHere
  rcases writeStore now w s.store with ⟨_ | o, store⟩
  · rfl
  · cases o <;> rfl

/-- a query what its step of the round robin leaves, -/
theorem store_discoverHere (now : Int64) (name : String) (s : Service) :
    (s.discoverHere name).service.store = s.store.carryOut now (.discover name) := by
  show _ = (s.store.discover name).2
  unfold discoverHere
  rcases s.store.discover name with ⟨_ | _, store⟩ <;> rfl

/-- and an eviction what the removal on condition leaves. -/
theorem store_evict (now : Int64) (timeout : UInt64) (id : String) (s : Service) :
    (s.evict true now timeout id).2.1.store
      = s.store.carryOut now (.removeIfExpired id now timeout) := by
  show _ = (s.store.removeIfExpired id now timeout).2
  unfold evict
  simp only [Bool.not_true, Bool.false_eq_true, if_false]
  split <;> rename_i eq <;> rw [eq]
  rfl

/-- A reply to a call that waits changes nothing but counters. -/
@[simp] theorem store_hear (stage : Stage) (reply : Except RegistryError Relayed) (s : Service) :
    (s.hear stage reply).service.store = s.store := by
  cases stage <;> cases reply <;> rfl

/-- A query that has rested is put to the table, which keeps its records. -/
theorem wake_of_isMaster (stage : Stage) (s : Service) :
    (s.wake true stage).service.store.SameRecords s.store := by
  cases stage with
  | resting name left =>
    show (s.discoverHere name).service.store.SameRecords s.store
    rw [store_discoverHere 0]
    exact .discover s.store name
  | forwarding | asking | done => exact .refl _

end Service

namespace Store.SameRecords

variable {s t : Service} {now : Int64}

/-- A call that begins leaves the same records of the same records. -/
theorem begin (h : s.store.SameRecords t.store) (now : Int64) (c : Call) :
    (s.begin true now c).service.store.SameRecords (t.begin true now c).service.store := by
  cases c with
  | write w =>
    cases check : w.check with
    | error e =>
      rw [Service.begin_of_unfit check, Service.begin_of_unfit check]
      exact h
    | ok =>
      rw [Service.begin_of_fit check, Service.begin_of_fit check, if_pos rfl, if_pos rfl,
        Service.store_writeHere, Service.store_writeHere]
      exact h.carryOut now w.operation
  | discover name =>
    show (s.discoverHere name).service.store.SameRecords (t.discoverHere name).service.store
    rw [Service.store_discoverHere now, Service.store_discoverHere now]
    exact h.carryOut now (.discover name)

/-- So does an eviction, -/
theorem evict (h : s.store.SameRecords t.store) (now : Int64) (timeout : UInt64) (id : String) :
    (s.evict true now timeout id).2.1.store.SameRecords
      (t.evict true now timeout id).2.1.store := by
  rw [Service.store_evict, Service.store_evict]
  exact h.carryOut now (.removeIfExpired id now timeout)

/-- and so do evictions one after another. -/
theorem evictAll (h : s.store.SameRecords t.store) (now : Int64) (timeout : UInt64)
    (xs : List Instance) :
    (Service.evictAll true now timeout xs s).2.1.store.SameRecords
      (Service.evictAll true now timeout xs t).2.1.store := by
  induction xs generalizing s t with
  | nil => exact h
  | cons x xs ih =>
    have once : (s.evict true now timeout x.id).2.1.store.SameRecords
        (t.evict true now timeout x.id).2.1.store := h.evict now timeout x.id
    exact ih once

/-- The same work leaves the same records. -/
theorem work (h : s.store.SameRecords t.store) (now : Int64) (w : Work) :
    (s.work now w).store.SameRecords (t.work now w).store := by
  cases w with
  | snapshot xs => exact h.merges now _
  | deed d =>
    cases d with
    | call c => exact h.begin now c
    | evict timeout id => exact h.evict now timeout id
    | sweep timeout =>
      show (Service.evictAll true now timeout (s.store.expired now timeout) s).2.1.store.SameRecords
        (Service.evictAll true now timeout (t.store.expired now timeout) t).2.1.store
      rw [expired, expired, h.all]
      exact h.evictAll now timeout _

/-- So does any work, piece by piece. -/
theorem works (h : s.store.SameRecords t.store) (ws : List (Int64 × Work)) :
    (s.works ws).store.SameRecords (t.works ws).store := by
  induction ws generalizing s t with
  | nil => exact h
  | cons w ws ih => exact ih (h.work w.1 w.2)

end Store.SameRecords

/-! ## What a request asks of the records -/

/-- The deeds that a request asks of a master. -/
def Http.Request.deeds (r : Request) (now : Int64) : List (Int64 × Deed) :=
  match r.inquiry with
  | .ok (.call c) => [(now, .call c)]
  | _ => []

namespace Node

variable {m : Member}

/-- A request changes nothing of a member but its service. -/
theorem node_receive (m : Member) (now : Int64) (uptime : Nat) (request : Request) :
    ∃ service, ((member m).receive now uptime request).node = .member { m with service } := by
  unfold receive
  cases request.inquiry with
  | error answer => exact ⟨m.service, rfl⟩
  | ok inquiry =>
    cases inquiry with
    | call c => exact ⟨_, rfl⟩
    | cursors | health | metrics => exact ⟨m.service, rfl⟩
    | sync c =>
      show ∃ service, Node.member (m.handleSync now c).2 = .member { m with service }
      unfold Member.handleSync
      split
      · exact ⟨m.service, rfl⟩
      · exact ⟨_, rfl⟩

/-- A master changes its records by the deeds that it is asked for; it takes no push. -/
theorem service_receive_of_isMaster (master : m.isMaster = true) (now : Int64) (uptime : Nat)
    (request : Request) :
    ((member m).receive now uptime request).node.service
      = (m.service.deeds (request.deeds now)).1 := by
  unfold receive Request.deeds
  cases request.inquiry with
  | error answer => rfl
  | ok inquiry =>
    cases inquiry with
    | call c =>
      show (m.service.begin m.isMaster now c).service = (m.service.begin true now c).service
      rw [master]
    | cursors | health | metrics => rfl
    | sync c =>
      show (m.handleSync now c).2.service = m.service
      rw [Member.handleSync, if_pos master]

end Node

/-! ## Everything that a node does -/

/-- What a reply to a task makes a master take over. -/
def Task.heard (now : Int64) (reply : Option Relayed) : Task → List (Int64 × Work)
  | .pull _ =>
    match instancesIn reply with
    | some xs => [(now, .snapshot xs)]
    | none => []
  | _ => []

/-- The work that the turn of a task under way brings with it. -/
def Underway.work (now : Int64) : Underway → List (Int64 × Work)
  | ⟨e, some reply⟩ => e.heard now reply
  | ⟨_, none⟩ => []

/-- Whether a task is a full sync that has not got its records yet. -/
def Task.pulls : Task → Bool
  | .settle _ | .pull _ => true
  | _ => false

namespace Process

/-- The full syncs under way that have not got their records yet. -/
def pulls (p : Process) : Nat := p.underway.countP (·.task.pulls)

/-- A node that has served clients or peers, with what that made it begin. -/
def served (p : Process) (m : Member) (orders : List Order) : Process :=
  after p.underway { member := m, begun := orders.flatMap m.tasksOf }

/-- The work that deeds are: a node that is not master does none. -/
def own (p : Process) (ds : List (Int64 × Deed)) : List (Int64 × Work) :=
  if p.member.isMaster then ds.map fun d => (d.1, .deed d.2) else []

/-- What can happen to a node, and the work that it does as a master.  Its calls may be answered in
    any way. -/
inductive Does (p : Process) : List (Int64 × Work) → Process → Prop
  /-- A check of the master becomes due. -/
  | check : Does p [] p.dueCheck
  /-- The call of a task is answered, or its connection fails. -/
  | answer {l r e call} (reply : Option Relayed) (split : p.underway = l ++ { task := e } :: r)
      (calls : e.call = some call) :
      Does p [] { p with underway := l ++ { task := e, reply := some reply } :: r }
  /-- The reply is heard. -/
  | hear {l r e call reply} (now : Int64)
      (split : p.underway = l ++ { task := e, reply := some reply } :: r)
      (calls : e.call = some call) :
      Does p (e.heard now reply) (after (l ++ r) (p.member.hear now e reply))
  /-- A task that waits for no reply has its turn. -/
  | run {l r e progress} (split : p.underway = l ++ { task := e } :: r)
      (turn : p.member.run e = some progress) : Does p [] (after (l ++ r) progress)
  /-- A settle time has passed. -/
  | rest {l r master} (split : p.underway = l ++ { task := .settle master } :: r) :
      Does p [] (after (l ++ r) (p.member.settled (.settle master)))
  /-- A request arrives, of a client or of another node. -/
  | receive {m} (now : Int64) (uptime : Nat) (request : Request)
      (node : ((Node.member p.member).receive now uptime request).node = .member m) :
      Does p (p.own (request.deeds now))
        (p.served m ((Node.member p.member).receive now uptime request).orders)
  /-- The master's reply to a call of a client arrives, or the attempt to reach it has failed. -/
  | reply {m} (pending : Pending) (reply : Except RegistryError Relayed)
      (node : ((Node.member p.member).hear pending reply).node = .member m) :
      Does p [] (p.served m ((Node.member p.member).hear pending reply).orders)
  /-- The grace period of a call has passed. -/
  | wake {m} (pending : Pending)
      (node : ((Node.member p.member).wake pending).node = .member m) :
      Does p [] (p.served m ((Node.member p.member).wake pending).orders)
  /-- A record is evicted, if it has expired. -/
  | evict (now : Int64) (timeout : UInt64) (id : String) :
      Does p (p.own [(now, .evict timeout id)])
        (p.served { p.member with
            service := (p.member.service.evict p.member.isMaster now timeout id).2.1 }
          (p.member.service.evict p.member.isMaster now timeout id).2.2)
  /-- All expired records are evicted. -/
  | sweep (now : Int64) (timeout : UInt64) :
      Does p (p.own [(now, .sweep timeout)])
        (p.served { p.member with
            service := (p.member.service.sweep p.member.isMaster now timeout).2.1 }
          (p.member.service.sweep p.member.isMaster now timeout).2.2)

/-- Things happen to a node one after another. -/
inductive Runs (p : Process) : List (Int64 × Work) → Process → Prop
  | refl : Runs p [] p
  | tail {ws vs q r} (runs : Runs p ws q) (does : q.Does vs r) : Runs p (ws ++ vs) r

/-- Replies that may say anything. -/
def anything (_ : PeerCall) (_ : Option Relayed) : Prop := True

/-- All of it is a move. -/
theorem Does.move {p q : Process} {ws : List (Int64 × Work)} (does : p.Does ws q) :
    p.Move anything q := by
  cases does with
  | check => exact .check
  | answer reply split calls => exact .answer split calls trivial
  | hear now split calls => exact .hear now split calls
  | run split turn => exact .run split turn
  | rest split => exact .rest split
  | receive now uptime request node =>
    obtain ⟨service, same⟩ := Node.node_receive p.member now uptime request
    cases node.symm.trans same
    exact .serve service _
  | reply pending reply node =>
    cases node
    exact .serve _ _
  | wake pending node =>
    cases node
    exact .serve _ _
  | evict => exact .serve _ _
  | sweep => exact .serve _ _

end Process

/-! ## A step of a master -/

/-- What a turn leaves of a member: its coordinator as it was, its records after this work, and for
    the snapshots in it and the pulls that go on or begin, as many pulls before.  A pull is only
    ever begun by a failover or a start, so the snapshots that a master may still take over are
    those that were under way when it became one. -/
structure Member.Keeps (m : Member) (ws : List (Int64 × Work)) (before : Nat) (p : Progress) :
    Prop where
  coordinator : p.member.coordinator = m.coordinator
  records : p.member.store.SameRecords (m.service.works ws).store
  pulls : ws.countP (·.2.isSnapshot) + (p.begun ++ p.next.toList).countP Task.pulls ≤ before

namespace Member

variable {m : Member}

/-- Nothing is left of a turn but a task that does not pull. -/
theorem keeps_quiet {next : Option Task} (quiet : ∀ f ∈ next.toList, f.pulls = false)
    (before : Nat) : m.Keeps [] before { member := m, next } := by
  have no_pull : next.toList.countP Task.pulls = 0 :=
    List.countP_eq_zero.2 fun f hf => by simpa using quiet f hf
  exact ⟨rfl, .refl _, by simp [no_pull]⟩

/-- The turns of a master: what is left of a start or of a failover has no turn here, and of the
    others only the answer to a full sync does work. -/
theorem Turn.keeps {now : Int64} {u : Underway} {p : Progress} (hTurn : m.Turn now u p)
    (fits : m.coordinator.Fits u.task) (master : m.isMaster = true) :
    m.Keeps (u.work now) u.task.pulls.toNat p := by
  have hSteers := fits.of_isMaster master
  cases hTurn with
  | adopt | seekNext | seekSelf | begin | follow | promote | scanNext | giveUp =>
    rcases hSteers rfl with h | ⟨_, h⟩ | ⟨_, h, -⟩ <;> cases h
  | elect free same | enter free same | nobody free same =>
    -- the pointer has moved to the node itself, so a failover is over before it begins
    rcases hSteers rfl with h | ⟨_, h⟩ | ⟨_, h, moved⟩
    · cases h
    · cases h
    · cases h
      exact absurd same moved
  | early | master | fine | stale | gone => exact keeps_quiet (by simp) _
  | probe | lost | failed | greeted => exact keeps_quiet (by simp [Task.pulls]) _
  | pulled given =>
    -- nobody asks for the role here: the pull ends, and its snapshot takes its place
    rw [Underway.work, Task.heard, given]
    exact ⟨rfl, .refl _, by simp [Task.pulls, Work.isSnapshot]⟩
  | notPulled given =>
    rw [Underway.work, Task.heard, given]
    exact keeps_quiet (by simp [Task.pulls]) _
  | adopted => exact ⟨rfl, .adopt m.store _, by simp [Underway.work, Task.heard]⟩
  | notAdopted | pushed => exact keeps_quiet (by simp) _
  | refused => exact ⟨rfl, .refl _, by simp [Underway.work, Task.heard]⟩

end Member

namespace Process

variable {p q : Process} {ws : List (Int64 × Work)}

/-- The pulls after a turn: those beside it, and those that it begins or goes on with. -/
theorem pulls_after (others : List Underway) (progress : Progress) :
    (after others progress).pulls = others.countP (·.task.pulls)
      + (progress.begun ++ progress.next.toList).countP Task.pulls := by
  simp only [pulls, after, List.countP_append, List.map_append, List.countP_map]
  rfl

/-- One pull more, if the task that has its turn is one. -/
theorem pulls_of_split {l r : List Underway} {u : Underway} (split : p.underway = l ++ u :: r) :
    p.pulls = (l ++ r).countP (·.task.pulls) + u.task.pulls.toNat := by
  rw [pulls, split, List.countP_append, List.countP_cons, List.countP_append]
  cases u.task.pulls <;> simp [Nat.add_assoc]

/-- Serving begins pushes and checks, and no pull. -/
theorem pulls_served (p : Process) (m : Member) (orders : List Order) :
    (p.served m orders).pulls = p.pulls := by
  have none_pulls : (orders.flatMap m.tasksOf).countP Task.pulls = 0 := by
    refine List.countP_eq_zero.2 fun e he => ?_
    obtain ⟨o, -, he⟩ := List.mem_flatMap.1 he
    cases o with
    | replicate c =>
      obtain ⟨peer, -, rfl⟩ := List.mem_map.1 he
      exact Bool.false_ne_true
    | checkMaster =>
      obtain rfl := List.mem_singleton.1 he
      decide
  rw [served, pulls_after, List.countP_append, none_pulls]
  rfl

/-- All that is under way fits, what steers by the order and the rest by nature. -/
theorem fits_of_underway (ordered : p.pointerState.Ordered) {u : Underway} (hu : u ∈ p.underway) :
    p.member.coordinator.Fits u.task := by
  by_cases steers : u.task.steers = true
  · exact ordered.fits u (List.mem_filter.2 ⟨hu, steers⟩)
  · cases found : u.task with
    | greet | settle | pull | pullCursors | push => trivial
    | seekPeer | seekSelf | check | probeMaster | awaitTurn | scan =>
      rw [found] at steers
      exact absurd rfl steers

/-- A turn of a task, beside the others. -/
theorem keeps_after {l r : List Underway} {u : Underway} {progress : Progress}
    (split : p.underway = l ++ u :: r)
    (keeps : p.member.Keeps ws u.task.pulls.toNat progress) :
    (after (l ++ r) progress).member.coordinator = p.member.coordinator
      ∧ (after (l ++ r) progress).member.store.SameRecords (p.member.service.works ws).store
      ∧ ws.countP (·.2.isSnapshot) + (after (l ++ r) progress).pulls ≤ p.pulls := by
  refine ⟨keeps.coordinator, keeps.records, ?_⟩
  have count := keeps.pulls
  rw [pulls_after, pulls_of_split split]
  omega

/-- A master that has served: these deeds are what became of its records. -/
theorem keeps_served {service : Service} (orders : List Order) (ds : List (Int64 × Deed))
    (records : service.store.SameRecords (p.member.service.deeds ds).1.store) :
    (p.served { p.member with service } orders).member.coordinator = p.member.coordinator
      ∧ (p.served { p.member with service } orders).member.store.SameRecords
          (p.member.service.works (ds.map fun d => (d.1, .deed d.2))).store
      ∧ (ds.map fun d => (d.1, Work.deed d.2)).countP (·.2.isSnapshot)
          + (p.served { p.member with service } orders).pulls ≤ p.pulls := by
  have no_snapshot : (ds.map fun d => (d.1, Work.deed d.2)).countP (·.2.isSnapshot) = 0 := by
    refine List.countP_eq_zero.2 fun w hw => ?_
    obtain ⟨d, -, rfl⟩ := List.mem_map.1 hw
    exact Bool.false_ne_true
  refine ⟨rfl, ?_, ?_⟩
  · rw [Service.works_deeds]
    exact records
  · rw [no_snapshot, pulls_served]
    omega

/-- Whatever happens to a master, its coordinator stays as it is, its records change by its work
    alone, and with each snapshot a pull that was under way has ended. -/
theorem Does.of_isMaster (does : p.Does ws q) (ordered : p.pointerState.Ordered)
    (master : p.member.isMaster = true) :
    q.member.coordinator = p.member.coordinator
      ∧ q.member.store.SameRecords (p.member.service.works ws).store
      ∧ ws.countP (·.2.isSnapshot) + q.pulls ≤ p.pulls := by
  -- either a task has its turn beside the others, or the master has served somebody
  cases does with
  | check => exact ⟨rfl, .refl _, by simp [pulls, dueCheck, Task.pulls]⟩
  | answer reply split calls =>
    refine ⟨rfl, .refl _, ?_⟩
    simp [pulls, split, List.countP_cons]
  | @hear l r e call reply now split calls =>
    have fits := fits_of_underway ordered (u := ⟨e, some reply⟩) (by rw [split]; simp)
    exact keeps_after split ((Member.turn_hear _ now calls reply).keeps fits master)
  | @run l r e progress split turn =>
    have fits := fits_of_underway ordered (u := { task := e }) (by rw [split]; simp)
    exact keeps_after split ((Member.turn_run 0 turn).keeps fits master)
  | rest split =>
    exact keeps_after split ⟨rfl, .refl _, by simp [Member.settled, Task.pulls]⟩
  | @receive m now uptime request node =>
    obtain ⟨service, same⟩ := Node.node_receive p.member now uptime request
    have deeds := Node.service_receive_of_isMaster master now uptime request
    cases node.symm.trans same
    rw [same] at deeds
    rw [own, if_pos master]
    exact keeps_served _ _ (deeds ▸ .refl _)
  | @reply m pending reply node =>
    cases node
    refine keeps_served _ [] ?_
    rw [Service.store_hear]
    exact .refl _
  | @wake m pending node =>
    cases node
    refine keeps_served _ [] ?_
    show (p.member.service.wake p.member.isMaster pending.stage).service.store.SameRecords _
    rw [master]
    exact Service.wake_of_isMaster _ _
  | evict now timeout id =>
    rw [own, if_pos master, master]
    exact keeps_served _ [_] (.refl _)
  | sweep now timeout =>
    rw [own, if_pos master, master]
    exact keeps_served _ [_] (.refl _)

/-! ## Runs of a master -/

/-- A run keeps the tasks in order. -/
theorem Runs.ordered (runs : p.Runs ws q) (ordered : p.pointerState.Ordered) :
    q.pointerState.Ordered := by
  induction runs with
  | refl => exact ordered
  | tail _ does ih => exact ih.step does.move.step

/-- A master stays master in a run, its records change by its work alone, and each snapshot takes up
    a pull that was under way at the beginning. -/
theorem Runs.of_isMaster (runs : p.Runs ws q) (ordered : p.pointerState.Ordered)
    (master : p.member.isMaster = true) :
    q.member.coordinator = p.member.coordinator
      ∧ q.member.store.SameRecords (p.member.service.works ws).store
      ∧ ws.countP (·.2.isSnapshot) + q.pulls ≤ p.pulls := by
  induction runs with
  | refl => exact ⟨rfl, .refl _, by simp⟩
  | @tail ws vs q r runs does ih =>
    -- the coordinator is still the one of a master, so the next step is a step of a master
    obtain ⟨same, records, count⟩ := ih
    have still : q.member.isMaster = true := by rwa [Member.isMaster, same]
    obtain ⟨same', records', count'⟩ := does.of_isMaster (runs.ordered ordered) still
    refine ⟨same'.trans same, ?_, ?_⟩
    · rw [Service.works_append]
      exact records'.trans (records.works vs)
    · rw [List.countP_append]
      omega

/-- Work without a snapshot is deeds. -/
theorem exists_deeds (none_taken : ws.countP (·.2.isSnapshot) = 0) :
    ∃ ds : List (Int64 × Deed), ws = ds.map fun d => (d.1, .deed d.2) := by
  induction ws with
  | nil => exact ⟨[], rfl⟩
  | cons w ws ih =>
    obtain ⟨now, d | xs⟩ := w
    · obtain ⟨ds, rfl⟩ := ih (by simpa [List.countP_cons, Work.isSnapshot] using none_taken)
      exact ⟨(now, d) :: ds, rfl⟩
    · simp [Work.isSnapshot] at none_taken

end Process

/-- Let anything happen to a node from its start on, and let it be master at some time.  Then it
    stays master, and its listing is what its work has made of it since: its own deeds, and at most
    one snapshot for each full sync that was under way at that time.  When none was, its listing
    changes by its own deeds and by nothing else. -/
theorem records_of_master {m : Membership} {p q : Process} {before ws : List (Int64 × Work)}
    (reached : (Process.launch m).Runs before p) (master : p.member.isMaster = true)
    (runs : p.Runs ws q) :
    q.member.isMaster = true
    ∧ q.member.store.all = (p.member.service.works ws).store.all
    ∧ ws.countP (·.2.isSnapshot) ≤ p.pulls
    ∧ (p.pulls = 0 → ∃ ds : List (Int64 × Deed), ws = ds.map (fun d => (d.1, .deed d.2))
        ∧ q.member.store.all = (p.member.service.deeds ds).1.store.all) := by
  obtain ⟨same, records, count⟩ :=
    runs.of_isMaster (reached.ordered (.launch m)) master
  refine ⟨by rwa [Member.isMaster, same], records.all, by omega, fun none_pulls => ?_⟩
  have none_taken : ws.countP (·.2.isSnapshot) = 0 := by omega
  obtain ⟨ds, rfl⟩ := Process.exists_deeds none_taken
  exact ⟨ds, rfl, by rw [records.all, Service.works_deeds]⟩

namespace Process

/-- A record as it is registered. -/
private def offered : Instance := { id := "i", identity := ⟨"s", "h", 80⟩ }

/-- A record as it is held. -/
private def held : Instance := ⟨"i", ⟨"s", "h", 80⟩, .ofSecs 5, .ofSecs 5⟩

/-- A node that is alone has become master when it is asked for a registration: that is what it
    holds then. -/
theorem records_of_master_registering :
    ∃ before p q, (launch ⟨"a", ["a"], "a"⟩).Runs before p ∧ p.member.isMaster = true
      ∧ p.Runs [(5, .deed (.call (.write (.register offered))))] q
      ∧ q.member.isMaster = true ∧ q.member.store.all = [held] := by
  let request := (PeerCall.write "a" ⟨.register, offered⟩).request
  have asks : request.inquiry = .ok (.call (.write (.register offered))) :=
    PeerCall.inquiry_write (w := .register offered) "a" (by decide +kernel)
  obtain ⟨before, p, starts, master, empty⟩ :
      ∃ before p, (launch ⟨"a", ["a"], "a"⟩).Runs before p ∧ p.member.isMaster = true
        ∧ p.member.service = {} :=
    ⟨_, _, (Runs.refl.tail (.answer (l := []) (r := []) (some ⟨200, []⟩) rfl rfl)).tail
      (.hear (l := []) (r := []) 0 rfl rfl), rfl, rfl⟩
  obtain ⟨service, node⟩ := Node.node_receive p.member 5 0 request
  have registers : p.Does (p.own (request.deeds 5)) _ := .receive 5 0 request node
  have work : p.own (request.deeds 5) = [(5, .deed (.call (.write (.register offered))))] := by
    rw [own, if_pos master, Request.deeds, asks]
    rfl
  rw [work] at registers
  obtain ⟨still, listing, -⟩ := records_of_master starts master (Runs.refl.tail registers)
  rw [empty] at listing
  exact ⟨before, p, _, starts, master, Runs.refl.tail registers, still, listing⟩

/-- A reply is heard, and the turn is known. -/
private theorem Does.told {p : Process} {l r : List Underway} {e : Task} {call : PeerCall}
    {reply : Option Relayed} {progress : Progress}
    (split : p.underway = l ++ { task := e, reply := some reply } :: r)
    (calls : e.call = some call) (turn : p.member.hear 0 e reply = progress) :
    p.Does (e.heard 0 reply) (after (l ++ r) progress) := turn ▸ .hear 0 split calls

/-- The second of two nodes starts as a slave of the first one, and its full sync has been answered
    when a check finds the first one dead: the node promotes itself, with the answer unheard. -/
private theorem promoted_unheard (reply : Option Relayed) :
    ∃ before p r, (launch ⟨"b", ["a", "b"], "a"⟩).Runs before p ∧ p.member.isMaster = true
      ∧ p.member.store = {} ∧ p.underway = ⟨.pull "a", some reply⟩ :: r := by
  let n : Membership := ⟨"b", ["a", "b"], "a"⟩
  let slave : Member := { coordinator := { membership := n, master := some "a", started := true } }
  let elected : Member := slave.entered
  let pull : Underway := ⟨.pull "a", some reply⟩
  have other : n.isSelf "a" = false := by decide
  have own : n.isSelf "b" = true := by decide
  have order : n.failoverOrder "a" = ["b"] := by decide
  -- the start settles on the first node, and the full sync is answered
  have settles : (Member.fresh n).hear 0 (.seekPeer "a" []) (some ⟨200, []⟩)
      = { member := slave, events := [.masterChanged "a"], begun := [.settle "a"] } :=
    (Member.Turn.eq_hear (.adopt rfl)).trans (Member.settleOn_of_other other)
  obtain ⟨early, synced⟩ : ∃ before, (launch n).Runs before ⟨slave, [pull]⟩ :=
    ⟨_, (((Runs.refl.tail (.answer (l := []) (r := []) (some ⟨200, []⟩) rfl rfl)).tail
      (.told (l := []) (r := []) rfl rfl settles)).tail
      (.rest (l := []) (r := []) rfl)).tail
      (.answer (l := []) (r := []) reply rfl rfl)⟩
  -- a check finds the first node dead, and the failover comes to the node itself
  have checks : slave.run .check = some { member := slave, next := some (.probeMaster "a") } :=
    Member.Turn.eq_run (.probe rfl rfl other)
  have fails : slave.hear 0 (.probeMaster "a") none
      = { member := slave, next := some (.awaitTurn (some "a")) } :=
    Member.Turn.eq_hear (.failed rfl)
  have promotes : slave.run (.awaitTurn (some "a")) = some (elected.promote (some "a")) :=
    Member.Turn.eq_run (.elect rfl rfl order own)
  have promoted : (launch n).Runs _ (after [pull] (elected.promote (some "a"))) :=
    ((((synced.tail .check).tail
      (.run (l := [pull]) (r := []) rfl checks)).tail
      (.answer (l := [pull]) (r := []) none rfl rfl)).tail
      (.told (l := [pull]) (r := []) rfl rfl fails)).tail
      (.run (l := [pull]) (r := []) rfl promotes)
  exact ⟨_, _, [{ task := .greet "a" }], promoted,
    Coordinator.isMaster_iff.2 ⟨rfl, "b", rfl, own⟩, rfl, rfl⟩

/-- A node promotes itself while it has an answer to its full sync that it has not heard.  Then it
    takes over the records that it was sent, though it does nothing itself. -/
theorem snapshot_of_promoted :
    ∃ before p q, (launch ⟨"b", ["a", "b"], "a"⟩).Runs before p ∧ p.member.isMaster = true
      ∧ p.member.store.all = [] ∧ p.Runs [(9, .snapshot [held])] q
      ∧ q.member.store.all = [held] := by
  -- the answer of a master that holds the record
  obtain ⟨reply, told⟩ : ∃ reply, instancesIn reply = some [held] := by
    let leader : Member :=
      { coordinator := { membership := ⟨"a", ["a", "b"], "a"⟩, master := some "a", started := true }
        service := { store := ({} : Store).insert held } }
    exact ⟨_, @instancesIn_reply leader "a" 9 0 rfl⟩
  obtain ⟨before, p, r, promoted, master, empty, split⟩ := promoted_unheard reply
  have heard : (Task.pull "a").heard 9 reply = [(9, .snapshot [held])] := by
    simp [Task.heard, told]
  have absorbs : (p.member.hear 9 (.pull "a") reply).member = p.member.absorb 9 [held] := by
    simp [Member.hear, told]
  have does := Does.hear (l := []) (e := .pull "a") 9 split rfl
  rw [heard] at does
  refine ⟨before, p, _, promoted, master, by rw [empty]; rfl, Runs.refl.tail does, ?_⟩
  rw [after_member, absorbs, Member.store_absorb, empty]
  rfl

end Process

end ServiceRegistry
