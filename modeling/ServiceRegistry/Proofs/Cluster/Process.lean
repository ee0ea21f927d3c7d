/-
  A node at work: its member, and the tasks under way.

  Everything else that a node does at the same time may come in between two turns, in any order.

  1. `Process.Move`: one thing that happens to a node.  A check begins, a call is answered, a task
     has its turn, or the node serves a client or a peer.  Which replies can come is a parameter.
  2. `PointerState`: what of a process moves its pointer, the coordinator and the tasks that steer
     it.  `PointerState.Turn` keeps of `Member.Turn` what concerns the pointer (`turn_of_steers`);
     all other turns leave the pointer alone (`steered_of_other`).
  3. `Move.step`: so a move comes to at most one turn, one reply, or new checks at the pointer.
-/
import ServiceRegistry.Proofs.Cluster.Turn

namespace ServiceRegistry

/-! ## Processes -/

/-- A node with what it has under way. -/
structure Process where
  member : Member
  underway : List Underway := []
  deriving DecidableEq, Repr

/-- A node that has done nothing yet. -/
abbrev Member.fresh (m : Membership) : Member := { coordinator := { membership := m } }

namespace Process

/-- The node after a turn, beside the tasks that did not take part in it. -/
def after (others : List Underway) (p : Progress) : Process where
  member := p.member
  underway := others ++ (p.begun ++ p.next.toList).map fun e => { task := e }

/-- The node itself is what the turn leaves. -/
@[simp] theorem after_member (others : List Underway) (p : Progress) :
    (after others p).member = p.member := rfl

/-- A node with an empty table that begins to start. -/
def launch (membership : Membership) : Process :=
  after [] (Member.fresh membership).start

/-- A check of the master becomes due. -/
def dueCheck (p : Process) : Process := { p with underway := p.underway ++ [{ task := .check }] }

/-- What can happen to a node, when its calls can be answered with these replies. -/
inductive Move (answers : PeerCall → Option Relayed → Prop) (p : Process) : Process → Prop
  /-- A check of the master becomes due. -/
  | check : Move answers p p.dueCheck
  /-- The call of a task is answered, or its connection fails. -/
  | answer {l r e call reply} (split : p.underway = l ++ { task := e } :: r)
      (calls : e.call = some call) (given : answers call reply) :
      Move answers p { p with underway := l ++ { task := e, reply := some reply } :: r }
  /-- The reply is heard. -/
  | hear {l r e call reply} (now : Int64)
      (split : p.underway = l ++ { task := e, reply := some reply } :: r)
      (calls : e.call = some call) :
      Move answers p (after (l ++ r) (p.member.hear now e reply))
  /-- A task that waits for no reply has its turn. -/
  | run {l r e progress} (split : p.underway = l ++ { task := e } :: r)
      (turn : p.member.run e = some progress) : Move answers p (after (l ++ r) progress)
  /-- A settle time has passed. -/
  | rest {l r master} (split : p.underway = l ++ { task := .settle master } :: r) :
      Move answers p (after (l ++ r) (p.member.settled (.settle master)))
  /-- The node serves clients and peers: its table and its counters change, and it may be asked to
      push changes and to check the master. -/
  | serve (service : Service) (orders : List Order) :
      Move answers p (after p.underway
        { member := { p.member with service }, begun := orders.flatMap p.member.tasksOf })

end Process

/-- What is beside one of a list is of the list. -/
theorem mem_of_mem_others {α : Type} {l r : List α} {u v : α} (h : v ∈ l ++ r) :
    v ∈ l ++ u :: r := by
  rcases List.mem_append.1 h with h | h
  · exact List.mem_append_left _ h
  · exact List.mem_append_right _ (List.mem_cons_of_mem _ h)

/-- One of a list, or one of the others. -/
theorem mem_split {α : Type} {l r : List α} {u v : α} : v ∈ l ++ u :: r ↔ v = u ∨ v ∈ l ++ r := by
  simp only [List.mem_append, List.mem_cons]
  exact ⟨fun h => by rcases h with h | h | h <;> simp [h],
    fun h => by rcases h with h | h | h <;> simp [h]⟩

/-! ## What moves the pointer -/

/-- Whether a task can move the pointer to the master, now or later. -/
def Task.steers : Task → Bool
  | .seekPeer _ _ | .seekSelf _ | .check | .probeMaster _ | .awaitTurn _ | .scan _ _ _ => true
  | .greet _ | .settle _ | .pull _ | .pullCursors _ | .push _ _ => false

/-- What decides where a node points: its coordinator, and the tasks that steer it. -/
structure PointerState where
  coordinator : Coordinator
  tasks : List Underway

/-- What decides where the node of a process points. -/
def Process.pointerState (p : Process) : PointerState where
  coordinator := p.member.coordinator
  tasks := p.underway.filter (·.task.steers)

namespace PointerState

/-- What the turn of a task does to the pointer: the coordinator after it, and the task that goes
    on. -/
inductive Turn (c : Coordinator) : Underway → Coordinator → Option Task → Prop
  | adopt {peer rest r} (up : healthy r = true) :
      Turn c ⟨.seekPeer peer rest, some r⟩ (c.settledOn peer) none
  | seekNext {peer next rest r} (down : healthy r = false) :
      Turn c ⟨.seekPeer peer (next :: rest), some r⟩ c (some (.seekPeer next rest))
  | seekSelf {peer r} (down : healthy r = false) :
      Turn c ⟨.seekPeer peer [], some r⟩ c (some (.seekSelf c.self))
  | begin {self r} :
      Turn c ⟨.seekSelf self, some r⟩
        (c.settledOn (if healthy r then self else c.membership.fallback)) none
  | early (starting : c.started = false) : Turn c ⟨.check, none⟩ c none
  | master {t} (started : c.started = true) (points : c.master = some t)
      (own : c.membership.isSelf t = true) : Turn c ⟨.check, none⟩ c none
  | probe {t} (started : c.started = true) (points : c.master = some t)
      (other : c.membership.isSelf t = false) : Turn c ⟨.check, none⟩ c (some (.probeMaster t))
  | lost (started : c.started = true) (nowhere : c.master = none) :
      Turn c ⟨.check, none⟩ c (some (.awaitTurn none))
  | fine {t r} (up : healthy r = true) : Turn c ⟨.probeMaster t, some r⟩ c none
  | failed {t r} (down : healthy r = false) :
      Turn c ⟨.probeMaster t, some r⟩ c (some (.awaitTurn (some t)))
  | stale {f} (free : c.failingOver = false) (moved : c.master ≠ f) :
      Turn c ⟨.awaitTurn f, none⟩ c none
  | elect {f candidate rest} (free : c.failingOver = false) (same : c.master = f)
      (order : c.membership.failoverOrder (f.getD "") = candidate :: rest)
      (own : c.membership.isSelf candidate = true) :
      Turn c ⟨.awaitTurn f, none⟩ (c.failedOver (some c.self)) none
  | enter {f candidate rest} (free : c.failingOver = false) (same : c.master = f)
      (order : c.membership.failoverOrder (f.getD "") = candidate :: rest)
      (other : c.membership.isSelf candidate = false) :
      Turn c ⟨.awaitTurn f, none⟩ { c with failingOver := true } (some (.scan f candidate rest))
  | nobody {f} (free : c.failingOver = false) (same : c.master = f)
      (order : c.membership.failoverOrder (f.getD "") = []) :
      Turn c ⟨.awaitTurn f, none⟩ (c.failedOver none) none
  | follow {f candidate rest r} (up : healthy r = true) :
      Turn c ⟨.scan f candidate rest, some r⟩ (c.failedOver (some candidate)) none
  | promote {f candidate next rest r} (down : healthy r = false)
      (own : c.membership.isSelf next = true) :
      Turn c ⟨.scan f candidate (next :: rest), some r⟩ (c.failedOver (some c.self)) none
  | scanNext {f candidate next rest r} (down : healthy r = false)
      (other : c.membership.isSelf next = false) :
      Turn c ⟨.scan f candidate (next :: rest), some r⟩ c (some (.scan f next rest))
  | giveUp {f candidate r} (down : healthy r = false) :
      Turn c ⟨.scan f candidate [], some r⟩ (c.failedOver none) none

/-- What can happen around a pointer. -/
inductive Step (answers : PeerCall → Option Relayed → Prop) (h : PointerState) : PointerState → Prop
  /-- Some checks, if any, become due. -/
  | checks (n : Nat) :
      Step answers h { h with tasks := h.tasks ++ List.replicate n { task := .check } }
  | answer {l r e a reply} (split : h.tasks = l ++ { task := e } :: r)
      (probes : e.call = some (.probe a)) (given : answers (.probe a) reply) :
      Step answers h { h with tasks := l ++ { task := e, reply := some reply } :: r }
  | turn {l u r c next} (split : h.tasks = l ++ u :: r) (turn : Turn h.coordinator u c next) :
      Step answers h ⟨c, l ++ r ++ next.toList.map fun e => { task := e }⟩

end PointerState

/-! ## From the member to its pointer -/

/-- What a turn leaves, seen at the pointer: this coordinator, this task that goes on, and nothing
    begun that steers. -/
structure Progress.Steered (p : Progress) (c : Coordinator) (next : Option Task) : Prop where
  coordinator : p.member.coordinator = c
  begun : ∀ e ∈ p.begun, e.steers = false
  next : p.next = next

namespace Member

variable {m : Member} {now : Int64} {u : Underway} {p : Progress}

/-- A turn that only goes on to something leaves the coordinator alone. -/
theorem steered_still {n : Member} (same : n.coordinator = m.coordinator) (next : Option Task) :
    Progress.Steered { member := n, next } m.coordinator next :=
  ⟨same, by simp, rfl⟩

/-- The end of a start. -/
theorem steered_settleOn (m : Member) (a : String) :
    (m.settleOn a).Steered (m.coordinator.settledOn a) none :=
  ⟨by simp, fun _ he => mem_begun_settleOn m a he ▸ rfl, by simp⟩

/-- A promotion: what it begins is a greeting, which does not steer. -/
theorem steered_promote (m : Member) (previous : Option String) :
    (m.promote previous).Steered (m.coordinator.failedOver (some m.coordinator.self)) none := by
  refine ⟨rfl, fun e he => ?_, rfl⟩
  obtain ⟨_, rfl⟩ := mem_begun_promote m previous he
  rfl

/-- The turn of a task that steers is a turn at the pointer. -/
theorem Turn.turn_of_steers (hTurn : m.Turn now u p) (steers : u.task.steers = true) :
    ∃ c next, PointerState.Turn m.coordinator u c next ∧ p.Steered c next := by
  cases hTurn with
  | adopt up => exact ⟨_, _, .adopt up, steered_settleOn ..⟩
  | seekNext down => exact ⟨_, _, .seekNext down, steered_still rfl _⟩
  | seekSelf down => exact ⟨_, _, .seekSelf down, steered_still rfl _⟩
  | begin => exact ⟨_, _, .begin, steered_settleOn ..⟩
  | early starting => exact ⟨_, _, .early starting, steered_still rfl _⟩
  | master started points own => exact ⟨_, _, .master started points own, steered_still rfl _⟩
  | probe started points other => exact ⟨_, _, .probe started points other, steered_still rfl _⟩
  | lost started nowhere => exact ⟨_, _, .lost started nowhere, steered_still rfl _⟩
  | fine up => exact ⟨_, _, .fine up, steered_still rfl _⟩
  | failed down => exact ⟨_, _, .failed down, steered_still rfl _⟩
  | stale free moved => exact ⟨_, _, .stale free moved, steered_still rfl _⟩
  | elect free same order own => exact ⟨_, _, .elect free same order own, steered_promote ..⟩
  | enter free same order other => exact ⟨_, _, .enter free same order other, rfl, by simp, rfl⟩
  | nobody free same order => exact ⟨_, _, .nobody free same order, rfl, by simp, rfl⟩
  | follow up => exact ⟨_, _, .follow up, rfl, by simp [Task.steers], rfl⟩
  | promote down own => exact ⟨_, _, .promote down own, steered_promote ..⟩
  | scanNext down other => exact ⟨_, _, .scanNext down other, steered_still rfl _⟩
  | giveUp down => exact ⟨_, _, .giveUp down, rfl, by simp, rfl⟩
  | greeted | gone | pulled | notPulled | adopted | notAdopted | pushed | refused => cases steers

/-- The turns of all other tasks leave the pointer alone. -/
theorem Turn.steered_of_other (hTurn : m.Turn now u p) (other : u.task.steers = false) :
    ∃ next, p.Steered m.coordinator next ∧ ∀ f ∈ next.toList, f.steers = false := by
  cases hTurn with
  | greeted | pulled | notPulled => exact ⟨_, ⟨rfl, by simp, rfl⟩, by simp [Task.steers]⟩
  | gone | adopted | notAdopted | pushed | refused => exact ⟨_, ⟨rfl, by simp, rfl⟩, by simp⟩
  | _ => cases other

/-- The node settles on another one. -/
theorem settleOn_of_other {a : String} (other : m.coordinator.membership.isSelf a = false) :
    m.settleOn a
      = { member := { m with coordinator := m.coordinator.settledOn a }
          events := [.masterChanged a]
          begun := [.settle a] } := by
  simp [settleOn, Coordinator.settledOn, other]

end Member

/-- A task that steers calls nobody but to ask whether they are up. -/
theorem Task.probe_of_steers {e : Task} {call : PeerCall} (steers : e.steers = true)
    (calls : e.call = some call) : ∃ a, call = .probe a := by
  cases e with
  | seekPeer | seekSelf | probeMaster | scan => exact ⟨_, (Option.some.inj calls).symm⟩
  | check | awaitTurn => exact nomatch calls
  | greet | settle | pull | pullCursors | push => exact nomatch steers

/-- What goes on after the turn of a task that steers, steers as well. -/
theorem PointerState.Turn.steers_next {c c' : Coordinator} {u : Underway} {next : Option Task}
    (turn : Turn c u c' next) : ∀ e ∈ next.toList, e.steers = true := by
  intro e he
  obtain rfl := Option.mem_toList.1 he
  cases turn <;> rfl

namespace Process

/-! ## The moves of a process, seen at its pointer -/

section Tasks

variable {c : Coordinator} {next : Option Task} {p : Progress} (others : List Underway)

/-- Of tasks that do not steer none is seen at the pointer; -/
theorem tasks_of_none {es : List Task} (none_steers : ∀ e ∈ es, e.steers = false) :
    (es.map fun e => ({ task := e } : Underway)).filter (·.task.steers) = [] := by
  refine List.filter_eq_nil_iff.2 fun u hu => ?_
  obtain ⟨e, he, rfl⟩ := List.mem_map.1 hu
  simpa using none_steers e he

/-- of tasks that do, all are. -/
theorem tasks_of_all {es : List Task} (all_steer : ∀ e ∈ es, e.steers = true) :
    (es.map fun e => ({ task := e } : Underway)).filter (·.task.steers)
      = es.map fun e => { task := e } := by
  refine List.filter_eq_self.2 fun u hu => ?_
  obtain ⟨e, he, rfl⟩ := List.mem_map.1 hu
  exact all_steer e he

/-- The pointer after a turn that steers. -/
theorem pointerState_after (steered : p.Steered c next)
    (all_steer : ∀ e ∈ next.toList, e.steers = true) :
    (after others p).pointerState
      = ⟨c, others.filter (·.task.steers) ++ next.toList.map fun e => { task := e }⟩ := by
  obtain ⟨rfl, begun, rfl⟩ := steered
  simp only [pointerState, after, List.filter_append, List.map_append, tasks_of_none begun,
    tasks_of_all all_steer, List.nil_append]

/-- The pointer after a turn that does not. -/
theorem pointerState_after_quiet (steered : p.Steered c next)
    (none_steers : ∀ e ∈ next.toList, e.steers = false) :
    (after others p).pointerState = ⟨c, others.filter (·.task.steers)⟩ := by
  obtain ⟨rfl, begun, rfl⟩ := steered
  simp only [pointerState, after, List.filter_append, List.map_append, tasks_of_none begun,
    tasks_of_none none_steers, List.append_nil]

/-- A check that becomes due is seen at the pointer. -/
theorem pointerState_dueCheck (p : Process) :
    p.dueCheck.pointerState
      = { p.pointerState with tasks := p.pointerState.tasks ++ [{ task := .check }] } := by
  simp [pointerState, dueCheck, Task.steers]

/-- The orders of a service steer by checks alone. -/
theorem tasks_of_orders (m : Member) (orders : List Order) :
    ∃ n, ((orders.flatMap m.tasksOf).map fun e => ({ task := e } : Underway)).filter
        (·.task.steers) = List.replicate n { task := .check } := by
  refine ⟨_, List.eq_replicate_of_mem fun u hu => ?_⟩
  obtain ⟨hu, steers⟩ := List.mem_filter.1 hu
  obtain ⟨e, he, rfl⟩ := List.mem_map.1 hu
  obtain ⟨o, -, he⟩ := List.mem_flatMap.1 he
  cases o with
  | replicate c =>
    obtain ⟨peer, -, rfl⟩ := List.mem_map.1 he
    exact nomatch steers
  | checkMaster =>
    obtain rfl := List.mem_singleton.1 he
    rfl

end Tasks

end Process

/-- That nothing happens is a step of no checks. -/
theorem PointerState.Step.refl {answers : PeerCall → Option Relayed → Prop} (h : PointerState) :
    Step answers h h := by
  have none_due : Step answers h _ := .checks 0
  rwa [List.replicate_zero, List.append_nil] at none_due

namespace Process

/-- A move of a process comes to a step at its pointer. -/
theorem Move.step {answers : PeerCall → Option Relayed → Prop} {p q : Process}
    (move : Move answers p q) : PointerState.Step answers p.pointerState q.pointerState := by
  have still : PointerState.Step answers p.pointerState p.pointerState := .refl _
  have part : ∀ {l r : List Underway} {u : Underway}, p.underway = l ++ u :: r →
      u.task.steers = true →
      p.pointerState.tasks = l.filter (·.task.steers) ++ u :: r.filter (·.task.steers) := by
    intro l r u split steers
    simp [pointerState, split, steers]
  cases move with
  | check =>
    rw [pointerState_dueCheck]
    exact .checks 1
  | @answer l r e call reply split calls given =>
    by_cases steers : e.steers = true
    · obtain ⟨a, rfl⟩ := Task.probe_of_steers steers calls
      have answered := PointerState.Step.answer (part split steers) calls given
      simpa [pointerState, steers] using answered
    · have same : ({ p with underway := l ++ ⟨e, some reply⟩ :: r } : Process).pointerState
          = p.pointerState := by simp [pointerState, split, steers]
      rwa [same]
  | @hear l r e call reply now split calls =>
    -- a task that steers has its turn at the pointer, any other one leaves that alone
    by_cases steers : e.steers = true
    · obtain ⟨a, rfl⟩ := Task.probe_of_steers steers calls
      obtain ⟨c, next, turn, steered⟩ := (p.member.turn_hear now calls reply).turn_of_steers steers
      rw [pointerState_after _ steered turn.steers_next, List.filter_append]
      exact .turn (part split steers) turn
    · obtain ⟨next, steered, quiet⟩ :=
        (p.member.turn_hear now calls reply).steered_of_other (by simpa using steers)
      have same : p.pointerState = ⟨p.member.coordinator, (l ++ r).filter (·.task.steers)⟩ := by
        simp [pointerState, split, steers]
      rw [pointerState_after_quiet _ steered quiet, ← same]
      exact still
  | @run l r e progress split turn =>
    -- whatever has a turn without a reply steers
    have steers : e.steers = true := by
      cases e <;> first | rfl | exact nomatch turn
    obtain ⟨c, next, turned, steered⟩ := (Member.turn_run 0 turn).turn_of_steers steers
    rw [pointerState_after _ steered turned.steers_next, List.filter_append]
    exact .turn (part split steers) turned
  | @rest l r master split =>
    have same : p.pointerState = ⟨p.member.coordinator, (l ++ r).filter (·.task.steers)⟩ := by
      simp [pointerState, split, Task.steers]
    have steered : (p.member.settled (.settle master)).Steered p.member.coordinator
        (some (.pull master)) := ⟨rfl, by simp [Member.settled], rfl⟩
    rw [pointerState_after_quiet _ steered (by simp [Task.steers]), ← same]
    exact still
  | serve service orders =>
    obtain ⟨n, checks⟩ := tasks_of_orders p.member orders
    have same : (after p.underway { member := { p.member with service }
                                    begun := orders.flatMap p.member.tasksOf }).pointerState
        = { p.pointerState with
              tasks := p.pointerState.tasks ++ List.replicate n { task := .check } } := by
      simp only [pointerState, after, List.filter_append, List.append_nil, Option.toList_none,
        checks]
    rw [same]
    exact .checks n

end Process

end ServiceRegistry
