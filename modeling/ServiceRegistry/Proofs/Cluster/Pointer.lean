/-
  Where a node points, and what it tells of it.

  The node is one of its own candidates, which are in normal form; some of them may be the same.  It
  starts once, its master is checked at any times, and what its probes are answered is open.  A
  check may act on a pointer that has long moved on.

  1. `PointerState.Bound`: what keeps the pointer set.  A failover under way has left a master that
     was another node, and has the node itself before it (`Membership.Aims`); so it never runs out
     of candidates (`Bound.step`).
  2. `Member.Shift`: one thing that happens leaves the pointer, or sets it in the start, or moves it
     in a failover from where it is (`Process.Happens.shift`).
  3. `Standing`: where the node has pointed so far is what it has announced and counted
     (`Standing.shift`).
  4. `pointer_of_life` puts this together for the whole life of a node.
-/
import ServiceRegistry.Proofs.Cluster.Life
import ServiceRegistry.Proofs.Cluster.Ring
import Mathlib.Data.List.Chain

namespace ServiceRegistry

/-! ## Candidates -/

namespace Membership

/-- The role of a node that points there. -/
def roleAt (m : Membership) : Option String → Role
  | none => .initializing
  | some a => if m.isSelf a then .master else .slave

/-- A node that is one of its candidates, which are in normal form. -/
structure Listed (m : Membership) : Prop where
  normal : ∀ a ∈ m.candidates, normalizeAddress a = a
  listed : m.self ∈ m.candidates

/-- A task of a failover aims at the node itself: the failed master is known, and is not tried
    again; the candidate that is tried is another node, and the node itself comes after it. -/
def Aims (m : Membership) : Task → Prop
  | .awaitTurn failed => ∃ f, failed = some f
  | .scan failed candidate rest =>
    ∃ f, failed = some f ∧ (∀ a ∈ candidate :: rest, a ≠ f) ∧ m.isSelf candidate = false
      ∧ ∃ a ∈ rest, m.isSelf a = true
  | _ => True

namespace Listed

variable {m : Membership} {a f : String} (h : m.Listed)
include h

/-- Such a node knows its own address. -/
theorem isSelf_self : m.isSelf m.self = true := by
  rw [isSelf, h.normal _ h.listed, decide_eq_true_eq]

/-- A failover does not try the failed one, whatever its form. -/
theorem ne_of_mem_failoverOrder (ha : a ∈ m.failoverOrder f) : a ≠ f := by
  have other : a ≠ normalizeAddress f := by
    unfold failoverOrder at ha
    simpa using (List.mem_filter.1 ha).2
  rintro rfl
  exact other (h.normal a (mem_candidates_of_mem_failoverOrder ha)).symm

/-- A failover that begins with another candidate has the node itself before it. -/
theorem aims_enter {candidate : String} {rest : List String} (failed : m.isSelf f = false)
    (order : m.failoverOrder f = candidate :: rest) (other : m.isSelf candidate = false) :
    m.Aims (.scan (some f) candidate rest) := by
  have here := m.self_mem_failoverOrder h.listed failed
  have apart : ∀ a ∈ m.failoverOrder f, a ≠ f := fun a ha => h.ne_of_mem_failoverOrder ha
  rw [order] at here apart
  refine ⟨f, rfl, apart, other, m.self, ?_, h.isSelf_self⟩
  rcases List.mem_cons.1 here with same | ahead
  · exact absurd (other.symm.trans (same ▸ h.isSelf_self)) Bool.false_ne_true
  · exact ahead

end Listed

/-- A failover that goes on still has the node itself before it. -/
theorem Aims.next {m : Membership} {failed : Option String} {candidate next : String}
    {rest : List String} (aims : m.Aims (.scan failed candidate (next :: rest)))
    (other : m.isSelf next = false) : m.Aims (.scan failed next rest) := by
  obtain ⟨f, rfl, apart, -, a, ha, own⟩ := aims
  refine ⟨f, rfl, fun b hb => apart b (.tail _ hb), other, a, ?_, own⟩
  rcases List.mem_cons.1 ha with rfl | ahead
  · exact absurd (other.symm.trans own) Bool.false_ne_true
  · exact ahead

end Membership

namespace PointerState

/-! ## What keeps the pointer set -/

/-- Checks search for nothing. -/
theorem countP_searches_of_checks {tasks : List Underway}
    (checks : ∀ u ∈ tasks, u.task = .check) : tasks.countP (·.task.searches) = 0 :=
  List.countP_eq_zero.2 fun u hu => by rw [checks u hu]; decide

/-- The pointer is set from the start on, and every failover aims at the node itself.  Therefore it
    never runs out of candidates: at the latest it comes to the node, which needs no answer. -/
structure Bound (m : Membership) (h : PointerState) : Prop where
  ordered : h.Ordered
  membership : h.coordinator.membership = m
  pointed : h.coordinator.started = h.coordinator.master.isSome
  aims : ∀ u ∈ h.tasks, m.Aims u.task

namespace Bound

variable {m : Membership} {h h' : PointerState} {l r : List Underway} {u : Underway}
  {c : Coordinator}
  {next : Option Task}

/-- The task that has its turn, and the others. -/
theorem aims_of_split (b : h.Bound m) (split : h.tasks = l ++ u :: r) :
    m.Aims u.task ∧ ∀ v ∈ l ++ r, m.Aims v.task := by
  have aims := b.aims
  rw [split] at aims
  exact ⟨aims u (by simp), fun v hv => aims v (mem_of_mem_others hv)⟩

/-- What goes on still aims at the node itself. -/
theorem aims_next (b : h.Bound m) (listed : m.Listed) (fits : h.coordinator.Fits u.task)
    (aims : m.Aims u.task) (turn : Turn h.coordinator u c next) :
    ∀ e ∈ next.toList, m.Aims e := by
  obtain ⟨-, rfl, pointed, -⟩ := b
  intro e he
  obtain rfl := Option.mem_toList.1 he
  cases turn with
  | seekNext | seekSelf | probe => trivial
  | lost started nowhere =>
    rw [started, nowhere] at pointed
    exact nomatch pointed
  | failed => exact ⟨_, rfl⟩
  | enter free same order other =>
    obtain ⟨f, rfl⟩ := aims
    exact listed.aims_enter (fits.2 f rfl) order other
  | scanNext down other => exact aims.next other

/-- A turn leaves the pointer set: a failover ends before it runs out of candidates. -/
theorem pointed_turn (b : h.Bound m) (listed : m.Listed) (fits : h.coordinator.Fits u.task)
    (aims : m.Aims u.task) (turn : Turn h.coordinator u c next) :
    c.started = c.master.isSome := by
  obtain ⟨-, rfl, pointed, -⟩ := b
  cases turn with
  | adopt | begin => rfl
  | elect | follow | promote => exact fits.1
  | nobody free same order =>
    obtain ⟨f, rfl⟩ := aims
    have here := h.coordinator.membership.self_mem_failoverOrder listed.listed (fits.2 f rfl)
    rw [show h.coordinator.membership.failoverOrder f = [] from order] at here
    exact absurd here List.not_mem_nil
  | giveUp =>
    obtain ⟨f, rfl, -, -, a, ha, -⟩ := aims
    exact absurd ha List.not_mem_nil
  | _ => exact pointed

/-- A step keeps the pointer set. -/
theorem step {answers : PeerCall → Option Relayed → Prop} (b : h.Bound m) (listed : m.Listed)
    (step : Step answers h h') : h'.Bound m := by
  refine ⟨b.ordered.step step, step.membership.trans b.membership, ?_, ?_⟩
  · cases step with
    | checks | answer => exact b.pointed
    | turn split turn =>
      exact b.pointed_turn listed (b.ordered.fits_of_split split).1 (b.aims_of_split split).1 turn
  · intro v hv
    cases step with
    | checks n =>
      rcases List.mem_append.1 hv with hv | hv
      · exact b.aims v hv
      · rw [List.eq_of_mem_replicate hv]
        trivial
    | answer split probes given =>
      obtain ⟨aims, others⟩ := b.aims_of_split split
      rcases mem_split.1 hv with rfl | hv
      · exact aims
      · exact others v hv
    | turn split turn =>
      obtain ⟨aims, others⟩ := b.aims_of_split split
      rcases List.mem_append.1 hv with old | new
      · exact others v old
      · obtain ⟨e, he, rfl⟩ := List.mem_map.1 new
        exact b.aims_next listed (b.ordered.fits_of_split split).1 aims turn e he

/-- A node that has nothing but checks before it, and has not begun to start. -/
theorem of_checks (tasks : List Underway) (checks : ∀ u ∈ tasks, u.task = .check) :
    Bound m ⟨{ membership := m }, tasks⟩ := by
  refine ⟨⟨fun u hu => ?_, ?_⟩, rfl, rfl, fun u hu => ?_⟩
  · rw [checks u hu]
    trivial
  · exact countP_searches_of_checks checks ▸ Nat.zero_le 1
  · rw [checks u hu]
    trivial

/-- It begins to start: only now does anything search. -/
theorem of_start {tasks : List Underway} (checks : ∀ u ∈ tasks, u.task = .check) {e : Task}
    (search : (∃ peer rest, e = .seekPeer peer rest) ∨ e = .seekSelf m.self) :
    Bound m ⟨{ membership := m }, tasks ++ [{ task := e }]⟩ := by
  obtain ⟨⟨fits, -⟩, -, -, aims⟩ := of_checks (m := m) tasks checks
  have fits_e : ({ membership := m } : Coordinator).Fits e ∧ m.Aims e := by
    rcases search with ⟨peer, rest, rfl⟩ | rfl
    · exact ⟨rfl, trivial⟩
    · exact ⟨rfl, trivial⟩
  refine ⟨⟨fun u hu => ?_, ?_⟩, rfl, rfl, fun u hu => ?_⟩
  · rcases List.mem_append.1 hu with hu | hu
    · exact fits u hu
    · rw [List.mem_singleton.1 hu]
      exact fits_e.1
  · rw [List.countP_append, countP_searches_of_checks checks, Nat.zero_add]
    exact List.countP_le_length
  · rcases List.mem_append.1 hu with hu | hu
    · exact aims u hu
    · rw [List.mem_singleton.1 hu]
      exact fits_e.2

end Bound

/-- Before the start has begun there is nothing but checks, and they find that it is too early. -/
theorem Step.unbegun {answers : PeerCall → Option Relayed → Prop} {m : Membership}
    {h h' : PointerState}
    (step : Step answers h h') (unbegun : h.coordinator = { membership := m })
    (checks : ∀ u ∈ h.tasks, u.task = .check) :
    h'.coordinator = { membership := m } ∧ ∀ u ∈ h'.tasks, u.task = .check := by
  cases step with
  | checks n =>
    refine ⟨unbegun, fun u hu => ?_⟩
    rcases List.mem_append.1 hu with hu | hu
    · exact checks u hu
    · rw [List.eq_of_mem_replicate hu]
  | @answer l r e a reply split probes given =>
    rw [split] at checks
    obtain rfl : e = .check := checks { task := e } (by simp)
    exact nomatch probes
  | @turn l u r c next split turn =>
    rw [split] at checks
    have due : u.task = .check := checks u (by simp)
    have early : h.coordinator.started = false := by rw [unbegun]
    cases turn with
    | early =>
      refine ⟨unbegun, fun v hv => ?_⟩
      rw [Option.toList_none, List.map_nil, List.append_nil] at hv
      exact checks v (mem_of_mem_others hv)
    | master started | probe started | lost started =>
      exact absurd (early.symm.trans started) Bool.false_ne_true
    | _ => exact nomatch due

end PointerState

/-! ## One thing that happens -/

/-- Whether a task looks for the first master. -/
def Task.seeks : Task → Bool
  | .seekPeer _ _ | .seekSelf _ => true
  | _ => false

/-- The master that a task of a failover leaves. -/
def Task.leaves : Task → Option String
  | .awaitTurn failed => failed
  | .scan failed _ _ => failed
  | _ => none

/-- What one thing does to the pointer, and what is announced and counted with it.
    The pointer stays, and nothing is announced or counted; or the start sets it, which is
    announced; or a failover moves it, from the master it points at, which is another node, to a
    different one, which is announced and counted once. -/
inductive Member.Shift (m : Member) : Option Underway → List ClusterEvent → Member → Prop
  | still {u : Option Underway} {m' : Member}
      (started : m'.coordinator.started = m.coordinator.started)
      (pointer : m'.coordinator.master = m.coordinator.master)
      (counted : m'.service.failovers = m.service.failovers) : Shift m u [] m'
  | settled {u : Underway} {m' : Member} {a : String} (seeks : u.task.seeks = true)
      (starting : m.coordinator.started = false) (started : m'.coordinator.started = true)
      (pointer : m'.coordinator.master = some a)
      (counted : m'.service.failovers = m.service.failovers) :
      Shift m (some u) [m.coordinator.membership.announcement a] m'
  | moved {u : Underway} {m' : Member} {f a : String} (leaves : u.task.leaves = some f)
      (pointed : m.coordinator.master = some f)
      (other : m.coordinator.membership.isSelf f = false) (ne : a ≠ f)
      (started : m'.coordinator.started = m.coordinator.started)
      (pointer : m'.coordinator.master = some a)
      (counted : m'.service.failovers = m.service.failovers + 1) :
      Shift m (some u) [m.coordinator.membership.announcement a] m'

namespace Member

variable {m : Member}

/-- Nothing has happened. -/
theorem Shift.refl (m : Member) (u : Option Underway) : m.Shift u [] m := .still rfl rfl rfl

/-- A master stays master: no failover leaves the node itself. -/
theorem Shift.isMaster {es : List ClusterEvent} {m' : Member} (shift : m.Shift u es m')
    (same : m'.coordinator.membership = m.coordinator.membership) (master : m.isMaster = true) :
    m'.isMaster = true := by
  obtain ⟨started, t, points, own⟩ := Coordinator.isMaster_iff.1 master
  refine Coordinator.isMaster_iff.2 ?_
  rw [same]
  cases shift with
  | still started' pointer => exact ⟨started'.trans started, t, pointer.trans points, own⟩
  | settled seeks starting => exact absurd (starting.symm.trans started) Bool.false_ne_true
  | moved leaves pointed other =>
    obtain rfl := Option.some.inj (points.symm.trans pointed)
    exact absurd (other.symm.trans own) Bool.false_ne_true

/-- The start sets the pointer. -/
theorem shift_settleOn (starting : m.coordinator.started = false) {u : Underway}
    (seeks : u.task.seeks = true) (a : String) :
    m.Shift (some u) (m.settleOn a).events (m.settleOn a).member := by
  rw [events_settleOn]
  exact .settled seeks starting (by simp) (by simp) (by simp)

/-- A failover that comes to the node itself. -/
theorem shift_promote {n : Member} (listed : m.coordinator.membership.Listed) {u : Underway}
    {f : String} (leaves : u.task.leaves = some f) (pointed : m.coordinator.master = some f)
    (other : m.coordinator.membership.isSelf f = false)
    (same : n.coordinator.membership = m.coordinator.membership)
    (started : n.coordinator.started = m.coordinator.started)
    (counted : n.service.failovers = m.service.failovers) :
    m.Shift (some u) (n.promote (some f)).events (n.promote (some f)).member := by
  have own : m.coordinator.membership.isSelf m.coordinator.self = true := listed.isSelf_self
  have self_same : n.coordinator.self = m.coordinator.self := congrArg Membership.self same
  have announced : (n.promote (some f)).events
      = [m.coordinator.membership.announcement m.coordinator.self] := by
    rw [events_promote, Membership.announcement, if_pos own]
  have ne : m.coordinator.self ≠ f := by
    rintro rfl
    exact Bool.false_ne_true (other.symm.trans own)
  rw [announced]
  refine .moved leaves pointed other ne (by simpa using started) (by simp [self_same]) ?_
  rw [service_promote, ← counted]
  rfl

/-- Whatever has a turn, the pointer stays, is set by the start, or is moved by a failover. -/
theorem Turn.shift {now : Int64} {u : Underway} {p : Progress} (hTurn : m.Turn now u p)
    (listed : m.coordinator.membership.Listed) (fits : m.coordinator.Fits u.task)
    (aims : m.coordinator.membership.Aims u.task) : m.Shift (some u) p.events p.member := by
  cases hTurn with
  | adopt | begin => exact shift_settleOn fits rfl _
  | elect free same =>
    obtain ⟨f, rfl⟩ := aims
    exact shift_promote listed rfl same (fits.2 f rfl) rfl rfl rfl
  | nobody free same order =>
    -- the node itself is a candidate, so a failover from another one finds somebody to try
    obtain ⟨f, rfl⟩ := aims
    have here := m.coordinator.membership.self_mem_failoverOrder listed.listed (fits.2 f rfl)
    rw [show m.coordinator.membership.failoverOrder f = [] from order] at here
    exact absurd here List.not_mem_nil
  | @follow f candidate rest r up =>
    obtain ⟨f, rfl, apart, ahead, -⟩ := aims
    obtain ⟨-, -, pointed, others⟩ := fits
    have announced : (m.follow candidate).events
        = [m.coordinator.membership.announcement candidate] := by
      rw [events_follow, Membership.announcement, ahead, if_neg Bool.false_ne_true]
    rw [announced]
    exact .moved rfl pointed (others f rfl) (apart _ (.head _)) rfl rfl rfl
  | promote down own =>
    obtain ⟨f, rfl, -⟩ := aims
    obtain ⟨-, -, pointed, others⟩ := fits
    exact shift_promote listed rfl pointed (others f rfl) rfl rfl rfl
  | giveUp =>
    obtain ⟨f, rfl, -, -, a, ha, -⟩ := aims
    exact absurd ha List.not_mem_nil
  | _ => exact .still rfl rfl rfl

end Member

namespace Process

variable {m : Membership} {p q : Process} {u : Option Underway} {events es : List ClusterEvent}

/-- All that is under way aims at the node itself, what does not steer by nature. -/
theorem aims_of_underway (bound : p.pointerState.Bound m) {v : Underway} (hv : v ∈ p.underway) :
    m.Aims v.task := by
  by_cases steers : v.task.steers = true
  · exact bound.aims v (List.mem_filter.2 ⟨hv, steers⟩)
  · cases found : v.task with
    | awaitTurn | scan =>
      rw [found] at steers
      exact absurd rfl steers
    | _ => trivial

/-- Whatever happens to a node, its pointer stays, is set by the start, or is moved by a failover
    from where it is. -/
theorem Happens.shift (happens : p.Happens u es q) (listed : m.Listed)
    (bound : p.pointerState.Bound m) :
    p.member.Shift u es q.member := by
  have same : p.member.coordinator.membership = m := bound.membership
  cases happens with
  | check | answer => exact .refl _ _
  | rest split => exact .refl _ _
  | serve service orders counted => exact .still rfl rfl counted
  | @hear l r e call reply now split calls =>
    have there : ⟨e, some reply⟩ ∈ p.underway := by rw [split]; simp
    exact (Member.turn_hear _ now calls reply).shift (same ▸ listed)
      (fits_of_underway bound.ordered there) (same ▸ aims_of_underway bound there)
  | @run l r e progress split turn =>
    have there : { task := e } ∈ p.underway := by rw [split]; simp
    exact (Member.turn_run 0 turn).shift (same ▸ listed)
      (fits_of_underway bound.ordered there) (same ▸ aims_of_underway bound there)

/-! ## The history of the pointer -/

/-- Where a node has pointed, one master after another, is all that it has announced and counted:
    the first of them was set by the start and the others by failovers, each master is another one
    than the one before it, and only the last one may be the node itself.  So events, counter and
    role need no history of their own: they are read off this list. -/
structure Standing (m : Membership) (pointers : List String) (events : List ClusterEvent)
    (n : Member) : Prop where
  started : n.coordinator.started = !pointers.isEmpty
  pointer : n.coordinator.master = pointers.getLast?
  role : n.coordinator.role = m.roleAt pointers.getLast?
  announced : events = pointers.map m.announcement
  counted : n.service.failovers = .ofNat (pointers.length - 1)
  apart : pointers.IsChain (· ≠ ·)
  others : ∀ a ∈ pointers.dropLast, m.isSelf a = false

namespace Standing

variable {n n' : Member} {pointers : List String}

/-- The role follows from the rest. -/
theorem of (own : n.coordinator.membership = m)
    (started : n.coordinator.started = !pointers.isEmpty)
    (pointer : n.coordinator.master = pointers.getLast?)
    (announced : events = pointers.map m.announcement)
    (counted : n.service.failovers = .ofNat (pointers.length - 1))
    (apart : pointers.IsChain (· ≠ ·)) (others : ∀ a ∈ pointers.dropLast, m.isSelf a = false) :
    Standing m pointers events n := by
  refine ⟨started, pointer, ?_, announced, counted, apart, others⟩
  unfold Coordinator.role Membership.roleAt
  rw [started, pointer, own]
  rcases List.eq_nil_or_concat pointers with rfl | ⟨earlier, a, rfl⟩
  · rfl
  · cases self : m.isSelf a <;> simp [self]

/-- A node that has just been made has pointed nowhere. -/
theorem fresh (m : Membership) : Standing m [] [] (.fresh m) :=
  .of rfl rfl rfl rfl rfl .nil fun _ ha => absurd ha List.not_mem_nil

/-- A master that has been set or moved comes last. -/
theorem snoc (s : Standing m pointers events n) (own : n'.coordinator.membership = m) {a : String}
    (started : n'.coordinator.started = true) (pointer : n'.coordinator.master = some a)
    (counted : n'.service.failovers = .ofNat pointers.length)
    (left : ∀ f, pointers.getLast? = some f → m.isSelf f = false ∧ a ≠ f) :
    Standing m (pointers ++ [a]) (events ++ [m.announcement a]) n' := by
  refine .of own (by rw [started]; simp) (by rw [pointer, List.getLast?_concat])
    (by rw [s.announced, List.map_append]; rfl) (by rw [counted, List.length_append]; rfl) ?_ ?_
  · refine List.isChain_append.2 ⟨s.apart, .singleton a, fun f hf b hb => ?_⟩
    obtain rfl := Option.some.inj hb
    exact (left f hf).2.symm
  · rw [List.dropLast_concat]
    intro b hb
    rcases List.eq_nil_or_concat pointers with rfl | ⟨earlier, f, rfl⟩
    · exact absurd hb List.not_mem_nil
    · rw [List.concat_eq_append] at s left hb
      rcases List.mem_append.1 hb with hb | hb
      · exact s.others b (by rwa [List.dropLast_concat])
      · rw [List.mem_singleton.1 hb]
        exact (left f List.getLast?_concat).1

/-- One thing that happens to the pointer goes on with its history. -/
theorem shift (s : Standing m pointers events n) (own : n.coordinator.membership = m)
    (shift : n.Shift u es n') (own' : n'.coordinator.membership = m) :
    ∃ pointers, Standing m pointers (events ++ es) n' := by
  have somewhere : ∀ {f}, n.coordinator.master = some f → pointers ≠ [] := by
    rintro f pointed rfl
    exact nomatch pointed.symm.trans s.pointer
  cases shift with
  | still started pointer counted =>
    refine ⟨pointers, .of own' (started.trans s.started) (pointer.trans s.pointer) ?_
      (counted.trans s.counted) s.apart s.others⟩
    rw [List.append_nil]
    exact s.announced
  | @settled _ _ a seeks starting started pointer counted =>
    -- nothing has been pointed at yet
    obtain rfl : pointers = [] := by simpa [starting] using s.started
    rw [own]
    exact ⟨_, s.snoc own' started pointer (counted.trans s.counted) fun f hf => nomatch hf⟩
  | @moved _ _ f a leaves pointed other ne started pointer counted =>
    have long := List.length_pos_iff.2 (somewhere pointed)
    rw [own] at other ⊢
    refine ⟨_, s.snoc own' ?_ pointer ?_ fun f' hf' => ?_⟩
    · rw [started, s.started]
      simpa using somewhere pointed
    · rw [counted, s.counted, ← UInt64.ofNat_one, ← UInt64.ofNat_add, Nat.sub_add_cancel long]
    · obtain rfl := Option.some.inj (pointed.symm.trans (s.pointer.trans hf'))
      exact ⟨other, ne⟩

end Standing

/-! ## Lives -/

/-- To begin to start changes nothing in the node. -/
theorem member_start (n : Member) : n.start.member = n := by
  unfold Member.start
  cases n.coordinator.membership.peers <;> rfl

namespace Life

variable {begun : Bool} {turns : List Underway}

/-- In every life the pointer is set from the start on, and before that there are only checks. -/
theorem bound (life : Life unasked m begun turns events p) (listed : m.Listed) :
    p.pointerState.Bound m
    ∧ (begun = false →
        p.pointerState.coordinator = { membership := m }
          ∧ ∀ v ∈ p.pointerState.tasks, v.task = .check) := by
  induction life with
  | fresh =>
    have nothing : ∀ v ∈ ([] : List Underway), v.task = .check :=
      fun v hv => absurd hv List.not_mem_nil
    exact ⟨.of_checks [] nothing, fun _ => ⟨rfl, nothing⟩⟩
  | @start turns events p life ih =>
    obtain ⟨unbegun, checks⟩ := ih.2 rfl
    obtain ⟨e, pointerState, search⟩ := p.pointerState_start
    have fresh : p.member.coordinator = { membership := m } := unbegun
    rw [fresh] at pointerState search
    rw [pointerState]
    refine ⟨.of_start checks ?_, fun late => nomatch late⟩
    rcases search with ⟨peer, rest, eq, -⟩ | eq
    · exact .inl ⟨peer, rest, eq⟩
    · exact .inr eq
  | failover life allowed => exact allowed.elim
  | step life happens ih =>
    have step := happens.move.step
    exact ⟨ih.1.step listed step, fun early => step.unbegun (ih.2 early).1 (ih.2 early).2⟩

/-- In every life there is such a history. -/
theorem standing (life : Life unasked m begun turns events p) (listed : m.Listed) :
    ∃ pointers, Standing m pointers events p.member := by
  induction life with
  | fresh => exact ⟨[], .fresh m⟩
  | @start turns events p life ih =>
    rw [after_member, member_start]
    exact ih
  | failover life allowed => exact allowed.elim
  | step life happens ih =>
    obtain ⟨pointers, standing⟩ := ih
    have bound := (life.bound listed).1
    exact standing.shift bound.membership (happens.shift listed bound)
      (happens.move.step.membership.trans bound.membership)

end Life

/-- Nothing has come of a turn: the node is as it was, has announced nothing, and has nothing new
    under way. -/
def Fruitless (p : Process) (es : List ClusterEvent) (q : Process) : Prop :=
  q.member = p.member ∧ es = [] ∧ ∀ v ∈ q.underway, v ∈ p.underway

/-- A turn that leaves nothing is fruitless. -/
theorem fruitless_of_split {l r : List Underway} {v : Underway} (split : p.underway = l ++ v :: r) :
    p.Fruitless [] (after (l ++ r) { member := p.member }) := by
  refine ⟨rfl, rfl, fun w hw => ?_⟩
  rw [split]
  refine mem_of_mem_others ?_
  simpa [after] using hw

/-- A check before the end of the start comes to nothing. -/
theorem Happens.fruitless_of_early {v : Underway} (happens : p.Happens (some v) es q)
    (due : v.task = .check) (early : p.member.coordinator.started = false) :
    p.Fruitless es q := by
  cases happens with
  | hear now split calls =>
    cases due
    exact nomatch calls
  | run split turn =>
    cases due
    have nothing : p.member.check = { member := p.member } := by simp [Member.check, early]
    obtain rfl := Option.some.inj (turn.symm.trans (congrArg some nothing))
    exact fruitless_of_split split

/-- So does a failover whose master the pointer has left. -/
theorem Happens.fruitless_of_stale {v : Underway} {f : Option String}
    (happens : p.Happens (some v) es q) (waits : v.task = .awaitTurn f)
    (moved : p.member.coordinator.master ≠ f) : p.Fruitless es q := by
  cases happens with
  | hear now split calls =>
    cases waits
    exact nomatch calls
  | @run l r e progress split turn =>
    obtain rfl : e = .awaitTurn f := waits
    by_cases busy : p.member.coordinator.failingOver = true
    · simp [Member.run, busy] at turn
    · have stale : p.member.enter f = { member := p.member } := if_pos moved
      obtain rfl : p.member.enter f = progress := by simpa [Member.run, busy] using turn
      rw [stale]
      exact fruitless_of_split split

/-! ## The pointer in the life of a node -/

/-- A node that is one of its candidates, which are in normal form, starts once, and its master is
    checked at any times; its probes are answered in any way.  At every time:
    where it has pointed one master after another is all that it has announced and counted, it is
    initializing just as long as it has pointed nowhere, and from then on it points somewhere;
    whatever happens next leaves the pointer, announcing and counting nothing, or is the end of the
    start, or is a failover from the present pointer to a different one, announced and counted once;
    a master stays master;
    a check before the end of the start, and a failover whose master the pointer has left, come to
    nothing. -/
theorem pointer_of_life (normal : ∀ a ∈ m.candidates, normalizeAddress a = a)
    (listed : m.self ∈ m.candidates) {begun : Bool} {turns : List Underway}
    (life : Life unasked m begun turns events p) :
    (∃ pointers, Standing m pointers events p.member)
    ∧ (∀ {u es q}, p.Happens u es q →
        p.member.Shift u es q.member ∧ (p.member.isMaster = true → q.member.isMaster = true))
    ∧ (∀ {v es q}, p.Happens (some v) es q → v.task = .check →
        p.member.coordinator.started = false → p.Fruitless es q)
    ∧ ∀ {v f es q}, p.Happens (some v) es q → v.task = .awaitTurn f →
        p.member.coordinator.master ≠ f → p.Fruitless es q := by
  have known : m.Listed := ⟨normal, listed⟩
  have bound := (life.bound known).1
  refine ⟨life.standing known, fun happens => ?_, Happens.fruitless_of_early,
    Happens.fruitless_of_stale⟩
  have shift := happens.shift known bound
  exact ⟨shift, shift.isMaster happens.move.step.membership⟩

/-- The second of two nodes has become a slave of the first one when two checks at once find that
    one dead.  The first of them makes the node master, the second one comes to nothing. -/
theorem pointer_of_life_promoted :
    let told : List ClusterEvent := [.masterChanged "a", .becameMaster]
    ∃ turns p q, Life unasked ⟨"b", ["a", "b"], "a"⟩ true turns told p
      ∧ (∃ pointers, Standing ⟨"b", ["a", "b"], "a"⟩ pointers told p.member)
      ∧ p.member.coordinator.master = some "b"
      ∧ p.Happens (some { task := .awaitTurn (some "a") }) [] q ∧ p.Fruitless [] q := by
  intro told
  let n : Membership := ⟨"b", ["a", "b"], "a"⟩
  let slave : Member := { coordinator := { membership := n, master := some "a", started := true } }
  let elected : Member := slave.entered
  have other : n.isSelf "a" = false := by decide
  have own : n.isSelf "b" = true := by decide
  have order : n.failoverOrder "a" = ["b"] := by decide
  have settles : (Member.fresh n).hear 0 (.seekPeer "a" []) (some ⟨200, []⟩)
      = { member := slave, events := [.masterChanged "a"], begun := [.settle "a"] } :=
    (Member.Turn.eq_hear (.adopt rfl)).trans (Member.settleOn_of_other other)
  have checks : slave.run .check = some { member := slave, next := some (.probeMaster "a") } :=
    Member.Turn.eq_run (.probe rfl rfl other)
  have fails : slave.hear 0 (.probeMaster "a") none
      = { member := slave, next := some (.awaitTurn (some "a")) } :=
    Member.Turn.eq_hear (.failed rfl)
  have promotes : slave.run (.awaitTurn (some "a")) = some (elected.promote (some "a")) :=
    Member.Turn.eq_run (.elect rfl rfl order own)
  -- the node settles on the first one
  have settled := ((@Life.fresh unasked n).start.step
    (.answer (l := []) (r := []) (some ⟨200, []⟩) rfl rfl)).told (l := []) (r := []) rfl rfl settles
  -- both checks find it dead
  let rest : Underway := { task := .settle "a" }
  have probing := ((((settled.step .check).step .check).step
    (.run (l := [rest]) (r := [{ task := .check }]) rfl checks)).step
    (.run (l := [rest]) (r := [{ task := .probeMaster "a" }]) rfl checks))
  have dead := (probing.step
    (.answer (l := [rest]) (r := [{ task := .probeMaster "a" }]) none rfl rfl)).step
    (.answer (l := [rest, ⟨.probeMaster "a", some none⟩]) (r := []) none rfl rfl)
  have waiting := (dead.told
    (l := [rest]) (r := [⟨.probeMaster "a", some none⟩]) rfl rfl fails).told
    (l := [rest]) (r := [{ task := .awaitTurn (some "a") }]) rfl rfl fails
  have promoted := waiting.step
    (.run (l := [rest]) (r := [{ task := .awaitTurn (some "a") }]) rfl promotes)
  have stale : (elected.promote (some "a")).member.run (.awaitTurn (some "a"))
      = some { member := (elected.promote (some "a")).member } := by
    simp [Member.run, Member.enter, Member.promote, Member.point, Member.count, Member.release,
      Coordinator.self, elected, slave, n]
  let second : Underway := { task := .awaitTurn (some "a") }
  have late : Happens (after ([rest] ++ [second]) (elected.promote (some "a"))) _ _ _ :=
    .run (l := [rest]) (r := [{ task := .greet "a" }]) rfl stale
  have normal : ∀ a ∈ n.candidates, normalizeAddress a = a := by decide
  obtain ⟨standing, -, -, fruitless⟩ := pointer_of_life normal (by decide) promoted
  exact ⟨_, _, _, promoted, standing, rfl, late, fruitless late rfl (by decide)⟩

end Process

end ServiceRegistry
