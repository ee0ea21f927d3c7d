/-
  The order around a pointer.

  A node is `Orderly` when each task that steers it fits the coordinator it finds (`FitsListed`),
  and at most one of them searches.  This holds whatever its calls are answered (`Orderly.step`):

    * before the start is over, only the start searches, and checks do nothing;
    * afterwards the node points at some master, never at nothing;
    * a failover goes on only while the pointer is where the failover began, and it comes to the
      node itself before it comes to an end.
-/
import ServiceRegistry.Proofs.Cluster.TaskOrder
import ServiceRegistry.Proofs.Cluster.Ring

namespace ServiceRegistry

/-- A list of candidates that is fit for a cluster: distinct, in normal form, the node among
    them. -/
structure Membership.Proper (m : Membership) : Prop where
  distinct : m.candidates.Nodup
  normal : ∀ a ∈ m.candidates, normalizeAddress a = a
  listed : m.self ∈ m.candidates

namespace Membership.Proper

variable {m : Membership} (h : m.Proper)
include h

/-- Of the candidates, only its own address is the node itself; -/
theorem isSelf_iff {a : String} (ha : a ∈ m.candidates) : m.isSelf a = true ↔ a = m.self := by
  rw [isSelf, h.normal a ha, decide_eq_true_eq]

/-- and that is. -/
theorem isSelf_self : m.isSelf m.self = true := (h.isSelf_iff h.listed).2 rfl

end Membership.Proper

/-! ## Tasks that fit -/

/-- A task fits its coordinator. -/
def Coordinator.FitsListed (c : Coordinator) : Task → Prop
  | .seekPeer peer rest =>
    c.started = false ∧ ∃ asked, c.membership.peers = asked ++ peer :: rest
  | .seekSelf self => c.started = false ∧ self = c.self
  | .probeMaster master => c.started = true ∧ c.membership.isSelf master = false
  | .awaitTurn failed =>
    c.started = true ∧ ∃ master, failed = some master ∧ c.membership.isSelf master = false
  | .scan failed candidate rest =>
    c.started = true ∧ c.failingOver = true ∧ c.membership.isSelf candidate = false ∧
      ∃ master, failed = some master ∧ c.master = some master ∧ c.membership.isSelf master = false
        ∧ c.membership.CameTo (fun a => c.membership.isSelf a = false) master (candidate :: rest)
  | _ => True

/-- A task that does not search fits any later coordinator of the same node. -/
theorem Coordinator.FitsListed.mono {c c' : Coordinator} {e : Task} (fits : c.FitsListed e)
    (quiet : e.searches = false) (same : c'.membership = c.membership)
    (started : c.started = true → c'.started = true) : c'.FitsListed e := by
  cases e with
  | probeMaster => exact ⟨started fits.1, same ▸ fits.2⟩
  | awaitTurn => exact ⟨started fits.1, same ▸ fits.2⟩
  | check | greet | settle | pull | pullCursors | push => trivial
  | seekPeer | seekSelf | scan => exact nomatch quiet

/-- Such a task finds the coordinator as it expects it, whatever the list. -/
theorem Coordinator.FitsListed.fits {c : Coordinator} {e : Task} (fits : c.FitsListed e) :
    c.Fits e := by
  cases e with
  | seekPeer | seekSelf => exact fits.1
  | probeMaster => exact fits
  | awaitTurn =>
    obtain ⟨started, t, rfl, other⟩ := fits
    refine ⟨started, ?_⟩
    rintro _ ⟨⟩
    exact other
  | scan =>
    obtain ⟨started, busy, -, t, rfl, points, other, -⟩ := fits
    refine ⟨started, busy, points, ?_⟩
    rintro _ ⟨⟩
    exact other
  | check | greet | settle | pull | pullCursors | push => trivial

/-- A failover from another one never runs out of candidates: the node itself is one of them. -/
theorem Membership.Proper.not_cameTo_nil {m : Membership} {failed : String} (proper : m.Proper)
    (other : m.isSelf failed = false) : ¬ m.CameTo (fun a => m.isSelf a = false) failed [] := by
  rintro ⟨passed, whole, others⟩
  have here := m.self_mem_failoverOrder proper.listed other
  rw [whole, List.append_nil] at here
  exact Bool.false_ne_true ((others _ here).symm.trans proper.isSelf_self)

namespace PointerState

/-! ## Order -/

/-- The tasks around a pointer fit its coordinator and are not in each other's way.  In a proper
    list of candidates the node also always has a pointer, since a search comes to the node itself
    before it runs out. -/
structure Orderly (h : PointerState) : Prop where
  proper : h.coordinator.membership.Proper
  /-- A node that has started points at a master. -/
  pointed : h.coordinator.started = true → ∃ t, h.coordinator.master = some t
  fits : ∀ u ∈ h.tasks, h.coordinator.FitsListed u.task
  /-- At most one task searches. -/
  alone : h.tasks.countP (·.task.searches) ≤ 1

namespace Orderly

variable {h h' : PointerState} {l r : List Underway} {u : Underway} {c : Coordinator}
  {next : Option Task}

/-- A node that begins to start is in order. -/
theorem launch {m : Membership} (proper : m.Proper) : (Process.launch m).pointerState.Orderly := by
  obtain ⟨e, pointerState, asks⟩ := pointerState_launch m
  rw [pointerState]
  refine ⟨proper, nofun, fun u hu => ?_, List.countP_le_length⟩
  rw [List.mem_singleton.1 hu]
  rcases asks with ⟨peer, rest, rfl, order⟩ | ⟨rfl, -⟩
  · exact ⟨rfl, [], order⟩
  · exact ⟨rfl, rfl⟩

/-- Its tasks are in order in the weaker sense, which asks nothing of the list. -/
theorem ordered (o : h.Orderly) : h.Ordered := ⟨fun u hu => (o.fits u hu).fits, o.alone⟩

/-- The task that has its turn, and the others. -/
theorem fits_of_split (o : h.Orderly) (split : h.tasks = l ++ u :: r) :
    h.coordinator.FitsListed u.task ∧ ∀ v ∈ l ++ r, h.coordinator.FitsListed v.task := by
  have fits := o.fits
  rw [split] at fits
  exact ⟨fits u (by simp), fun v hv => fits v (mem_of_mem_others hv)⟩

/-- What goes on fits again. -/
theorem fits_next (o : h.Orderly) (fits : h.coordinator.FitsListed u.task)
    (turn : Turn h.coordinator u c next) : ∀ e ∈ next.toList, c.FitsListed e := by
  intro e he
  obtain rfl := Option.mem_toList.1 he
  cases turn with
  | seekNext =>
    -- the peer that did not answer is now one of those that were asked
    obtain ⟨starting, asked, order⟩ := fits
    exact ⟨starting, asked ++ [_], by rw [order, List.append_assoc]; rfl⟩
  | seekSelf => exact ⟨fits.1, rfl⟩
  | probe started points other => exact ⟨started, other⟩
  | lost started nowhere =>
    -- after the start the pointer is never at nothing
    obtain ⟨t, points⟩ := o.pointed started
    exact nomatch nowhere.symm.trans points
  | failed => exact ⟨fits.1, _, rfl, fits.2⟩
  | enter free same order ahead =>
    obtain ⟨started, t, rfl, other⟩ := fits
    exact ⟨started, rfl, ahead, t, rfl, same, other, .first order⟩
  | scanNext down ahead =>
    obtain ⟨started, busy, behind, t, rfl, points, other, came⟩ := fits
    exact ⟨started, busy, ahead, t, rfl, points, other, came.next behind⟩

/-- A turn leaves the pointer at some master: no failover runs out of candidates. -/
theorem pointed_turn (o : h.Orderly) (fits : h.coordinator.FitsListed u.task)
    (turn : Turn h.coordinator u c next) (started : c.started = true) :
    ∃ t, c.master = some t := by
  cases turn with
  | adopt | begin | elect | follow | promote => exact ⟨_, rfl⟩
  | nobody free same order =>
    obtain ⟨-, t, rfl, other⟩ := fits
    exact absurd (.first order) (o.proper.not_cameTo_nil other)
  | giveUp =>
    obtain ⟨-, -, behind, t, -, -, other, came⟩ := fits
    exact absurd (came.next behind) (o.proper.not_cameTo_nil other)
  | _ => exact o.pointed started

/-- Whatever calls are answered, the order stays. -/
theorem step {answers : PeerCall → Option Relayed → Prop} (o : h.Orderly)
    (step : Step answers h h') : h'.Orderly := by
  have alone := (o.ordered.step step).alone
  cases step with
  | checks n =>
    refine ⟨o.proper, o.pointed, fun u hu => ?_, alone⟩
    rcases List.mem_append.1 hu with hu | hu
    · exact o.fits u hu
    · rw [List.eq_of_mem_replicate hu]
      trivial
  | @answer l r e a reply split probes given =>
    obtain ⟨fits, others⟩ := o.fits_of_split split
    refine ⟨o.proper, o.pointed, fun u hu => ?_, alone⟩
    rcases mem_split.1 hu with rfl | hu
    · exact fits
    · exact others u hu
  | @turn l u r c next split turn =>
    obtain ⟨fits, others⟩ := o.fits_of_split split
    refine ⟨?_, o.pointed_turn fits turn, fun v hv => ?_, alone⟩
    · show c.membership.Proper
      rw [turn.membership]
      exact o.proper
    · -- the others fit as before: the coordinator is the same, or none of them searches
      rcases List.mem_append.1 hv with old | new
      · rcases o.ordered.others_quiet split turn with ⟨rfl, -⟩ | quiet
        · exact others v old
        · exact (others v old).mono (quiet v old) turn.membership turn.started
      · obtain ⟨e, he, rfl⟩ := List.mem_map.1 new
        exact o.fits_next fits turn e he

end Orderly

/-! ## A node in its place -/

/-- The node at `a` is in order, in a ring of candidates. -/
structure Seated (ring : List String) (a : String) (h : PointerState) : Prop where
  orderly : h.Orderly
  self : h.coordinator.self = a
  candidates : h.coordinator.membership.candidates = ring

namespace Seated

variable {ring : List String} {a b : String} {h h' : PointerState}

/-- The node is one of the ring. -/
theorem listed (s : Seated ring a h) : a ∈ ring := by
  rw [← s.candidates, ← s.self]
  exact s.orderly.proper.listed

/-- Of the ring, only the node itself is taken for it. -/
theorem isSelf_iff (s : Seated ring a h) (hb : b ∈ ring) :
    h.coordinator.membership.isSelf b = true ↔ b = a := by
  rw [← s.candidates] at hb
  rw [← s.self]
  exact s.orderly.proper.isSelf_iff hb

/-- It knows its own address. -/
theorem isSelf_self (s : Seated ring a h) : h.coordinator.membership.isSelf a = true :=
  (s.isSelf_iff s.listed).2 rfl

/-- Whom a node takes for another one is another one. -/
theorem ne_of_isSelf (s : Seated ring a h)
    (other : h.coordinator.membership.isSelf b = false) : b ≠ a := by
  rintro rfl
  exact Bool.false_ne_true (other.symm.trans s.isSelf_self)

/-- A step keeps it in its place. -/
theorem step {answers : PeerCall → Option Relayed → Prop} (s : Seated ring a h)
    (step : Step answers h h') : Seated ring a h' := by
  refine ⟨s.orderly.step step, ?_, ?_⟩
  · show h'.coordinator.membership.self = a
    rw [step.membership]
    exact s.self
  · rw [step.membership]
    exact s.candidates

/-- It is in its place from the start on. -/
theorem launch {m : Membership} (proper : m.Proper) :
    Seated m.candidates m.self (Process.launch m).pointerState := by
  obtain ⟨e, pointerState, -⟩ := pointerState_launch m
  have orderly := Orderly.launch proper
  rw [pointerState] at orderly ⊢
  exact ⟨orderly, rfl, rfl⟩

end Seated

end PointerState

end ServiceRegistry
