/-
  The order of the tasks that steer a node.

  A node is `Ordered` when each task that steers it finds the coordinator as it expects it
  (`Coordinator.Fits`), and at most one of them searches.  This asks nothing of the list of
  candidates or of the answers to calls, and holds after every step (`Ordered.step`):

    * before the start is over, only the start searches;
    * a failover goes on only while the pointer is where the failover began, at another node.

  So nothing that is under way at a master can move its pointer.
-/
import ServiceRegistry.Proofs.Cluster.Process

namespace ServiceRegistry

/-! ## Roles -/

/-- A node is master that has started and points at itself; -/
theorem Coordinator.isMaster_iff {c : Coordinator} :
    c.isMaster = true
      ↔ c.started = true ∧ ∃ t, c.master = some t ∧ c.membership.isSelf t = true := by
  unfold isMaster role
  cases c.started
  · simp
  · cases c.master with
    | none => simp
    | some t => cases own : c.membership.isSelf t <;> simp [own]

/-- it is a slave that has started and does not. -/
theorem Coordinator.role_eq_slave_iff {c : Coordinator} :
    c.role = .slave
      ↔ c.started = true ∧ ∀ t, c.master = some t → c.membership.isSelf t = false := by
  unfold role
  cases c.started
  · simp
  · cases c.master with
    | none => simp
    | some t => cases own : c.membership.isSelf t <;> simp [own]

/-! ## Tasks that fit -/

/-- Whether a task is a search of the start or of a failover. -/
def Task.searches : Task → Bool
  | .seekPeer _ _ | .seekSelf _ | .scan _ _ _ => true
  | _ => false

/-- A task finds the coordinator as it expects it. -/
def Coordinator.Fits (c : Coordinator) : Task → Prop
  | .seekPeer _ _ | .seekSelf _ => c.started = false
  | .probeMaster master => c.started = true ∧ c.membership.isSelf master = false
  | .awaitTurn failed =>
    c.started = true ∧ ∀ master, failed = some master → c.membership.isSelf master = false
  | .scan failed _ _ =>
    c.started = true ∧ c.failingOver = true ∧ c.master = failed
      ∧ ∀ master, failed = some master → c.membership.isSelf master = false
  | _ => True

/-- A task that does not search finds any later coordinator of the same node as it expects it. -/
theorem Coordinator.Fits.mono {c c' : Coordinator} {e : Task} (fits : c.Fits e)
    (quiet : e.searches = false) (same : c'.membership = c.membership)
    (started : c.started = true → c'.started = true) : c'.Fits e := by
  cases e with
  | probeMaster => exact ⟨started fits.1, same ▸ fits.2⟩
  | awaitTurn => exact ⟨started fits.1, same ▸ fits.2⟩
  | check | greet | settle | pull | pullCursors | push => trivial
  | seekPeer | seekSelf | scan => exact nomatch quiet

namespace PointerState

/-! ## What turns leave as it is -/

/-- No turn changes who the node and its candidates are, -/
theorem Turn.membership {c c' : Coordinator} {u : Underway} {next : Option Task}
    (turn : Turn c u c' next) : c'.membership = c.membership := by
  cases turn <;> rfl

/-- and none takes a start back. -/
theorem Turn.started {c c' : Coordinator} {u : Underway} {next : Option Task}
    (turn : Turn c u c' next) (h : c.started = true) : c'.started = true := by
  cases turn with
  | adopt | begin => rfl
  | _ => exact h

/-- Nor does any step. -/
theorem Step.membership {answers : PeerCall → Option Relayed → Prop} {h h' : PointerState}
    (step : Step answers h h') : h'.coordinator.membership = h.coordinator.membership := by
  cases step with
  | checks | answer => rfl
  | turn split turn => exact turn.membership

/-- A start that is over remains so. -/
theorem Step.started {answers : PeerCall → Option Relayed → Prop} {h h' : PointerState}
    (step : Step answers h h') (started : h.coordinator.started = true) :
    h'.coordinator.started = true := by
  cases step with
  | checks | answer => exact started
  | turn split turn => exact turn.started started

/-! ## Order -/

/-- The tasks around a pointer find its coordinator as they expect it, and at most one searches.
    Since only one does, a turn that changes the coordinator leaves the others what they expect
    (`fits_next`). -/
structure Ordered (h : PointerState) : Prop where
  fits : ∀ u ∈ h.tasks, h.coordinator.Fits u.task
  alone : h.tasks.countP (·.task.searches) ≤ 1

/-- A node that begins to start asks a peer, or itself. -/
theorem pointerState_launch (m : Membership) :
    ∃ e, (Process.launch m).pointerState = ⟨{ membership := m }, [{ task := e }]⟩
      ∧ ((∃ peer rest, e = .seekPeer peer rest ∧ m.peers = peer :: rest)
        ∨ (e = .seekSelf m.self ∧ m.peers = [])) := by
  unfold Process.launch Member.start
  cases order : m.peers with
  | nil => exact ⟨.seekSelf m.self, rfl, .inr ⟨rfl, rfl⟩⟩
  | cons peer rest => exact ⟨.seekPeer peer rest, rfl, .inl ⟨peer, rest, rfl, rfl⟩⟩

namespace Ordered

variable {h h' : PointerState} {l r : List Underway} {u : Underway} {c : Coordinator}
  {next : Option Task}

/-- A node that begins to start is in order. -/
theorem launch (m : Membership) : (Process.launch m).pointerState.Ordered := by
  obtain ⟨e, pointerState, asks⟩ := pointerState_launch m
  rw [pointerState]
  refine ⟨fun u hu => ?_, List.countP_le_length⟩
  rw [List.mem_singleton.1 hu]
  rcases asks with ⟨peer, rest, rfl, -⟩ | ⟨rfl, -⟩ <;> rfl

/-- The task that has its turn, and the others. -/
theorem fits_of_split (o : h.Ordered) (split : h.tasks = l ++ u :: r) :
    h.coordinator.Fits u.task ∧ ∀ v ∈ l ++ r, h.coordinator.Fits v.task := by
  have fits := o.fits
  rw [split] at fits
  exact ⟨fits u (by simp), fun v hv => fits v (mem_of_mem_others hv)⟩

/-- If the task that has its turn searches, no other one does. -/
theorem count_others (o : h.Ordered) (split : h.tasks = l ++ u :: r) :
    (l ++ r).countP (·.task.searches) + (if u.task.searches then 1 else 0) ≤ 1 := by
  have alone := o.alone
  rw [split, List.countP_append, List.countP_cons] at alone
  rw [List.countP_append]
  omega

/-- Only while nothing else searches does a turn change the coordinator or begin a search. -/
theorem others_quiet (o : h.Ordered) (split : h.tasks = l ++ u :: r)
    (turn : Turn h.coordinator u c next) :
    (c = h.coordinator ∧ ∀ e ∈ next.toList, e.searches = false)
    ∨ ∀ v ∈ l ++ r, v.task.searches = false := by
  have alone : u.task.searches = true → ∀ v ∈ l ++ r, v.task.searches = false := by
    intro searches
    have count := o.count_others split
    rw [if_pos searches] at count
    have none_left : (l ++ r).countP (·.task.searches) = 0 := by omega
    simpa using List.countP_eq_zero.1 none_left
  obtain ⟨fits, others⟩ := o.fits_of_split split
  -- a failover that has its turn finds neither a start nor another failover
  have free_of : h.coordinator.started = true → h.coordinator.failingOver = false →
      ∀ v ∈ l ++ r, v.task.searches = false := by
    intro started free v hv
    have expects := others v hv
    cases search : v.task with
    | seekPeer | seekSelf =>
      rw [search] at expects
      exact absurd (Eq.symm expects |>.trans started) Bool.false_ne_true
    | scan =>
      rw [search] at expects
      exact absurd (free.symm.trans expects.2.1) Bool.false_ne_true
    | _ => rfl
  cases turn with
  | adopt | seekNext | seekSelf | begin | follow | promote | scanNext | giveUp =>
    exact .inr (alone rfl)
  | early | master | fine | stale => exact .inl ⟨rfl, by simp⟩
  | probe | lost | failed => exact .inl ⟨rfl, by simp [Task.searches]⟩
  | elect free => exact .inr (free_of fits.1 free)
  | enter free => exact .inr (free_of fits.1 free)
  | nobody free => exact .inr (free_of fits.1 free)

/-- What goes on finds the coordinator as it expects it. -/
theorem fits_next (fits : h.coordinator.Fits u.task) (turn : Turn h.coordinator u c next) :
    ∀ e ∈ next.toList, c.Fits e := by
  intro e he
  obtain rfl := Option.mem_toList.1 he
  cases turn with
  | seekNext | seekSelf => exact fits
  | probe started points other => exact ⟨started, other⟩
  | lost started nowhere => exact ⟨started, nofun⟩
  | failed =>
    refine ⟨fits.1, ?_⟩
    rintro _ ⟨⟩
    exact fits.2
  | enter free same order ahead => exact ⟨fits.1, rfl, same, fits.2⟩
  | scanNext => exact fits

/-- Whatever calls are answered, the order stays. -/
theorem step {answers : PeerCall → Option Relayed → Prop} (o : h.Ordered)
    (step : Step answers h h') : h'.Ordered := by
  cases step with
  | checks n =>
    refine ⟨fun u hu => ?_, ?_⟩
    · rcases List.mem_append.1 hu with hu | hu
      · exact o.fits u hu
      · rw [List.eq_of_mem_replicate hu]
        trivial
    · have no_search : (List.replicate n ({ task := .check } : Underway)).countP
          (·.task.searches) = 0 :=
        List.countP_eq_zero.2 fun u hu => by rw [List.eq_of_mem_replicate hu]; decide
      rw [List.countP_append, no_search]
      exact o.alone
  | @answer l r e a reply split probes given =>
    obtain ⟨fits, others⟩ := o.fits_of_split split
    refine ⟨fun u hu => ?_, ?_⟩
    · rcases mem_split.1 hu with rfl | hu
      · exact fits
      · exact others u hu
    · have alone := o.alone
      rw [split] at alone
      simpa [List.countP_append, List.countP_cons] using alone
  | @turn l u r c next split turn =>
    obtain ⟨fits, others⟩ := o.fits_of_split split
    have count := o.count_others split
    have quiet := o.others_quiet split turn
    refine ⟨fun v hv => ?_, ?_⟩
    · -- the others fit as before: the coordinator is the same, or none of them searches
      rcases List.mem_append.1 hv with old | new
      · rcases quiet with ⟨rfl, -⟩ | quiet
        · exact others v old
        · exact (others v old).mono (quiet v old) turn.membership turn.started
      · obtain ⟨e, he, rfl⟩ := List.mem_map.1 new
        exact fits_next fits turn e he
    · show (l ++ r ++ _).countP _ ≤ 1
      rw [List.countP_append]
      -- what goes on does not search, or it alone does
      rcases quiet with ⟨-, no_search⟩ | quiet
      · have none_next : (next.toList.map fun e => ({ task := e } : Underway)).countP
            (·.task.searches) = 0 := by
          rw [List.countP_map]
          exact List.countP_eq_zero.2 fun e he => by simpa using no_search e he
        omega
      · have none_left : (l ++ r).countP (·.task.searches) = 0 :=
          List.countP_eq_zero.2 fun v hv => by simpa using quiet v hv
        have one_next : (next.toList.map fun e => ({ task := e } : Underway)).countP
            (·.task.searches) ≤ 1 := by
          refine Nat.le_trans List.countP_le_length ?_
          cases next <;> simp
        omega

end Ordered

end PointerState

/-! ## What is under way at a master -/

/-- What fits the coordinator of a master and steers it, is a check, a probe that a check has made,
    or a failover that comes too late. -/
theorem Coordinator.Fits.of_isMaster {c : Coordinator} {e : Task} (fits : c.Fits e)
    (master : c.isMaster = true) (steers : e.steers = true) :
    e = .check ∨ (∃ t, e = .probeMaster t)
      ∨ ∃ failed, e = .awaitTurn failed ∧ c.master ≠ failed := by
  obtain ⟨started, t, points, own⟩ := Coordinator.isMaster_iff.1 master
  cases e with
  | check => exact .inl rfl
  | probeMaster t => exact .inr (.inl ⟨t, rfl⟩)
  | awaitTurn failed =>
    refine .inr (.inr ⟨failed, rfl, fun same => ?_⟩)
    exact Bool.false_ne_true ((fits.2 t (same.symm.trans points)).symm.trans own)
  | seekPeer | seekSelf => exact absurd (Eq.symm fits |>.trans started) Bool.false_ne_true
  | scan failed =>
    obtain ⟨-, -, there, others⟩ := fits
    exact absurd ((others t (there.symm.trans points)).symm.trans own) Bool.false_ne_true
  | greet | settle | pull | pullCursors | push => exact nomatch steers

end ServiceRegistry
