/-
  Pushed changes of different ids may arrive in any order.

  The changes that a master pushes to a follower overtake one another.  A change concerns one id,
  though, and when the timestamps it carries are set the clock of the follower takes no part.

  1. **One change.**  What it leaves under its id, and how it is answered, is told by what the id
     found before (`Change.leaves`, `Change.answer`).  Other ids find what they found
     (`find?_apply`): a registration drives out nobody while no endpoint is used by two ids
     (`Apart`), and so it stays (`Apart.apply`).
  2. **A run, seen from one id.**  It is the run of the changes with that id alone (`takeAll_at`).
  3. So two runs in which each id meets the same changes in the same order come to the same
     (`takeAll_comm`).
-/
import ServiceRegistry.Proofs.Replication
import ServiceRegistry.Proofs.Store.Lookups

namespace ServiceRegistry

/-! ## One id -/

namespace Change

/-- The timestamps that are taken over from the change are set. -/
def Timed (c : Change) : Prop :=
  match c.kind with
  | .register => 0 < c.record.registered.secs ∧ 0 < c.record.heartbeat.secs
  | .unregister => True
  | .heartbeat => 0 < c.record.heartbeat.secs

/-- What is under the id after the change, when its timestamps are set. -/
def leaves (c : Change) (stored : Option Instance) : Option Instance :=
  match c.kind with
  | .register =>
    if c.record.id = "" then stored
    else some { c.record with
      registered := c.record.registered.completed, heartbeat := c.record.heartbeat.completed }
  | .unregister => none
  | .heartbeat => stored.map fun x =>
    { x with heartbeat := .of c.record.heartbeat.secs c.record.heartbeat.readable }

/-- How the change is answered. -/
def answer (c : Change) (stored : Option Instance) : Except RegistryError Unit :=
  match c.kind with
  | .register => if c.record.id = "" then .error (.required "serviceId") else .ok ()
  | .unregister | .heartbeat =>
    if stored.isSome then .ok () else .error (.unknownId c.record.id)

/-- Who is left under an id was there before or comes with a registration. -/
theorem claim_of_leaves {c : Change} {stored : Option Instance} {y : Instance}
    (left : c.leaves stored = some y) :
    (c.kind = .register ∧ y.claim = c.record.claim)
      ∨ ∃ old, stored = some old ∧ y.claim = old.claim := by
  obtain ⟨kind, x⟩ := c
  cases kind with
  | register =>
    by_cases empty : x.id = ""
    · have kept : stored = some y := by simpa only [leaves, if_pos empty] using left
      exact .inr ⟨y, kept, rfl⟩
    · simp only [leaves, if_neg empty] at left
      obtain rfl := Option.some.inj left
      exact .inl ⟨rfl, rfl⟩
  | unregister => cases left
  | heartbeat =>
    obtain ⟨old, there, rfl⟩ := Option.map_eq_some_iff.1 left
    exact .inr ⟨old, there, rfl⟩

/-- Changes of one id, one after another: each with its answer, and what is under the id in the
    end. -/
def play :
    List Change → Option Instance → List (Change × Except RegistryError Unit) × Option Instance
  | [], stored => ([], stored)
  | c :: cs, stored =>
    ((c, c.answer stored) :: (play cs (c.leaves stored)).1, (play cs (c.leaves stored)).2)

end Change

namespace Store

/-! ## One change -/

section Apply

variable {s : Store} {now : Int64}

namespace Coherent

/-- A change is answered by what its id finds. -/
theorem fst_apply (h : s.Coherent) (c : Change) :
    (s.apply now c).1 = c.answer (s.find? c.record.id) := by
  obtain ⟨kind, x⟩ := c
  cases kind with
  | register =>
    show (s.merge now x).1 = if x.id = "" then _ else _
    by_cases given : x.id = ""
    · rw [merge_empty given, if_pos given]
    · rw [merge_given given, if_neg given]
  | unregister =>
    rw [apply_unregister, h.fst_remove]
    rfl
  | heartbeat =>
    rw [apply_heartbeat]
    rfl

/-- A change whose timestamps are set tells what its id finds afterwards, and while nobody else has
    the endpoint of a registration, the other ids find what they found. -/
theorem find?_apply {c : Change} (h : s.Coherent) (timed : c.Timed)
    (alone : c.kind = .register → ∀ y ∈ s.all, y.endpoint = c.record.endpoint → y.id = c.record.id)
    (id : String) :
    (s.apply now c).2.find? id
      = if id = c.record.id then c.leaves (s.find? id) else s.find? id := by
  obtain ⟨kind, x⟩ := c
  cases kind with
  | register =>
    show (s.merge now x).2.find? id = if id = x.id then (if x.id = "" then _ else _) else _
    by_cases given : x.id = ""
    · rw [merge_empty given, if_pos given, ite_self]
    · rw [h.find?_merge given, if_neg given, takenOver_of_pos timed.1 timed.2]
      split
      · rfl
      · rename_i other
        cases found : s.find? id with
        | none => rfl
        | some y =>
          -- who has another id has another endpoint, so nobody is driven out
          obtain ⟨there, same⟩ := h.find?_eq_some_iff.1 found
          have away : y.endpoint ≠ x.endpoint :=
            fun at_ => other (same.symm.trans (alone rfl y there at_))
          rw [Option.filter_some, if_pos (decide_eq_true away)]
  | unregister =>
    rw [apply_unregister]
    exact h.find?_remove x.id id
  | heartbeat =>
    rw [apply_heartbeat]
    have set : 0 < x.heartbeat.secs := timed
    refine (h.find?_touch now x.id x.heartbeat.secs x.heartbeat.readable id).trans ?_
    rw [if_pos set]
    split
    · rename_i same
      rw [same]
      rfl
    · rfl

end Coherent

/-! ## Endpoints that stay apart -/

/-- An endpoint is used by an id: in the table, or in a pushed registration. -/
def Uses (s : Store) (cs : List Change) (e : Endpoint) (id : String) : Prop :=
  (∃ y ∈ s.all, y.endpoint = e ∧ y.id = id)
    ∨ ∃ c ∈ cs, c.kind = .register ∧ c.record.endpoint = e ∧ c.record.id = id

/-- No endpoint is used by two different ids.  Then no registration drives out the record of another
    id, and pushes of different ids may change places. -/
def Apart (s : Store) (cs : List Change) : Prop :=
  ∀ e id id', s.Uses cs e id → s.Uses cs e id' → id = id'

namespace Apart

variable {c : Change} {cs cs' : List Change} {t : Store}

theorem alone (apart : s.Apart (c :: cs)) :
    c.kind = .register → ∀ y ∈ s.all, y.endpoint = c.record.endpoint → y.id = c.record.id :=
  fun registers y hy at_ => apart _ _ _ (.inl ⟨y, hy, at_, rfl⟩)
    (.inr ⟨c, List.mem_cons_self, registers, rfl, rfl⟩)

theorem of_uses (apart : s.Apart cs) (before : ∀ e id, t.Uses cs' e id → s.Uses cs e id) :
    t.Apart cs' :=
  fun e id id' one other => apart e id id' (before e id one) (before e id' other)

theorem mono (apart : s.Apart cs) (subset : ∀ c ∈ cs', c ∈ cs) : s.Apart cs' := by
  refine apart.of_uses ?_
  rintro e id (there | ⟨c, hc, registers⟩)
  · exact .inl there
  · exact .inr ⟨c, subset c hc, registers⟩

/-- What a change leaves in the table uses no endpoint that was not used for the same id before. -/
theorem apply (apart : s.Apart (c :: cs)) (h : s.Coherent) (timed : c.Timed) (now : Int64) :
    (s.apply now c).2.Apart cs := by
  refine apart.of_uses ?_
  rintro e id (⟨y, hy, rfl, rfl⟩ | ⟨d, hd, registers, at_, same⟩)
  · have known {id : String} {z : Instance} (found : s.find? id = some z) : z ∈ s.all :=
      (h.find?_eq_some_iff.1 found).1
    have shared {z : Instance} (same : y.claim = z.claim) :
        z.endpoint = y.endpoint ∧ z.id = y.id :=
      ⟨congrArg (fun d : Claim => d.identity.endpoint) same.symm, congrArg Claim.id same.symm⟩
    have found := (h.apply now c).find?_of_mem hy
    rw [h.find?_apply timed apart.alone] at found
    split at found
    · rcases Change.claim_of_leaves found with ⟨registers, same⟩ | ⟨old, there, same⟩
      · exact .inr ⟨c, List.mem_cons_self, registers, shared same⟩
      · exact .inl ⟨old, known there, shared same⟩
    · exact .inl ⟨y, known found, rfl, rfl⟩
  · exact .inr ⟨d, List.mem_cons_of_mem c hd, registers, at_, same⟩

end Apart

end Apply

end Store

/-! ## A run, seen from one id -/

namespace Member

/-- Takes over pushed changes one after another, each at a clock reading, refused or not: each with
    its answer, and the node after them. -/
def takeAll : List (Int64 × Change) → Member → List (Change × Except RegistryError Unit) × Member
  | [], m => ([], m)
  | (now, c) :: pushes, m =>
    ((c, (m.handleSync now c).1) :: (takeAll pushes (m.handleSync now c).2).1,
      (takeAll pushes (m.handleSync now c).2).2)

variable {m : Member}

/-- From one id a run looks like the changes with this id alone, in their order. -/
theorem takeAll_at {pushes : List (Int64 × Change)} (follower : m.isMaster = false)
    (coherent : m.store.Coherent) (apart : m.store.Apart (pushes.map (·.2)))
    (timed : ∀ c ∈ pushes.map (·.2), c.Timed) (id : String) :
    ((m.takeAll pushes).1.filter (·.1.record.id = id), (m.takeAll pushes).2.store.find? id)
      = Change.play ((pushes.map (·.2)).filter (·.record.id = id)) (m.store.find? id) := by
  induction pushes generalizing m with
  | nil => rfl
  | cons p pushes ih =>
    obtain ⟨now, c⟩ := p
    obtain ⟨first, later⟩ := List.forall_mem_cons.1 timed
    let next := m.withStore (m.store.apply now c).2
    have step : m.handleSync now c = (c.answer (m.store.find? c.record.id), next) := by
      rw [handleSync_of_follower follower, coherent.fst_apply]
    have apart' : next.store.Apart (pushes.map (·.2)) := apart.apply coherent first now
    have rest := ih (m := next) follower (coherent.apply now c) apart' later
    have found : next.store.find? id
        = if id = c.record.id then c.leaves (m.store.find? id) else m.store.find? id :=
      coherent.find?_apply first apart.alone id
    by_cases here : c.record.id = id
    · rw [found, if_pos here.symm] at rest
      simp only [takeAll, step, List.map_cons, List.filter_cons, here, decide_true, if_true,
        Change.play, ← rest]
    · rw [found, if_neg (Ne.symm here)] at rest
      simp only [takeAll, step, List.map_cons, List.filter_cons, here, decide_false,
        Bool.false_eq_true, if_false, ← rest]

/-- Let a follower take over changes whose timestamps are set, with no endpoint used by two ids.  In
    any other order in which each id meets the same changes one after the other, and whatever the
    clock shows, each change gets the same answer and every id finds the same in the end. -/
theorem takeAll_comm (past : List (Int64 × Store.Operation)) (reached : m.store = Store.run past {})
    (follower : m.isMaster = false) {pushes pushes' : List (Int64 × Change)}
    (inOrder : ∀ id, (pushes.map (·.2)).filter (·.record.id = id)
      = (pushes'.map (·.2)).filter (·.record.id = id))
    (apart : m.store.Apart (pushes.map (·.2))) (timed : ∀ c ∈ pushes.map (·.2), c.Timed)
    (id : String) :
    (m.takeAll pushes).2.store.find? id = (m.takeAll pushes').2.store.find? id
      ∧ (m.takeAll pushes).1.filter (·.1.record.id = id)
        = (m.takeAll pushes').1.filter (·.1.record.id = id) := by
  have coherent : m.store.Coherent := reached ▸ Store.coherent_empty.run past
  have subset : ∀ c ∈ pushes'.map (·.2), c ∈ pushes.map (·.2) := by
    intro c hc
    have own : c ∈ (pushes'.map (·.2)).filter (·.record.id = c.record.id) :=
      List.mem_filter.2 ⟨hc, decide_eq_true rfl⟩
    rw [← inOrder] at own
    exact (List.mem_filter.1 own).1
  have apart' : m.store.Apart (pushes'.map (·.2)) := apart.mono subset
  have timed' : ∀ c ∈ pushes'.map (·.2), c.Timed := fun c hc => timed c (subset c hc)
  have run := takeAll_at follower coherent apart timed id
  have run' := takeAll_at follower coherent apart' timed' id
  rw [← inOrder id] at run'
  have same := run.trans run'.symm
  exact ⟨congrArg Prod.snd same, congrArg Prod.fst same⟩

/-- A record on a port of its own. -/
private def lodger (id : String) (port : UInt32) (beat : Int64) : Instance where
  id := id
  identity := ⟨"s", "h", port⟩
  registered := ⟨5, "five"⟩
  heartbeat := ⟨beat, "later"⟩

/-- A newcomer overtakes the removal of another record and a heartbeat that comes too late. -/
theorem takeAll_comm_of_newcomer :
    let follower : Member :=
      { coordinator := { membership := ⟨"b", ["a", "b"], "a"⟩, master := some "a", started := true }
        service := { store := Store.run [(9, .merge (lodger "i" 80 5))] {} } }
    let pushes := [(1, ⟨.unregister, lodger "i" 80 6⟩), (2, ⟨.heartbeat, lodger "i" 80 7⟩),
      (3, ⟨.register, lodger "j" 81 6⟩)]
    let pushes' := [(4, ⟨.register, lodger "j" 81 6⟩), (3, ⟨.unregister, lodger "i" 80 6⟩),
      (2, ⟨.heartbeat, lodger "i" 80 7⟩)]
    (follower.takeAll pushes).2.store.find? "i" = (follower.takeAll pushes').2.store.find? "i"
      ∧ (follower.takeAll pushes).1.filter (·.1.record.id = "i")
        = (follower.takeAll pushes').1.filter (·.1.record.id = "i") := by
  intro follower pushes pushes'
  have held : follower.store.all = [lodger "i" 80 5] := by decide
  have inOrder : ∀ id, (pushes.map (·.2)).filter (·.record.id = id)
      = (pushes'.map (·.2)).filter (·.record.id = id) := by
    intro id
    by_cases i : "i" = id
    · have j : "j" ≠ id := i ▸ by decide
      simp [pushes, pushes', lodger, i, j]
    · simp [pushes, pushes', lodger, List.filter_cons, i]
  -- the old record and the newcomer have an endpoint each
  have users : ∀ e id, follower.store.Uses (pushes.map (·.2)) e id →
      e = ⟨"h", 80⟩ ∧ id = "i" ∨ e = ⟨"h", 81⟩ ∧ id = "j" := by
    rintro e id (⟨y, hy, rfl, rfl⟩ | ⟨c, hc, registers, rfl, rfl⟩)
    · rw [held, List.mem_singleton] at hy
      exact .inl (hy ▸ ⟨rfl, rfl⟩)
    · simp only [pushes, List.map_cons, List.map_nil, List.mem_cons, List.not_mem_nil] at hc
      rcases hc with rfl | rfl | rfl | none
      · cases registers
      · cases registers
      · exact .inr ⟨rfl, rfl⟩
      · exact none.elim
  have apart : follower.store.Apart (pushes.map (·.2)) := by
    intro e id id' one other
    rcases users e id one with ⟨rfl, rfl⟩ | ⟨rfl, rfl⟩ <;>
      rcases users _ id' other with ⟨at_, rfl⟩ | ⟨at_, rfl⟩
    · rfl
    · exact absurd at_ (by decide)
    · exact absurd at_ (by decide)
    · rfl
  have timed : ∀ c ∈ pushes.map (·.2), c.Timed := by
    simp [pushes, lodger, Change.Timed]
  exact takeAll_comm [(9, .merge (lodger "i" 80 5))] rfl rfl inOrder apart timed "i"

end Member

end ServiceRegistry
