/-
  Timestamps in a table.

  A timestamp is complete when it is set and has its readable form: what a follower takes over
  unchanged.  While the clock is positive all timestamps in a table are complete (`Stamped.run`),
  whatever timestamps the records carry that it is given.

    * `Stamp.complete_of`, `complete_completed`   complete timestamps, by how they are made;
    * `takenOver_of_pos`                          a record whose timestamps are set keeps them,
    * `takenOver_of_stamped`                      and as they are when they are complete.
-/
import ServiceRegistry.Proofs.Store.Lasting

namespace ServiceRegistry

/-! ## Complete timestamps -/

namespace Stamp

/-- A timestamp that is set and has its readable form, as far as there is one. -/
def Complete (t : Stamp) : Prop := 0 < t.secs ∧ t.completed = t

/-- A readable form that was derived or given is not derived again. -/
theorem completed_of (secs : Int64) (readable : String) :
    (of secs readable).completed = of secs readable := by
  unfold completed
  rw [secs_of]
  split
  · unfold of
    by_cases given : readable.isEmpty
    · rw [if_pos given]
      unfold ofSecs
      split <;> rfl
    · rw [if_neg given, if_neg given]
  · rfl

/-- Completing a timestamp is done once. -/
theorem completed_completed (t : Stamp) : t.completed.completed = t.completed := by
  by_cases pos : 0 < t.secs
  · have derived : t.completed = of t.secs t.readable := if_pos pos
    rw [derived, completed_of]
  · have kept : t.completed = t := if_neg pos
    rw [kept, kept]

/-- A positive time makes a complete timestamp, whatever its text. -/
theorem complete_of {secs : Int64} (pos : 0 < secs) (readable : String) :
    (of secs readable).Complete :=
  ⟨(secs_of secs readable).symm ▸ pos, completed_of secs readable⟩

theorem complete_ofSecs {secs : Int64} (pos : 0 < secs) : (ofSecs secs).Complete :=
  complete_of pos ""

theorem complete_completed {t : Stamp} (pos : 0 < t.secs) : t.completed.Complete :=
  ⟨(secs_completed t).symm ▸ pos, completed_completed t⟩

/-- A positive time is preferred to any other. -/
theorem orElse_of_pos {t : Stamp} (pos : 0 < t.secs) (fallback : Stamp) :
    t.orElse fallback = t := if_neg (Int64.not_le.2 pos)

/-- With a positive time to fall back on, the result is positive. -/
theorem secs_orElse_pos {t fallback : Stamp} (h : 0 < fallback.secs) :
    0 < (t.orElse fallback).secs := by
  unfold Stamp.orElse
  split
  · exact h
  · rename_i pos
    exact Int64.not_le.1 pos

end Stamp

/-- A record with complete timestamps. -/
def Instance.Stamped (x : Instance) : Prop := x.registered.Complete ∧ x.heartbeat.Complete

/-- The later of two times is not before the first. -/
theorem le_later (a b : Int64) : a ≤ later a b := by
  unfold later
  split
  · assumption
  · exact Int64.le_refl _

/-- A refresh never moves a heartbeat back. -/
theorem le_refreshedAt (now supplied stored : Int64) :
    stored ≤ refreshedAt now supplied stored := le_later ..

/-- A refresh never goes back, so that a stamped record stays stamped. -/
theorem Instance.Stamped.complete_refreshedAt {x : Instance} (h : x.Stamped)
    (now supplied : Int64) :
    (Stamp.ofSecs (refreshedAt now supplied x.heartbeat.secs)).Complete :=
  Stamp.complete_ofSecs (Int64.lt_of_lt_of_le h.2.1 (le_refreshedAt ..))

namespace Store

/-- A record whose timestamps are set keeps them, whatever is stored and the clock shows. -/
theorem takenOver_of_pos {x : Instance} (registered : 0 < x.registered.secs)
    (heartbeat : 0 < x.heartbeat.secs) (now : Int64) (old : Option Instance) :
    takenOver now old x
      = { x with registered := x.registered.completed, heartbeat := x.heartbeat.completed } := by
  unfold takenOver
  cases old <;> simp only [Stamp.orElse_of_pos registered, Stamp.orElse_of_pos heartbeat]

/-- A stamped record is taken over as it is. -/
theorem takenOver_of_stamped {x : Instance} (h : x.Stamped) (now : Int64)
    (old : Option Instance) : takenOver now old x = x := by
  obtain ⟨⟨registered, since⟩, ⟨heartbeat, last⟩⟩ := h
  rw [takenOver_of_pos registered heartbeat, since, last]

/-! ## The timestamps of a table -/

/-- All timestamps of a table are complete. -/
def Stamped (s : Store) : Prop := ∀ x ∈ s.all, x.Stamped

/-- Under a positive clock what is taken over is stamped, wherever its two times come from. -/
theorem stamped_takenOver {now : Int64} (pos : 0 < now) {old : Option Instance}
    (h : ∀ x, old = some x → x.Stamped) (x : Instance) : (takenOver now old x).Stamped := by
  unfold takenOver
  cases old with
  | none =>
    exact ⟨Stamp.complete_completed (Stamp.secs_orElse_pos pos),
      Stamp.complete_completed (Stamp.secs_orElse_pos pos)⟩
  | some old =>
    obtain ⟨registered, heartbeat⟩ := h old rfl
    exact ⟨Stamp.complete_completed (Stamp.secs_orElse_pos registered.1),
      Stamp.complete_completed (Stamp.secs_orElse_pos heartbeat.1)⟩

/-- While the clock is positive, whatever is written carries its timestamps. -/
theorem keeps_stamped {now : Int64} (pos : 0 < now) (o : Operation) :
    Keeps now Instance.Stamped o := by
  have beaten : (Stamp.ofSecs now).Complete := Stamp.complete_ofSecs pos
  cases o with
  | register x =>
    exact ⟨fun _ => ⟨beaten, beaten⟩, fun y hy => ⟨hy.1, hy.complete_refreshedAt now _⟩⟩
  | heartbeat c => exact fun y hy => ⟨hy.1, beaten⟩
  | merge x => exact fun old stored => stamped_takenOver pos stored x
  | touch id secs readable =>
    intro y hy
    refine ⟨hy.1, ?_⟩
    show Stamp.Complete (if 0 < secs then _ else _)
    split
    · rename_i given
      exact Stamp.complete_of given readable
    · exact beaten
  | unregister | remove | removeIfExpired | discover | adopt => trivial

namespace Stamped

variable {s : Store}

/-- The changes keep a stamped table stamped when what they bring is stamped. -/
theorem insert (h : s.Stamped) {x : Instance} (hx : x.Stamped) : (s.insert x).Stamped := by
  intro y hy
  rcases mem_all_insert.1 hy with old | rfl
  · exact h y old
  · exact hx

theorem remove (h : s.Stamped) (c : s.Coherent) (id : String) : (s.remove id).2.Stamped :=
  c.forall_mem_remove h id

theorem find? (h : s.Stamped) (c : s.Coherent) {id : String} {x : Instance}
    (found : s.find? id = some x) : x.Stamped := h x (c.find?_eq_some_iff.1 found).1

theorem beat (h : s.Stamped) (c : s.Coherent) {id : String} {x : Instance}
    (found : s.find? id = some x) {t : Stamp} (ht : t.Complete) : (s.beat x t).Stamped :=
  c.forall_mem_beat h found ⟨(h.find? c found).1, ht⟩

/-- A refresh leaves a complete heartbeat, since the one before it was set. -/
theorem complete_refreshedAt (h : s.Stamped) (c : s.Coherent) {id : String} {x : Instance}
    (found : s.find? id = some x) (now supplied : Int64) :
    (Stamp.ofSecs (refreshedAt now supplied x.heartbeat.secs)).Complete :=
  (h.find? c found).complete_refreshedAt now supplied

/-- At positive clocks every operation keeps a table stamped. -/
theorem run (h : s.Stamped) (c : s.Coherent) {ops : List (Int64 × Operation)}
    (pos : ∀ o ∈ ops, 0 < o.1) : (s.run ops).Stamped :=
  c.forall_mem_run h fun o ho => keeps_stamped (pos o ho) o.2

end Stamped

/-- There is nothing to be said of the empty table. -/
theorem stamped_empty : Stamped {} := fun _ hx => absurd hx List.not_mem_nil

end Store

end ServiceRegistry
