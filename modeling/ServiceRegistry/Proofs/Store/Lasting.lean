/-
  What holds of every record of a table, and lasts.

  An operation writes at most one record: a new one, one taken over, or an old one with another
  heartbeat.  `Keeps now P o` asks that the property `P` holds of the record that the operation `o`
  may write, given that it holds of the one it is written over.  From this `P` holds of all records
  after the operation (`Coherent.forall_mem_carryOut`) and after a run of such operations
  (`Coherent.forall_mem_run`).
-/
import ServiceRegistry.Proofs.Store.Records

namespace ServiceRegistry.Store

variable {s : Store} {x : Instance} {P : Instance → Prop}

/-- The record that an operation may write has the property, if the one it is written over has.
    This speaks of single records and never of a table, so a property is checked once for each
    operation and then holds of whole tables and of runs. -/
def Keeps (now : Int64) (P : Instance → Prop) : Operation → Prop
  | .register x =>
    (x.checkRegistration = .ok () →
        P { x with registered := .ofSecs now, heartbeat := .ofSecs now })
      ∧ ∀ y, P y →
        P { y with heartbeat := .ofSecs (refreshedAt now x.heartbeat.secs y.heartbeat.secs) }
  | .heartbeat _ => ∀ y, P y → P { y with heartbeat := .ofSecs now }
  | .merge x => ∀ old, (∀ y, old = some y → P y) → P (takenOver now old x)
  | .touch _ secs readable =>
    ∀ y, P y → P { y with heartbeat := if 0 < secs then .of secs readable else .ofSecs now }
  | _ => True

namespace Coherent

/-- What holds of all records still does after a heartbeat, if it holds of the record that was
    beaten. -/
theorem forall_mem_beat {id : String} {t : Stamp} (h : s.Coherent) (all : ∀ y ∈ s.all, P y)
    (found : s.find? id = some x) (written : P { x with heartbeat := t }) :
    ∀ y ∈ (s.beat x t).all, P y := by
  intro y hy
  rcases (h.mem_all_beat found t y).1 hy with rfl | ⟨old, -⟩
  · exact written
  · exact all y old

/-- It still does after a removal. -/
theorem forall_mem_remove (h : s.Coherent) (all : ∀ y ∈ s.all, P y) (id : String) :
    ∀ y ∈ (s.remove id).2.all, P y :=
  fun y hy => all y (h.mem_all_remove.1 hy).1

/-- What holds of every record holds of every record after an operation that keeps it. -/
theorem forall_mem_carryOut {now : Int64} {o : Operation} (h : s.Coherent)
    (all : ∀ y ∈ s.all, P y) (keeps : Keeps now P o) : ∀ y ∈ (s.carryOut now o).all, P y := by
  have known {id : String} {x : Instance} (found : s.find? id = some x) : P x :=
    all x (h.find?_eq_some_iff.1 found).1
  have step := step_carryOut now o s
  generalize s.carryOut now o = t at step
  cases step with
  | idle => exact all
  | inserts unknown valid free =>
    intro y hy
    rcases mem_all_insert.1 hy with old | rfl
    · exact all y old
    · exact keeps.1 valid
  | beats found stamps =>
    refine h.forall_mem_beat all found ?_
    cases stamps with
    | refresh => exact keeps.2 _ (known found)
    | heartbeat | touch => exact keeps _ (known found)
  | removes => exact h.forall_mem_remove all _
  | merges given =>
    intro y hy
    rw [merge_given given] at hy
    -- the record that is taken over, or one that was not driven out
    rcases (h.clear _).mem_all_put.1 hy with rfl | ⟨old, -⟩
    · exact keeps _ fun y found => known found
    · exact all y (h.mem_all_clear.1 old).1
  | turns => exact all
  | adopts cursors => rwa [(SameRecords.adopt s cursors).all]

/-- And so it holds of every record after a run. -/
theorem forall_mem_run {ops : List (Int64 × Operation)} (h : s.Coherent) (all : ∀ y ∈ s.all, P y)
    (keeps : ∀ o ∈ ops, Keeps o.1 P o.2) : ∀ y ∈ (s.run ops).all, P y := by
  induction ops generalizing s with
  | nil => exact all
  | cons o os ih =>
    obtain ⟨first, later⟩ := List.forall_mem_cons.1 keeps
    exact ih (h.carryOut o.1 o.2) (h.forall_mem_carryOut all first) later

end Coherent

end ServiceRegistry.Store
