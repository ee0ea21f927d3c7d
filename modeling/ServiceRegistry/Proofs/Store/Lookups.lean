/-
  What an id finds after a change.

  Each change of a coherent table has one equation through `find?`, for all ids alike.  It concerns
  the id of its record and no other one; only a record that is taken over drives out, besides,
  whoever else holds its endpoint.

    * `find?_remove`               a record goes;
    * `find?_beat`, `find?_touch`  a record gets another heartbeat;
    * `find?_merge`                a record is taken over.
-/
import ServiceRegistry.Proofs.Store.Operations

namespace ServiceRegistry.Store.Coherent

variable {s : Store} {x : Instance} {id : String}

/-- What an id finds is told by who stands in the table. -/
theorem find?_eq_iff {found : Option Instance} (h : s.Coherent) :
    s.find? id = found ↔ ∀ y, (y ∈ s.all ∧ y.id = id) ↔ found = some y := by
  constructor
  · rintro rfl y
    exact h.find?_eq_some_iff.symm
  · intro members
    exact Option.ext fun y => h.find?_eq_some_iff.trans (members y)

/-- After a removal its id finds nothing, and the others find what they found. -/
theorem find?_remove (h : s.Coherent) (id other : String) :
    (s.remove id).2.find? other = if other = id then none else s.find? other := by
  refine (h.remove id).find?_eq_iff.2 fun y => ?_
  rw [h.mem_all_remove]
  split
  · rename_i same
    constructor
    · rintro ⟨⟨-, ne⟩, here⟩
      exact absurd (here.trans same) ne
    · intro gone
      cases gone
  · rename_i ne
    rw [h.find?_eq_some_iff]
    constructor
    · rintro ⟨⟨hy, -⟩, here⟩
      exact ⟨hy, here⟩
    · rintro ⟨hy, rfl⟩
      exact ⟨⟨hy, ne⟩, rfl⟩

/-- After a heartbeat its id finds the record with the new time. -/
theorem find?_beat (h : s.Coherent) (found : s.find? x.id = some x) (t : Stamp) (id : String) :
    (s.beat x t).find? id
      = if id = x.id then some { x with heartbeat := t } else s.find? id := by
  refine (h.beat found t).find?_eq_iff.2 fun y => ?_
  rw [h.mem_all_beat found]
  split
  · rename_i same
    constructor
    · rintro ⟨rfl | ⟨-, ne⟩, here⟩
      · rfl
      · exact absurd (here.trans same) ne
    · rintro ⟨⟩
      exact ⟨.inl rfl, same.symm⟩
  · rename_i ne
    rw [h.find?_eq_some_iff]
    constructor
    · rintro ⟨rfl | ⟨hy, -⟩, here⟩
      · exact absurd here.symm ne
      · exact ⟨hy, here⟩
    · rintro ⟨hy, rfl⟩
      exact ⟨.inr ⟨hy, ne⟩, rfl⟩

/-- The same for a heartbeat that is handed over, which may concern nobody. -/
theorem find?_touch (h : s.Coherent) (now : Int64) (id : String) (secs : Int64) (readable : String)
    (other : String) :
    (s.touch now id secs readable).2.find? other
      = if other = id then
          (s.find? id).map fun x =>
            { x with heartbeat := if 0 < secs then .of secs readable else .ofSecs now }
        else s.find? other := by
  rcases s.touch_cases now id secs readable with ⟨unknown, eq⟩ | ⟨x, found, eq⟩
  · rw [eq]
    split
    · rename_i same
      rw [same, unknown, Option.map_none]
    · rfl
  · obtain ⟨-, rfl⟩ := h.find?_eq_some_iff.1 found
    rw [eq, h.find?_beat found, found, Option.map_some]

/-- A record that is taken over is found under its id; whoever else held its endpoint is not found
    any more. -/
theorem find?_merge (h : s.Coherent) (given : x.id ≠ "") (now : Int64) (id : String) :
    (s.merge now x).2.find? id
      = if id = x.id then some (takenOver now (s.find? x.id) x)
        else (s.find? id).filter fun y => y.endpoint ≠ x.endpoint := by
  refine (h.merge now x).find?_eq_iff.2 fun y => ?_
  rw [h.mem_all_merge_takenOver given]
  split
  · rename_i same
    constructor
    · rintro ⟨rfl | ⟨-, ne, -⟩, here⟩
      · rfl
      · exact absurd (same.symm.trans here.symm) ne
    · rintro ⟨⟩
      exact ⟨.inl rfl, same.symm⟩
  · rename_i ne
    rw [Option.filter_eq_some_iff, h.find?_eq_some_iff, decide_eq_true_eq]
    constructor
    · rintro ⟨rfl | ⟨hy, -, away⟩, here⟩
      · exact absurd here.symm ne
      · exact ⟨⟨hy, here⟩, Ne.symm away⟩
    · rintro ⟨⟨hy, rfl⟩, away⟩
      exact ⟨.inr ⟨hy, Ne.symm ne, Ne.symm away⟩, rfl⟩

end ServiceRegistry.Store.Coherent
