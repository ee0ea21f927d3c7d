/-
  The list of candidates as a ring.

  A failover goes round the list from the candidate after the failed one.  Read from any candidate,
  the list is the same ring: `roundFrom`.

    * `failoverOrder_of_round`   in whichever way the ring is read, what comes after a candidate and
                                 then what came before it is the order of a failover from it;
    * `self_mem_failoverOrder`   a failover from another one always comes to the node itself;
    * `CameTo`                   how far a failover has come, and what it has passed.
-/
import ServiceRegistry.Membership
import Mathlib.Data.List.Rotate

namespace ServiceRegistry

/-- A list read round from an element on. -/
def roundFrom (ring : List String) (first : String) : List String :=
  ring.dropWhile (· ≠ first) ++ ring.takeWhile (· ≠ first)

/-- To read a list round from an element on is to turn it, -/
theorem isRotated_roundFrom (ring : List String) (first : String) :
    ring ~r roundFrom ring first := by
  have turned : ring.takeWhile (· ≠ first) ++ ring.dropWhile (· ≠ first) ~r roundFrom ring first :=
    List.isRotated_append
  rwa [List.takeWhile_append_dropWhile] at turned

/-- so that it has the same elements, -/
theorem mem_roundFrom {ring : List String} {first x : String} :
    x ∈ roundFrom ring first ↔ x ∈ ring := (isRotated_roundFrom ring first).mem_iff.symm

/-- those from the first occurrence on ahead of those before it. -/
theorem roundFrom_of_split {before after : List String} {first : String}
    (fresh : first ∉ before) :
    roundFrom (before ++ first :: after) first = first :: (after ++ before) := by
  have other : ∀ y ∈ before, decide (y ≠ first) = true := by
    intro y hy
    have ne : y ≠ first := fun eq => fresh (eq ▸ hy)
    simpa using ne
  unfold roundFrom
  rw [List.dropWhile_append_of_pos other, List.takeWhile_append_of_pos other]
  simp

/-- It begins with that element. -/
theorem roundFrom_head {ring : List String} {first : String} (h : first ∈ ring) :
    ∃ rest, roundFrom ring first = first :: rest := by
  obtain ⟨before, after, rfl, fresh⟩ := List.eq_append_cons_of_mem h
  exact ⟨_, roundFrom_of_split fresh⟩

namespace Membership

variable {m : Membership} {x : String}

/-- Reading a list from a place on, around its end, is turning it. -/
theorem filterMap_range_eq_rotate (xs : List String) (start : Nat) :
    (List.range xs.length).filterMap (fun k => xs[(start + k) % xs.length]?)
      = xs.rotate start := by
  have turned : (List.range xs.length).map (fun k => xs[(start + k) % xs.length]?)
      = (xs.rotate start).map some := by
    refine List.ext_getElem (by simp) fun k hk _ => ?_
    have inside : k < xs.length := by simpa using hk
    have there := List.getElem?_rotate (n := start) inside
    rw [Nat.add_comm] at there
    simp only [List.getElem_map, List.getElem_range, ← there]
    exact List.getElem?_eq_getElem _
  have split := congrArg (List.filterMap id) turned
  simpa [List.filterMap_map] using split

/-- After a failure the ones behind the failed candidate are tried first, then the ones before. -/
theorem failoverOrder_of_split {before after : List String}
    (split : m.candidates = before ++ x :: after) (distinct : m.candidates.Nodup)
    (normal : normalizeAddress x = x) : m.failoverOrder x = after ++ before := by
  rw [split, List.nodup_append] at distinct
  obtain ⟨-, right, apart⟩ := distinct
  have not_before : x ∉ before := fun h => apart x h x (.head _) rfl
  have not_after : x ∉ after := (List.nodup_cons.1 right).1
  have start : m.searchStart x = (before ++ [x]).length := by
    have place : m.candidates.idxOf? x = some before.length := by
      rw [split, List.idxOf?_eq_some_iff]
      refine ⟨by simp, by simp, fun j hj => ?_⟩
      rw [List.getElem_append_left hj]
      have other : before[j] ≠ x := fun eq => not_before (eq ▸ List.getElem_mem hj)
      simpa using other
    rw [searchStart, place, List.length_append]
    rfl
  unfold failoverOrder
  simp only [normal]
  rw [filterMap_range_eq_rotate, start, split,
    show before ++ x :: after = (before ++ [x]) ++ after by simp, List.rotate_append_length_eq]
  have keep : ∀ ys : List String, x ∉ ys → ys.filter (· ≠ x) = ys := fun ys absent =>
    List.filter_eq_self.2 fun y hy => by simpa using fun eq : y = x => absent (eq ▸ hy)
  rw [List.filter_append, List.filter_append, keep after not_after, keep before not_before]
  simp

/-- In whichever way the ring is read, the ones behind come before the ones ahead. -/
theorem failoverOrder_of_round {round before after : List String} (turned : m.candidates ~r round)
    (distinct : m.candidates.Nodup) (normal : normalizeAddress x = x)
    (split : round = before ++ x :: after) : m.failoverOrder x = after ++ before := by
  obtain ⟨n, rfl⟩ := turned
  rw [List.rotate_eq_drop_append_take_mod] at split
  have cut := List.take_append_drop (n % m.candidates.length) m.candidates
  generalize m.candidates.take (n % m.candidates.length) = u at split cut
  generalize m.candidates.drop (n % m.candidates.length) = v at split cut
  rcases List.append_eq_append_iff.1 split with ⟨w, left, right⟩ | ⟨w, left, right⟩
  · -- the reading passes the end of the list before it comes to `x`
    rw [left, ← List.append_assoc]
    refine failoverOrder_of_split ?_ distinct normal
    rw [← cut, right, List.append_assoc, List.cons_append]
  · rcases List.cons_eq_append_iff.1 right with ⟨rfl, rfl⟩ | ⟨w, rfl, rfl⟩
    · -- `x` is the first of the list
      rw [List.append_nil] at left
      have parts : m.candidates = [] ++ x :: (after ++ before) := by rw [← cut, left]; simp
      rw [failoverOrder_of_split parts distinct normal, List.append_nil]
    · -- the reading comes to `x` before it passes the end of the list
      have parts : m.candidates = (u ++ before) ++ x :: w := by rw [← cut, left]; simp
      rw [failoverOrder_of_split parts distinct normal, List.append_assoc]

/-- A failover from another one comes to the node itself, if it is a candidate. -/
theorem self_mem_failoverOrder (listed : m.self ∈ m.candidates)
    (other : m.isSelf x = false) : m.self ∈ m.failoverOrder x := by
  have length_pos : 0 < m.candidates.length := List.length_pos_of_mem listed
  unfold failoverOrder
  simp only []
  rw [filterMap_range_eq_rotate, List.mem_filter, List.mem_rotate]
  refine ⟨listed, ?_⟩
  have ne : normalizeAddress x ≠ m.self := by simpa [isSelf] using other
  simpa using ne.symm

/-- A failover tries candidates only. -/
theorem mem_candidates_of_mem_failoverOrder {a : String} (h : a ∈ m.failoverOrder x) :
    a ∈ m.candidates := by
  unfold failoverOrder at h
  simp only [filterMap_range_eq_rotate] at h
  exact List.mem_rotate.1 (List.mem_filter.1 h).1

/-! ## How far a failover has come -/

/-- A failover from `failed` has come to `rest`; whom it has passed, `P` is true of. -/
def CameTo (m : Membership) (P : String → Prop) (failed : String) (rest : List String) : Prop :=
  ∃ passed, m.failoverOrder failed = passed ++ rest ∧ ∀ a ∈ passed, P a

namespace CameTo

variable {P Q : String → Prop} {failed candidate : String} {rest : List String}

/-- When it begins, it has passed nobody. -/
theorem first (order : m.failoverOrder failed = rest) : m.CameTo P failed rest :=
  ⟨[], order, fun _ ha => absurd ha List.not_mem_nil⟩

/-- It passes one more. -/
theorem next (came : m.CameTo P failed (candidate :: rest)) (passed : P candidate) :
    m.CameTo P failed rest := by
  obtain ⟨before, whole, all_before⟩ := came
  refine ⟨before ++ [candidate], by rw [whole, List.append_assoc]; rfl, fun a ha => ?_⟩
  rcases List.mem_append.1 ha with ha | ha
  · exact all_before a ha
  · rw [List.mem_singleton.1 ha]
    exact passed

/-- What is true of all that it has passed may be weakened. -/
theorem mono (came : m.CameTo P failed rest) (weaker : ∀ a, P a → Q a) :
    m.CameTo Q failed rest := by
  obtain ⟨before, whole, all_before⟩ := came
  exact ⟨before, whole, fun a ha => weaker a (all_before a ha)⟩

/-- It has come to its candidate for the first time, or has passed it before. -/
theorem fresh (came : m.CameTo P failed (candidate :: rest)) :
    ∃ passed rest, m.failoverOrder failed = passed ++ candidate :: rest ∧ candidate ∉ passed
      ∧ ∀ a ∈ passed, P a := by
  obtain ⟨before, whole, all_before⟩ := came
  by_cases again : candidate ∈ before
  · obtain ⟨passed, more, rfl, fresh⟩ := List.eq_append_cons_of_mem again
    refine ⟨passed, more ++ candidate :: rest, by rw [whole]; simp, fresh, fun a ha => ?_⟩
    exact all_before a (List.mem_append_left _ ha)
  · exact ⟨before, rest, whole, again, all_before⟩

/-- It has come to a candidate. -/
theorem mem_candidates (came : m.CameTo P failed (candidate :: rest)) :
    candidate ∈ m.candidates := by
  obtain ⟨before, whole, -⟩ := came
  refine mem_candidates_of_mem_failoverOrder (x := failed) ?_
  rw [whole]
  exact List.mem_append_right _ (.head _)

end CameTo

end Membership

end ServiceRegistry
