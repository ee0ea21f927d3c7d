/-
  What a table holds after records were taken over.

  A record that carries its timestamps drives out whoever has its id or its endpoint, and stands in
  the table as it came (`mem_all_merge`).  Of many records none drives out another, as long as no
  two share an id or an endpoint; so

    * `mem_all_merges`   the table holds all of them, and of the old records those that share
                         neither with any of them;
    * `merges_new`       records of which it has nothing stand behind the old ones, in the order in
                         which they came;
    * `merges_all`       and the records of one table, taken over into one that has none, stand as
                         they stood.
-/
import ServiceRegistry.Proofs.Store.Listing
import ServiceRegistry.Proofs.Store.Stamps

namespace ServiceRegistry

namespace Store

variable {s : Store} {x y : Instance}

/-! ## One record -/

/-- Nothing is cleared for a record whose endpoint nobody else holds. -/
theorem clear_of_free (free : ∀ id, s.owner? x.endpoint = some id → id = x.id) :
    s.clear x = s := by
  unfold clear
  split
  · rename_i owner owned
    rw [if_pos (free owner owned)]
  · rfl

/-- A record with an unknown id is added at the end. -/
theorem Coherent.put_new (h : s.Coherent) (unknown : s.find? x.id = none) :
    s.put x = s.insert x := by
  rw [h.put_moved (fun old found => nomatch unknown.symm.trans found), h.remove_unknown unknown]

/-- A record that carries its timestamps drives out whoever has its id or its endpoint. -/
theorem Coherent.mem_all_merge (h : s.Coherent) (stamped : x.Stamped) (given : x.id ≠ "")
    (now : Int64) :
    y ∈ (s.merge now x).2.all ↔ y = x ∨ y ∈ s.all ∧ x.id ≠ y.id ∧ x.endpoint ≠ y.endpoint := by
  rw [h.mem_all_merge_takenOver given, takenOver_of_stamped stamped]

/-- A record of which the table has neither the id nor the endpoint comes last in its list. -/
theorem Coherent.merge_new (h : s.Coherent) (stamped : x.Stamped) (given : x.id ≠ "")
    (apart : ∀ y ∈ s.all, x.id ≠ y.id ∧ x.endpoint ≠ y.endpoint) (now : Int64) :
    (s.merge now x).2 = s.insert x := by
  have unknown : s.find? x.id = none := h.find?_eq_none_iff.2 fun y hy => (apart y hy).1.symm
  have free : s.owner? x.endpoint = none :=
    h.owner?_eq_none_iff.2 fun y hy => (apart y hy).2.symm
  have untouched : s.clear x = s := clear_of_free fun id owned => nomatch free.symm.trans owned
  rw [merge_given given, takenOver_of_stamped stamped, untouched, h.put_new unknown]

/-! ## Many records -/

/-- Takes over records one after another. -/
def merges (now : Int64) (xs : List Instance) (s : Store) : Store :=
  xs.foldl (fun s x => (s.merge now x).2) s

/-- No two records share an id or an endpoint. -/
def Distinct (xs : List Instance) : Prop :=
  xs.Pairwise fun x y => x.id ≠ y.id ∧ x.endpoint ≠ y.endpoint

/-- The records of a table are distinct in both respects. -/
theorem Coherent.distinct_all (h : s.Coherent) : Distinct s.all :=
  (List.pairwise_map.1 h.ids_nodup).and (List.pairwise_map.1 h.endpoints_nodup)

variable {xs : List Instance} {now : Int64}

/-- Many records may be taken over in a row. -/
theorem Coherent.merges (h : s.Coherent) (now : Int64) (xs : List Instance) :
    (s.merges now xs).Coherent := by
  induction xs generalizing s with
  | nil => exact h
  | cons x xs ih => exact ih (h.merge now x)

/-- Which records there are then does not depend on any cursor. -/
theorem SameRecords.merges {t : Store} (h : s.SameRecords t) (now : Int64) (xs : List Instance) :
    (s.merges now xs).SameRecords (t.merges now xs) := by
  induction xs generalizing s t with
  | nil => exact h
  | cons x xs ih => exact ih (h.merge now x)

/-- Who stands in the table after many distinct and stamped records were taken over: these, and of
    the others those that have neither the id nor the endpoint of one of them. -/
theorem Coherent.mem_all_merges (h : s.Coherent) (distinct : Distinct xs)
    (stamped : ∀ x ∈ xs, x.Stamped) (given : ∀ x ∈ xs, x.id ≠ "") :
    y ∈ (s.merges now xs).all
      ↔ y ∈ xs ∨ y ∈ s.all ∧ ∀ x ∈ xs, x.id ≠ y.id ∧ x.endpoint ≠ y.endpoint := by
  induction xs generalizing s with
  | nil => simp [Store.merges]
  | cons x xs ih =>
    obtain ⟨apart, distinct⟩ := List.pairwise_cons.1 distinct
    obtain ⟨stamp, stamped⟩ := List.forall_mem_cons.1 stamped
    obtain ⟨id, given⟩ := List.forall_mem_cons.1 given
    have rest := ih (h.merge now x) distinct stamped given
    rw [h.mem_all_merge stamp id] at rest
    show y ∈ ((s.merge now x).2.merges now xs).all ↔ _
    rw [rest, List.mem_cons, List.forall_mem_cons]
    constructor
    · rintro (hy | ⟨rfl | ⟨hy, alone⟩, others⟩)
      · exact .inl (.inr hy)
      · exact .inl (.inl rfl)
      · exact .inr ⟨hy, alone, others⟩
    · rintro ((rfl | hy) | ⟨hy, alone, others⟩)
      -- what was just taken over shares nothing with those to come
      · exact .inr ⟨.inl rfl, fun z hz => ⟨(apart z hz).1.symm, (apart z hz).2.symm⟩⟩
      · exact .inl hy
      · exact .inr ⟨.inr ⟨hy, alone⟩, others⟩

/-- Records of which the table has neither id nor endpoint stand behind the old ones, in the order
    in which they came, and no cursor moves. -/
theorem Coherent.merges_new (h : s.Coherent) (distinct : Distinct xs)
    (stamped : ∀ x ∈ xs, x.Stamped) (given : ∀ x ∈ xs, x.id ≠ "")
    (apart : ∀ x ∈ xs, ∀ y ∈ s.all, x.id ≠ y.id ∧ x.endpoint ≠ y.endpoint) :
    (s.merges now xs).cursors = s.cursors
      ∧ ∀ name, (s.merges now xs).ofService name
        = s.ofService name ++ xs.filter (·.service = name) := by
  induction xs generalizing s with
  | nil => exact ⟨rfl, fun name => by simp [Store.merges]⟩
  | cons x xs ih =>
    obtain ⟨later, distinct⟩ := List.pairwise_cons.1 distinct
    obtain ⟨stamp, stamped⟩ := List.forall_mem_cons.1 stamped
    obtain ⟨id, given⟩ := List.forall_mem_cons.1 given
    obtain ⟨here, apart⟩ := List.forall_mem_cons.1 apart
    have inserted := h.merge_new stamp id here now
    obtain ⟨cursors, lists⟩ := ih (h.merge now x) distinct stamped given fun z hz y hy => by
      rw [inserted, mem_all_insert] at hy
      rcases hy with old | rfl
      · exact apart z hz y old
      · exact ⟨(later z hz).1.symm, (later z hz).2.symm⟩
    rw [inserted] at cursors lists
    refine ⟨by rw [← inserted] at cursors; exact cursors.trans (by rw [inserted]; rfl), ?_⟩
    intro name
    show ((s.merge now x).2.merges now xs).ofService name = _
    rw [inserted, lists, ofService_insert]
    by_cases own : name = x.service
    · simp [own]
    · simp [own, Ne.symm own]

/-- The records of a table, taken over into one that has none, stand as they stood, and no cursor is
    set. -/
theorem Coherent.merges_all {t : Store} (h : s.Coherent) (empty : s.all = []) (c : t.Coherent)
    (stamped : t.Stamped) (now : Int64) :
    (s.merges now t.all).services = t.services
      ∧ ∀ name, (s.merges now t.all).cursors.get? name = none := by
  obtain ⟨cursors, lists⟩ : (s.merges now t.all).cursors = s.cursors
      ∧ ∀ name, (s.merges now t.all).ofService name
        = s.ofService name ++ t.all.filter (·.service = name) :=
    h.merges_new c.distinct_all stamped c.id_ne (by simp [empty])
  have same : ∀ name, (s.merges now t.all).ofService name = t.ofService name := by
    intro name
    rw [lists, h.ofService_eq_filter, empty, c.ofService_eq_filter]
    rfl
  refine ⟨ServiceMap.eq_of_get (h.merges now _).occupied c.occupied same, fun name => ?_⟩
  rw [cursors]
  refine Option.eq_none_iff_forall_ne_some.2 fun i there => ?_
  have inside := h.cursors name i there
  rw [h.ofService_eq_filter, empty] at inside
  exact absurd inside (Nat.not_lt_zero i)

end Store

end ServiceRegistry
