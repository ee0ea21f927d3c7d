/-
  The listing of a table: all its records, service after service.

  In a coherent table
    * no id and no endpoint occurs twice in the listing (`ids_nodup`, `endpoints_nodup`);
    * the lists can be read off the listing (`ofService_eq_filter`), so two tables with the same
      listing have the same lists, and conversely (`all_eq_iff`);
    * what a table has kept of each list of another one, it has kept of its listing
      (`all_eq_filter`).
-/
import ServiceRegistry.Proofs.Store.Coherence

namespace ServiceRegistry

namespace ServiceMap

/-- An entry of the map is a service with its list, when no list is empty. -/
theorem mem_entries_iff {c : ServiceMap} (occupied : ∀ e ∈ c.entries, e.2 ≠ [])
    {e : String × List Instance} : e ∈ c.entries ↔ c.get e.1 = e.2 ∧ e.2 ≠ [] := by
  refine ⟨fun he => ⟨get_of_mem he, occupied e he⟩, ?_⟩
  rintro ⟨reads, some_left⟩
  unfold get at reads
  cases found : c.entries.find? (·.1 = e.1) with
  | none => exact absurd (by simpa [found] using reads.symm) some_left
  | some d =>
    have key : d.1 = e.1 := by simpa using List.find?_some found
    have value : d.2 = e.2 := by simpa [found] using reads
    have same : d = e := Prod.ext key value
    exact same ▸ List.mem_of_find?_eq_some found

/-- No entry stands in the map twice. -/
theorem nodup_entries (c : ServiceMap) : c.entries.Nodup := by
  refine c.sorted.imp fun {d e} lt eq => ?_
  rw [eq] at lt
  exact String.lt_irrefl _ lt

/-- Without empty lists there is one way to write down the lists of all services. -/
theorem eq_of_get {c d : ServiceMap} (hc : ∀ e ∈ c.entries, e.2 ≠ [])
    (hd : ∀ e ∈ d.entries, e.2 ≠ []) (same : ∀ name, c.get name = d.get name) : c = d := by
  have members : ∀ e, e ∈ c.entries ↔ e ∈ d.entries := by
    intro e
    rw [mem_entries_iff hc, mem_entries_iff hd, same]
  have permuted := (List.perm_ext_iff_of_nodup c.nodup_entries d.nodup_entries).2 members
  have entries : c.entries = d.entries := by
    refine permuted.eq_of_pairwise ?_ c.sorted d.sorted
    intro a b _ _ lt gt
    exact absurd (String.lt_trans lt gt) (String.lt_irrefl _)
  cases c
  cases d
  cases entries
  rfl

/-- Where each record stands under its own service, a list is what the listing has of the
    service. -/
theorem filter_flatMap_eq {es : List (String × List Instance)} {name : String}
    (sorted : es.Pairwise (·.1 < ·.1)) (own : ∀ e ∈ es, ∀ x ∈ e.2, x.service = e.1) :
    (es.flatMap (·.2)).filter (·.service = name)
      = ((es.find? (·.1 = name)).map (·.2)).getD [] := by
  induction es with
  | nil => rfl
  | cons e es ih =>
    obtain ⟨first, rest⟩ := List.pairwise_cons.1 sorted
    obtain ⟨here, there⟩ := List.forall_mem_cons.1 own
    rw [List.flatMap_cons, List.filter_append]
    by_cases eq : e.1 = name
    · have all_of : e.2.filter (·.service = name) = e.2 :=
        List.filter_eq_self.2 fun x hx => by simpa using (here x hx).trans eq
      have none_of : (es.flatMap (·.2)).filter (·.service = name) = [] := by
        refine List.filter_eq_nil_iff.2 fun x hx => ?_
        obtain ⟨d, hd, hx⟩ := List.mem_flatMap.1 hx
        have lt := first d hd
        rw [eq, ← there d hd x hx] at lt
        refine fun service => String.lt_irrefl name ?_
        rwa [of_decide_eq_true service] at lt
      rw [all_of, none_of, List.find?_cons_of_pos (by simpa using eq)]
      simp
    · have none_of : e.2.filter (·.service = name) = [] :=
        List.filter_eq_nil_iff.2 fun x hx => by simpa using fun service => eq (here x hx ▸ service)
      rw [none_of, ih rest there, List.find?_cons_of_neg (by simpa using eq)]
      rfl

/-- The lists with some of their records, as far as any are left in them. -/
def keep (p : Instance → Bool) (c : ServiceMap) : ServiceMap where
  entries := (c.entries.map fun e => (e.1, e.2.filter p)).filter fun e => !e.2.isEmpty
  sorted := .filter _ (List.pairwise_map.2 c.sorted)

/-- Records are kept or not one by one, so that keeping some of the map keeps those of the whole
    listing. -/
theorem all_keep (p : Instance → Bool) (c : ServiceMap) : (c.keep p).all = c.all.filter p := by
  obtain ⟨es, sorted⟩ := c
  unfold all keep
  dsimp only
  clear sorted
  induction es with
  | nil => rfl
  | cons e es ih =>
    rw [List.flatMap_cons, List.filter_append, ← ih, List.map_cons, List.filter_cons]
    split
    · rw [List.flatMap_cons]
    · rename_i empty
      have empty : e.2.filter p = [] := by simpa using empty
      rw [empty, List.nil_append]

/-- The same for the list of one service. -/
theorem get_keep (p : Instance → Bool) (c : ServiceMap) (name : String) :
    (c.keep p).get name = (c.get name).filter p := by
  obtain ⟨es, sorted⟩ := c
  unfold get keep
  dsimp only
  induction es with
  | nil => rfl
  | cons e es ih =>
    obtain ⟨first, rest⟩ := List.pairwise_cons.1 sorted
    by_cases own : e.1 = name
    · rw [List.find?_cons_of_pos (by simpa using own), List.map_cons, List.filter_cons]
      split
      · rw [List.find?_cons_of_pos (by simpa using own)]
        rfl
      · -- the list is left empty, and no other one has its name
        rename_i empty
        have last : es.find? (·.1 = name) = none := by
          refine List.find?_eq_none.2 fun d hd same => String.lt_irrefl name ?_
          have lt := first d hd
          rwa [own, of_decide_eq_true same] at lt
        have empty : e.2.filter p = [] := by simpa using empty
        rw [ih rest, last]
        exact empty.symm
    · rw [List.find?_cons_of_neg (by simpa using own), ← ih rest, List.map_cons, List.filter_cons]
      split
      · rw [List.find?_cons_of_neg (by simpa using own)]
      · rfl

end ServiceMap

namespace Store

/-- The list under a name is the one that the entry shows. -/
theorem mem_ofService {s : Store} {e : String × List Instance} {x : Instance}
    (he : e ∈ s.services.entries) : x ∈ s.ofService e.1 ↔ x ∈ e.2 := by
  rw [ofService, ServiceMap.get_of_mem he]

namespace Coherent

variable {s t : Store}

/-- The list of a service is what the whole listing has of it, in the same order. -/
theorem ofService_eq_filter (h : s.Coherent) (name : String) :
    s.ofService name = s.all.filter (·.service = name) := by
  refine (ServiceMap.filter_flatMap_eq s.services.sorted fun e he x hx => ?_).symm
  exact h.listed e.1 x ((mem_ofService he).2 hx)

/-- Tables with the same listing have the same lists. -/
theorem all_eq_iff (h : s.Coherent) (h' : t.Coherent) :
    s.all = t.all ↔ ∀ name, s.ofService name = t.ofService name := by
  constructor
  · intro same name
    rw [h.ofService_eq_filter, h'.ofService_eq_filter, same]
  · intro same
    exact congrArg ServiceMap.all (ServiceMap.eq_of_get h.occupied h'.occupied same)

/-- A table that has, in each list, some of the records of another one has them in its listing as
    they stand there. -/
theorem all_eq_filter (h : s.Coherent) {p : Instance → Bool}
    (lists : ∀ name, s.ofService name = (t.ofService name).filter p) :
    s.all = t.all.filter p := by
  have occupied : ∀ e ∈ (t.services.keep p).entries, e.2 ≠ [] := by
    intro e he
    unfold ServiceMap.keep at he
    simpa using (List.mem_filter.1 he).2
  have same : s.services = t.services.keep p := ServiceMap.eq_of_get h.occupied occupied fun name =>
    (lists name).trans (ServiceMap.get_keep p t.services name).symm
  rw [all, same, ServiceMap.all_keep, all]

/-- In the whole listing ids are apart: inside a list by coherence, between lists because the
    services differ. -/
theorem pairwise_ids (h : s.Coherent) : s.all.Pairwise fun x y => x.id ≠ y.id := by
  unfold all ServiceMap.all
  refine List.pairwise_flatMap.2 ⟨fun e he => ?_, s.services.sorted.imp_of_mem ?_⟩
  · have own := h.distinct e.1
    rw [ofService, ServiceMap.get_of_mem he] at own
    exact List.pairwise_map.1 own
  · intro d e hd he lt x hx y hy eq
    rw [← mem_ofService hd] at hx
    rw [← mem_ofService he] at hy
    obtain rfl := h.eq_of_id (mem_all.2 ⟨_, hx⟩) (mem_all.2 ⟨_, hy⟩) eq
    rw [← h.listed _ _ hx, ← h.listed _ _ hy] at lt
    exact String.lt_irrefl _ lt

theorem ids_nodup (h : s.Coherent) : (s.all.map (·.id)).Nodup :=
  List.pairwise_map.2 h.pairwise_ids

/-- And so are endpoints. -/
theorem endpoints_nodup (h : s.Coherent) : (s.all.map (·.endpoint)).Nodup := by
  refine List.pairwise_map.2 (h.pairwise_ids.imp_of_mem ?_)
  intro x y hx hy ne eq
  exact ne (congrArg Instance.id (h.eq_of_endpoint hx hy eq))

end Coherent

end Store

end ServiceRegistry
