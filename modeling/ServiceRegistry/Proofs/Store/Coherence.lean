/-
  The lists, the cursors and the two maps of a table agree.

  `Coherent` says in terms of the lists alone what each of the other parts holds:
    * a record stands in the list of its own service, no list is empty, no id occurs twice;
    * the map of ids leads to the list with the id, the map of endpoints to the id in some record
      with the endpoint;
    * a cursor lies inside its list.

  From this the look-ups are read off:
    * `find?_eq_some_iff`, `find?_eq_none_iff`       what an id finds;
    * `owner?_eq_some_iff`, `owner?_eq_none_iff`     who holds an endpoint;
    * `split`                                        where a record stands.
-/
import ServiceRegistry.Store.Basic

namespace ServiceRegistry.Store

/-! ## Coherence -/

/-- The parts of a table agree.  Lists, indexes and cursors repeat one another's facts, and every
    operation has to change them together.  This is the invariant that all of them keep, and most of
    what is shown of tables needs no other one. -/
structure Coherent (s : Store) : Prop where
  /-- A record is listed under its own service. -/
  listed : ∀ name, ∀ x ∈ s.ofService name, x.service = name
  /-- No id is empty. -/
  identified : ∀ name, ∀ x ∈ s.ofService name, x.id ≠ ""
  /-- No list has an id twice. -/
  distinct : ∀ name, ((s.ofService name).map (·.id)).Nodup
  /-- The map of ids leads to the list with the id. -/
  names : ∀ id name, s.names.get? id = some name ↔ ∃ x ∈ s.ofService name, x.id = id
  /-- The map of endpoints leads to the id of the record with the endpoint. -/
  owners : ∀ e id, s.owners.get? e = some id ↔ ∃ x ∈ s.all, x.endpoint = e ∧ x.id = id
  /-- A service that is known has records. -/
  occupied : ∀ e ∈ s.services.entries, e.2 ≠ []
  /-- A cursor lies inside its list. -/
  cursors : ∀ name i, s.cursors.get? name = some i → i < (s.ofService name).length

/-- The empty table is coherent. -/
theorem coherent_empty : Coherent {} where
  listed _ _ hx := absurd hx List.not_mem_nil
  identified _ _ hx := absurd hx List.not_mem_nil
  distinct _ := .nil
  names _ _ := ⟨fun h => by simp [Index.get?] at h, fun ⟨_, hx, _⟩ => absurd hx List.not_mem_nil⟩
  owners _ _ := ⟨fun h => by simp [Index.get?] at h, fun ⟨_, hx, _⟩ => absurd hx List.not_mem_nil⟩
  occupied _ he := absurd he List.not_mem_nil
  cursors _ _ h := by simp [Index.get?] at h

/-- The records of a table are those of its lists. -/
theorem mem_all {s : Store} {x : Instance} : x ∈ s.all ↔ ∃ name, x ∈ s.ofService name :=
  ServiceMap.mem_all

/-! ## Lists with distinct ids -/

/-- An id that stands in the middle of a list without repetitions stands nowhere else in it. -/
theorem ids_apart {l r : List Instance} {x : Instance}
    (distinct : ((l ++ x :: r).map (·.id)).Nodup) :
    (∀ z ∈ l, z.id ≠ x.id) ∧ ∀ z ∈ r, z.id ≠ x.id := by
  rw [List.map_append, List.map_cons, List.nodup_append] at distinct
  obtain ⟨-, right, apart⟩ := distinct
  refine ⟨fun z hz => apart _ (List.mem_map_of_mem hz) _ (.head _), fun z hz eq => ?_⟩
  exact (List.nodup_cons.1 right).1 (eq ▸ List.mem_map_of_mem hz)

namespace Coherent

variable {s : Store} {x y : Instance} {id name : String}

/-! ## Look-ups -/

/-- In a coherent table a record stands in the list of its own service. -/
theorem mem_all_iff (h : s.Coherent) : x ∈ s.all ↔ x ∈ s.ofService x.service := by
  rw [mem_all]
  constructor
  · rintro ⟨name, hx⟩
    rwa [h.listed name x hx]
  · exact fun hx => ⟨_, hx⟩

/-- No stored id is empty. -/
theorem id_ne (h : s.Coherent) : ∀ x ∈ s.all, x.id ≠ "" :=
  fun x hx => h.identified x.service x (h.mem_all_iff.1 hx)

/-- Where a record stands, and that its id leads there. -/
theorem split (h : s.Coherent) (hx : x ∈ s.all) :
    ∃ l r, s.ofService x.service = l ++ x :: r
      ∧ s.position? x.id = some (x.service, l.length) := by
  have here := h.mem_all_iff.1 hx
  obtain ⟨l, r, parts⟩ := List.append_of_mem here
  refine ⟨l, r, parts, ?_⟩
  obtain ⟨before, -⟩ := ids_apart (parts ▸ h.distinct x.service)
  have skipped : l.findIdx? (fun z => decide (z.id = x.id)) = none :=
    List.findIdx?_eq_none_iff.2 fun z hz => by simpa using before z hz
  simp [position?, (h.names _ _).2 ⟨x, here, rfl⟩, parts, List.findIdx?_append, skipped,
    List.findIdx?_cons]

/-- A stored record is found by its id. -/
theorem find?_of_mem (h : s.Coherent) (hx : x ∈ s.all) : s.find? x.id = some x := by
  obtain ⟨l, r, parts, place⟩ := h.split hx
  simp [find?, place, parts]

/-- What is found by an id is the one record that has it. -/
theorem find?_eq_some_iff (h : s.Coherent) : s.find? id = some x ↔ x ∈ s.all ∧ x.id = id := by
  refine ⟨fun found => ?_, fun ⟨hx, hid⟩ => hid ▸ h.find?_of_mem hx⟩
  unfold find? position? at found
  cases known : s.names.get? id with
  | none => simp [known] at found
  | some name =>
    -- the map of ids names a record with the id; it is the one that is found
    obtain ⟨z, hz, rfl⟩ := (h.names id name).1 known
    have same := h.find?_of_mem (mem_all.2 ⟨name, hz⟩)
    unfold find? position? at same
    obtain rfl := Option.some.inj (found.symm.trans same)
    exact ⟨mem_all.2 ⟨name, hz⟩, rfl⟩

/-- Nothing is found by an id that nobody has. -/
theorem find?_eq_none_iff (h : s.Coherent) : s.find? id = none ↔ ∀ x ∈ s.all, x.id ≠ id := by
  constructor
  · rintro absent x hx rfl
    rw [h.find?_of_mem hx] at absent
    exact nomatch absent
  · intro absent
    cases found : s.find? id with
    | none => rfl
    | some x =>
      obtain ⟨hx, hid⟩ := h.find?_eq_some_iff.1 found
      exact absurd hid (absent x hx)

/-- Ids tell records apart. -/
theorem eq_of_id (h : s.Coherent) (hx : x ∈ s.all) (hy : y ∈ s.all) (eq : x.id = y.id) : x = y :=
  Option.some.inj ((h.find?_of_mem hx).symm.trans (eq ▸ h.find?_of_mem hy))

/-- The owner of an endpoint is the record that has it. -/
theorem owner?_eq_some_iff (h : s.Coherent) {e : Endpoint} :
    s.owner? e = some id ↔ ∃ x ∈ s.all, x.endpoint = e ∧ x.id = id := h.owners e id

/-- An endpoint that nobody has is free. -/
theorem owner?_eq_none_iff (h : s.Coherent) {e : Endpoint} :
    s.owner? e = none ↔ ∀ x ∈ s.all, x.endpoint ≠ e := by
  constructor
  · rintro free x hx rfl
    rw [h.owner?_eq_some_iff.2 ⟨x, hx, rfl, rfl⟩] at free
    exact nomatch free
  · intro free
    cases owned : s.owner? e with
    | none => rfl
    | some id =>
      obtain ⟨x, hx, he, -⟩ := h.owner?_eq_some_iff.1 owned
      exact absurd he (free x hx)

/-- Endpoints tell records apart as well. -/
theorem eq_of_endpoint (h : s.Coherent) (hx : x ∈ s.all) (hy : y ∈ s.all)
    (eq : x.endpoint = y.endpoint) : x = y := by
  have left := (h.owners x.endpoint x.id).2 ⟨x, hx, rfl, rfl⟩
  have right := (h.owners x.endpoint y.id).2 ⟨y, hy, eq.symm, rfl⟩
  exact h.eq_of_id hx hy (Option.some.inj (left.symm.trans right))

/-- The service of an id that is known is the service of its record. -/
theorem names_of_find? (h : s.Coherent) (found : s.find? id = some x) :
    s.names.get? id = some x.service := by
  obtain ⟨hx, hid⟩ := h.find?_eq_some_iff.1 found
  exact (h.names _ _).2 ⟨x, h.mem_all_iff.1 hx, hid⟩

theorem names_of_unknown (h : s.Coherent) (unknown : s.find? id = none) :
    s.names.get? id = none := by
  cases known : s.names.get? id with
  | none => rfl
  | some name =>
    obtain ⟨x, hx, hid⟩ := (h.names id name).1 known
    exact absurd hid (h.find?_eq_none_iff.1 unknown x (mem_all.2 ⟨name, hx⟩))

theorem position?_of_unknown (h : s.Coherent) (unknown : s.find? id = none) :
    s.position? id = none := by
  simp [position?, h.names_of_unknown unknown]

/-- An id that is unknown stands in no list. -/
theorem absent (h : s.Coherent) (unknown : s.find? id = none) :
    ∀ z ∈ s.ofService name, z.id ≠ id :=
  fun z hz => h.find?_eq_none_iff.1 unknown z (mem_all.2 ⟨name, hz⟩)

/-- A known id stands in no list but that of its own service. -/
theorem absent_elsewhere (h : s.Coherent) (found : s.find? id = some x) (ne : name ≠ x.service) :
    ∀ z ∈ s.ofService name, z.id ≠ id := by
  rintro z hz rfl
  obtain ⟨hx, hid⟩ := h.find?_eq_some_iff.1 found
  have same : z = x := h.eq_of_id (mem_all.2 ⟨name, hz⟩) hx hid.symm
  exact ne (same ▸ (h.listed name z hz).symm)

end Coherent

end ServiceRegistry.Store
