/-
  What the changes of a table do to its lists.

  In a coherent table each change has an equation in terms of lists, for every service alike, that
  mentions neither places nor maps:
    * `ofService_insert`     the record comes to the end of its list;
    * `ofService_remove`     the record with the id goes;
    * `ofService_replace`    the record with the id is another one.

  And each change keeps a table coherent: `Coherent.insert`, `remove`, `replace`, `swap`, `put`,
  `setCursor`.  A record may come to an endpoint only while nobody else holds it.
-/
import ServiceRegistry.Proofs.Store.Coherence

namespace ServiceRegistry.Store

/-! ## Lists with distinct ids -/

/-- The records with the one of this id replaced. -/
def substitute (x : Instance) (xs : List Instance) : List Instance :=
  xs.map fun z => if z.id = x.id then x else z

/-- The records without the one of this id. -/
def without (id : String) (xs : List Instance) : List Instance := xs.filter (·.id ≠ id)

/-- Where nobody has the id, there is nothing to replace. -/
theorem substitute_of_absent {xs : List Instance} {x : Instance} (h : ∀ z ∈ xs, z.id ≠ x.id) :
    substitute x xs = xs := by
  unfold substitute
  exact (List.map_congr_left fun z hz => if_neg (h z hz)).trans (List.map_id xs)

/-- Where nobody has the id, there is nothing to leave out. -/
theorem without_of_absent {xs : List Instance} {id : String} (h : ∀ z ∈ xs, z.id ≠ id) :
    without id xs = xs :=
  List.filter_eq_self.2 fun z hz => by simpa using h z hz

/-- A record takes the place of one with the same id, so the ids of a list stay as they are, in
    their order. -/
@[simp] theorem ids_substitute (x : Instance) (xs : List Instance) :
    (substitute x xs).map (·.id) = xs.map (·.id) := by
  unfold substitute
  rw [List.map_map]
  refine List.map_congr_left fun z _ => ?_
  by_cases h : z.id = x.id <;> simp [h]

@[simp] theorem length_substitute (x : Instance) (xs : List Instance) :
    (substitute x xs).length = xs.length := List.length_map _

/-- Who stands in a list after a replacement: the new record, if the list had its id, and all others
    as before. -/
theorem mem_substitute {x y : Instance} {xs : List Instance} (h : y ∈ substitute x xs) :
    (y = x ∧ ∃ z ∈ xs, z.id = x.id) ∨ (y ∈ xs ∧ y.id ≠ x.id) := by
  obtain ⟨z, hz, rfl⟩ := List.mem_map.1 h
  by_cases eq : z.id = x.id
  · exact .inl ⟨if_pos eq, z, hz, eq⟩
  · rw [if_neg eq]
    exact .inr ⟨hz, eq⟩

/-- Who is left when an id goes. -/
@[simp] theorem mem_without {id : String} {x : Instance} {xs : List Instance} :
    x ∈ without id xs ↔ x ∈ xs ∧ x.id ≠ id := by
  simp [without]

/-- Writing at the position of a record is replacing by its id, provided that no id comes twice: the
    table works by positions, the theory by ids. -/
theorem set_split {l r : List Instance} {x y : Instance} (hy : y.id = x.id)
    (distinct : ((l ++ x :: r).map (·.id)).Nodup) :
    (l ++ x :: r).set l.length y = substitute y (l ++ x :: r) := by
  obtain ⟨before, after⟩ := ids_apart distinct
  have left : substitute y l = l := substitute_of_absent fun z hz => hy ▸ before z hz
  have right : substitute y r = r := substitute_of_absent fun z hz => hy ▸ after z hz
  have parts : substitute y (l ++ x :: r) = substitute y l ++ y :: substitute y r := by
    simp [substitute, hy]
  rw [parts, left, right]
  simp

/-- Likewise, erasing at the position of a record is leaving out its id. -/
theorem eraseIdx_split {l r : List Instance} {x : Instance}
    (distinct : ((l ++ x :: r).map (·.id)).Nodup) :
    (l ++ x :: r).eraseIdx l.length = without x.id (l ++ x :: r) := by
  obtain ⟨before, after⟩ := ids_apart distinct
  have left : without x.id l = l := without_of_absent before
  have right : without x.id r = r := without_of_absent after
  have parts : without x.id (l ++ x :: r) = without x.id l ++ without x.id r := by
    simp [without]
  rw [parts, left, right]
  simp [List.eraseIdx_append_of_length_le]

/-! ## A record enters -/

/-- A new record comes last in the list of its service; the other lists stay. -/
theorem ofService_insert (s : Store) (x : Instance) (name : String) :
    (s.insert x).ofService name
      = if name = x.service then s.ofService name ++ [x] else s.ofService name := by
  unfold insert ofService
  rw [ServiceMap.get_set]
  split
  · rename_i eq; rw [eq]
  · rfl

theorem mem_ofService_insert {s : Store} {x y : Instance} {name : String} :
    y ∈ (s.insert x).ofService name ↔ y ∈ s.ofService name ∨ (y = x ∧ name = x.service) := by
  rw [ofService_insert]
  split <;> simp [*]

/-- After an insertion the table holds one record more. -/
@[simp] theorem mem_all_insert {s : Store} {x y : Instance} :
    y ∈ (s.insert x).all ↔ y ∈ s.all ∨ y = x := by
  simp only [mem_all, mem_ofService_insert]
  constructor
  · rintro ⟨name, old | ⟨new, -⟩⟩
    · exact .inl ⟨name, old⟩
    · exact .inr new
  · rintro (⟨name, old⟩ | new)
    · exact ⟨name, .inl old⟩
    · exact ⟨x.service, .inr ⟨new, rfl⟩⟩

/-- A record may be added when it has an id that nobody has, and an endpoint that nobody owns. -/
theorem Coherent.insert {s : Store} {x : Instance} (h : s.Coherent) (identified : x.id ≠ "")
    (fresh : s.find? x.id = none) (free : s.owner? x.endpoint = none) :
    (s.insert x).Coherent where
  listed name y hy := by
    rcases mem_ofService_insert.1 hy with old | ⟨rfl, eq⟩
    · exact h.listed name y old
    · exact eq.symm
  identified name y hy := by
    rcases mem_ofService_insert.1 hy with old | ⟨rfl, -⟩
    · exact h.identified name y old
    · exact identified
  distinct name := by
    rw [ofService_insert]
    split
    · rw [List.map_append, List.nodup_append]
      refine ⟨h.distinct name, by simp, ?_⟩
      intro a ha b hb
      obtain ⟨z, hz, rfl⟩ := List.mem_map.1 ha
      obtain rfl : b = x.id := by simpa using hb
      exact h.absent fresh z hz
    · exact h.distinct name
  names id name := by
    show (s.names.set x.id x.service).get? id = some name ↔ _
    rw [Index.get?_set]
    simp only [mem_ofService_insert]
    -- the new id leads to the new record alone, all others lead where they led
    split
    · rename_i eq
      constructor
      · intro found
        exact ⟨x, .inr ⟨rfl, (Option.some.inj found).symm⟩, eq.symm⟩
      · rintro ⟨y, old | ⟨-, there⟩, hid⟩
        · exact absurd (hid.trans eq) (h.absent fresh y old)
        · rw [there]
    · rename_i ne
      rw [h.names]
      constructor
      · rintro ⟨y, hy, hid⟩
        exact ⟨y, .inl hy, hid⟩
      · rintro ⟨y, old | ⟨rfl, -⟩, hid⟩
        · exact ⟨y, old, hid⟩
        · exact absurd hid.symm ne
  owners e id := by
    show (s.owners.set x.endpoint x.id).get? e = some id ↔ _
    rw [Index.get?_set]
    simp only [mem_all_insert]
    -- nobody held the endpoint, so it has one holder now
    split
    · rename_i eq
      constructor
      · intro found
        exact ⟨x, .inr rfl, eq.symm, Option.some.inj found⟩
      · rintro ⟨y, old | rfl, he, hid⟩
        · exact absurd (he.trans eq) (h.owner?_eq_none_iff.1 free y old)
        · rw [hid]
    · rename_i ne
      rw [h.owners]
      constructor
      · rintro ⟨y, hy, there⟩
        exact ⟨y, .inl hy, there⟩
      · rintro ⟨y, old | rfl, he, hid⟩
        · exact ⟨y, old, he, hid⟩
        · exact absurd he.symm ne
  occupied e he := by
    rcases ServiceMap.mem_place he with rfl | old
    · simp
    · exact h.occupied e old
  cursors name i found := by
    have inside := h.cursors name i found
    rw [ofService_insert]
    split
    · rw [List.length_append]; omega
    · exact inside

/-! ## A record leaves -/

/-- What is removed is what the id finds. -/
theorem remove_cases (id : String) (s : Store) :
    s.remove id = (none, s)
    ∨ ∃ x, s.find? id = some x ∧ s.remove id = (some x, (s.remove id).2) := by
  unfold remove
  split
  · rename_i x _ found
    exact .inr ⟨x, found, rfl⟩
  · exact .inl rfl

/-- What a removal does when the id is known: the record leaves its list, its id, its endpoint, and
    the cursor of its service starts anew, or goes with the last record. -/
theorem Coherent.remove_known {s : Store} {x : Instance} {id : String} (h : s.Coherent)
    (found : s.find? id = some x) :
    let left := without id (s.ofService x.service)
    s.remove id = (some x,
      { services :=
          if left.isEmpty then s.services.erase x.service else s.services.set x.service left
        cursors := if left.isEmpty then s.cursors.erase x.service else s.cursors.set x.service 0
        names := s.names.erase id
        owners := s.owners.erase x.endpoint }) := by
  obtain ⟨hx, rfl⟩ := h.find?_eq_some_iff.1 found
  obtain ⟨l, r, parts, place⟩ := h.split hx
  have owned : s.owner? x.endpoint = some x.id := h.owner?_eq_some_iff.2 ⟨x, hx, rfl, rfl⟩
  have rest := eraseIdx_split (parts ▸ h.distinct x.service)
  unfold remove
  rw [place, found]
  simp only [parts, rest, owned, if_true]

/-- The removal of an id that nobody has changes nothing. -/
theorem Coherent.remove_unknown {s : Store} {id : String} (h : s.Coherent)
    (unknown : s.find? id = none) : s.remove id = (none, s) := by
  unfold remove
  rw [h.position?_of_unknown unknown, unknown]

/-- A removal reports the record that it took out. -/
theorem Coherent.fst_remove {s : Store} {id : String} (h : s.Coherent) :
    (s.remove id).1 = s.find? id := by
  cases found : s.find? id with
  | none => rw [h.remove_unknown found]
  | some x => rw [h.remove_known found]

/-- After a removal every list lacks the id, whether or not it was there. -/
theorem Coherent.ofService_remove {s : Store} (h : s.Coherent) (id name : String) :
    (s.remove id).2.ofService name = without id (s.ofService name) := by
  cases found : s.find? id with
  | none => rw [h.remove_unknown found, without_of_absent (h.absent found)]
  | some x =>
    rw [h.remove_known found]
    show (if _ then s.services.erase x.service else s.services.set x.service _).get name = _
    by_cases here : name = x.service
    · subst here
      split
      · rename_i last
        rw [ServiceMap.get_erase, if_pos rfl]
        exact (List.isEmpty_iff.1 last).symm
      · rw [ServiceMap.get_set, if_pos rfl]
    · rw [without_of_absent (h.absent_elsewhere found here)]
      split
      · rw [ServiceMap.get_erase, if_neg here, ofService]
      · rw [ServiceMap.get_set, if_neg here, ofService]

/-- The cursor of the list starts again, or goes with the list. -/
theorem Coherent.cursor_remove {s : Store} {x : Instance} {id : String} (h : s.Coherent)
    (found : s.find? id = some x) (name : String) :
    (s.remove id).2.cursors.get? name
      = if name = x.service then
          if (without id (s.ofService x.service)).isEmpty then none else some 0
        else s.cursors.get? name := by
  rw [h.remove_known found]
  by_cases last : (without id (s.ofService x.service)).isEmpty
  · simp only [last, if_true, Index.get?_erase]
  · simp only [last, Bool.false_eq_true, if_false, Index.get?_set]

/-- Exactly the records with other ids are left by a removal. -/
theorem Coherent.mem_all_remove {s : Store} {id : String} {y : Instance} (h : s.Coherent) :
    y ∈ (s.remove id).2.all ↔ y ∈ s.all ∧ y.id ≠ id := by
  simp only [mem_all, h.ofService_remove, mem_without, exists_and_right]

/-- Removals keep the table coherent: what goes from the lists goes from both indexes, and no list
    stays that has become empty. -/
protected theorem Coherent.remove {s : Store} (h : s.Coherent) (id : String) :
    (s.remove id).2.Coherent := by
  cases found : s.find? id with
  | none => rwa [h.remove_unknown found]
  | some x =>
    obtain ⟨hx, hid⟩ := h.find?_eq_some_iff.1 found
    refine ⟨?listed, ?identified, ?distinct, ?names, ?owners, ?occupied, ?cursors⟩
    case listed =>
      intro name y hy
      rw [h.ofService_remove, mem_without] at hy
      exact h.listed name y hy.1
    case identified =>
      intro name y hy
      rw [h.ofService_remove, mem_without] at hy
      exact h.identified name y hy.1
    case distinct =>
      intro name
      rw [h.ofService_remove]
      exact (h.distinct name).sublist (List.filter_sublist.map _)
    case names =>
      intro other name
      simp only [h.ofService_remove, mem_without]
      rw [h.remove_known found]
      show (s.names.erase id).get? other = some name ↔ _
      rw [Index.get?_erase]
      -- the id leads nowhere now, all others lead where they led
      split
      · rename_i eq
        subst eq
        constructor
        · intro gone
          cases gone
        · rintro ⟨_, ⟨-, ne⟩, eq⟩
          exact absurd eq ne
      · rename_i ne
        rw [h.names]
        constructor
        · rintro ⟨y, hy, rfl⟩
          exact ⟨y, ⟨hy, ne⟩, rfl⟩
        · rintro ⟨y, ⟨hy, -⟩, hid⟩
          exact ⟨y, hy, hid⟩
    case owners =>
      intro e other
      simp only [h.mem_all_remove]
      rw [h.remove_known found]
      show (s.owners.erase x.endpoint).get? e = some other ↔ _
      rw [Index.get?_erase]
      -- only the record that goes has held its endpoint
      split
      · rename_i eq
        constructor
        · intro gone
          cases gone
        · rintro ⟨y, ⟨hy, ne⟩, there, -⟩
          rw [h.eq_of_endpoint hy hx (there.trans eq)] at ne
          exact absurd hid ne
      · rename_i ne
        rw [h.owners]
        constructor
        · rintro ⟨y, hy, rfl, rfl⟩
          refine ⟨y, ⟨hy, fun eq => ne ?_⟩, rfl, rfl⟩
          rw [h.eq_of_id hy hx (eq.trans hid.symm)]
        · rintro ⟨y, ⟨hy, -⟩, there⟩
          exact ⟨y, hy, there⟩
    case occupied =>
      intro e he
      rw [h.remove_known found] at he
      by_cases last : (without id (s.ofService x.service)).isEmpty
      · simp only [last, if_true, ServiceMap.erase, List.mem_filter] at he
        exact h.occupied e he.1
      · simp only [last, Bool.false_eq_true, if_false] at he
        rcases ServiceMap.mem_place he with rfl | old
        · simpa using last
        · exact h.occupied e old
    case cursors =>
      intro name i
      rw [h.ofService_remove, h.cursor_remove found]
      by_cases here : name = x.service
      · subst here
        rw [if_pos rfl]
        split
        · intro gone
          cases gone
        · rename_i some_left
          intro again
          obtain rfl := Option.some.inj again
          exact List.length_pos_iff.2 (by simpa using some_left)
      · rw [if_neg here, without_of_absent (h.absent_elsewhere found here)]
        exact h.cursors name i

/-! ## A record changes -/

/-- A record that changes in its place does not touch any cursor. -/
@[simp] theorem cursors_replace (s : Store) (x : Instance) :
    (s.replace x).cursors = s.cursors := by
  unfold replace
  split <;> rfl

/-- A replacement of a known record writes one list, and nothing else. -/
theorem Coherent.replace_known {s : Store} {x old : Instance} (h : s.Coherent)
    (found : s.find? x.id = some old) :
    s.replace x =
      { s with
        services := s.services.set old.service (substitute x (s.ofService old.service)) } := by
  obtain ⟨there, hid⟩ := h.find?_eq_some_iff.1 found
  obtain ⟨l, r, parts, place⟩ := h.split there
  have list := set_split hid.symm (parts ▸ h.distinct old.service)
  unfold replace
  rw [← hid, place]
  simp only [parts, list]

/-- There is no replacement of a record that is not there. -/
theorem Coherent.replace_unknown {s : Store} {x : Instance} (h : s.Coherent)
    (unknown : s.find? x.id = none) : s.replace x = s := by
  unfold replace
  rw [h.position?_of_unknown unknown]

/-- After a replacement every list has the new record in the place of the one with its id. -/
theorem Coherent.ofService_replace {s : Store} (h : s.Coherent) (x : Instance) (name : String) :
    (s.replace x).ofService name = substitute x (s.ofService name) := by
  cases found : s.find? x.id with
  | none => rw [h.replace_unknown found, substitute_of_absent (h.absent found)]
  | some old =>
    rw [h.replace_known found]
    show (s.services.set old.service _).get name = _
    rw [ServiceMap.get_set]
    split
    · rename_i here
      rw [here]
    · rename_i elsewhere
      rw [substitute_of_absent (h.absent_elsewhere found elsewhere)]
      rfl

/-- Who stands in the table after a replacement. -/
theorem Coherent.mem_all_replace {s : Store} {x y old : Instance} (h : s.Coherent)
    (found : s.find? x.id = some old) :
    y ∈ (s.replace x).all ↔ y = x ∨ (y ∈ s.all ∧ y.id ≠ x.id) := by
  obtain ⟨there, hid⟩ := h.find?_eq_some_iff.1 found
  simp only [mem_all, h.ofService_replace]
  constructor
  · rintro ⟨name, hy⟩
    rcases mem_substitute hy with ⟨rfl, -⟩ | ⟨hy, ne⟩
    · exact .inl rfl
    · exact .inr ⟨⟨name, hy⟩, ne⟩
  · rintro (rfl | ⟨⟨name, hy⟩, ne⟩)
    · refine ⟨old.service, List.mem_map.2 ⟨old, h.mem_all_iff.1 there, if_pos hid⟩⟩
    · exact ⟨name, List.mem_map.2 ⟨y, hy, if_neg ne⟩⟩

/-- The table after a record has changed in its place, whatever the map of endpoints. -/
theorem Coherent.replaced {s : Store} {x old : Instance} {owners : Index Endpoint String}
    (h : s.Coherent) (found : s.find? x.id = some old) (service : old.service = x.service)
    (owned : ∀ e id, owners.get? e = some id ↔
      (x.endpoint = e ∧ x.id = id) ∨ ∃ y ∈ s.all, y.id ≠ x.id ∧ y.endpoint = e ∧ y.id = id) :
    Coherent { s.replace x with owners } where
  listed name y hy := by
    change y ∈ (s.replace x).ofService name at hy
    rw [h.ofService_replace] at hy
    rcases mem_substitute hy with ⟨rfl, z, hz, hid⟩ | ⟨hy, -⟩
    · -- the new record stands where the old one stood
      have same := h.eq_of_id (mem_all.2 ⟨name, hz⟩) (h.find?_eq_some_iff.1 found).1
        (hid.trans (h.find?_eq_some_iff.1 found).2.symm)
      rw [← service, ← same, h.listed name z hz]
    · exact h.listed name y hy
  identified name y hy := by
    change y ∈ (s.replace x).ofService name at hy
    rw [h.ofService_replace] at hy
    rcases mem_substitute hy with ⟨rfl, z, hz, hid⟩ | ⟨hy, -⟩
    · exact hid ▸ h.identified name z hz
    · exact h.identified name y hy
  distinct name := by
    change (((s.replace x).ofService name).map (·.id)).Nodup
    rw [h.ofService_replace, ids_substitute]
    exact h.distinct name
  names id name := by
    change (s.replace x).names.get? id = some name ↔ ∃ y ∈ (s.replace x).ofService name, y.id = id
    -- neither the map of ids nor the ids of a list change
    have same : (s.replace x).names = s.names := by rw [h.replace_known found]
    have ids : (∃ y ∈ substitute x (s.ofService name), y.id = id)
        ↔ ∃ y ∈ s.ofService name, y.id = id := by
      simp only [← List.mem_map, ids_substitute]
    rw [same, h.names, h.ofService_replace, ids]
  owners e id := by
    change _ ↔ ∃ y ∈ (s.replace x).all, y.endpoint = e ∧ y.id = id
    rw [owned]
    simp only [h.mem_all_replace found]
    constructor
    · rintro (⟨he, hid⟩ | ⟨y, hy, ne, there⟩)
      · exact ⟨x, .inl rfl, he, hid⟩
      · exact ⟨y, .inr ⟨hy, ne⟩, there⟩
    · rintro ⟨y, rfl | ⟨hy, ne⟩, there⟩
      · exact .inl there
      · exact .inr ⟨y, hy, ne, there⟩
  occupied e he := by
    rw [h.replace_known found] at he
    rcases ServiceMap.mem_place he with rfl | old
    · obtain ⟨there, -⟩ := h.find?_eq_some_iff.1 found
      have here := h.mem_all_iff.1 there
      rw [← List.length_pos_iff, length_substitute]
      exact List.length_pos_of_mem here
    · exact h.occupied e old
  cursors name i := by
    change (s.replace x).cursors.get? name = some i → i < ((s.replace x).ofService name).length
    rw [cursors_replace, h.ofService_replace, length_substitute]
    exact h.cursors name i

/-- A record that keeps its identity may change in its place. -/
protected theorem Coherent.replace {s : Store} {x : Instance} (h : s.Coherent)
    (same : ∀ old, s.find? x.id = some old → old.identity = x.identity) :
    (s.replace x).Coherent := by
  cases found : s.find? x.id with
  | none => rwa [h.replace_unknown found]
  | some old =>
    have identity := same old found
    have service : old.service = x.service := congrArg Identity.service identity
    have endpoint : old.endpoint = x.endpoint := congrArg Identity.endpoint identity
    obtain ⟨there, hid⟩ := h.find?_eq_some_iff.1 found
    have owners : (s.replace x).owners = s.owners := by rw [h.replace_known found]
    show Coherent { s.replace x with owners := (s.replace x).owners }
    refine h.replaced found service fun e id => ?_
    rw [owners, h.owners]
    constructor
    · rintro ⟨y, hy, he, rfl⟩
      by_cases eq : y.id = x.id
      · obtain rfl := h.eq_of_id hy there (eq.trans hid.symm)
        exact .inl ⟨endpoint ▸ he, eq.symm⟩
      · exact .inr ⟨y, hy, eq, he, rfl⟩
    · rintro (⟨he, hx⟩ | ⟨y, hy, -, on⟩)
      · exact ⟨old, there, endpoint.trans he, hid.trans hx⟩
      · exact ⟨y, hy, on⟩

/-- A record may move to an endpoint that nobody else holds. -/
protected theorem Coherent.swap {s : Store} {x old : Instance} (h : s.Coherent)
    (found : s.find? x.id = some old) (service : old.service = x.service)
    (free : ∀ y ∈ s.all, y.endpoint = x.endpoint → y.id = x.id) : (s.swap old x).Coherent := by
  obtain ⟨there, hid⟩ := h.find?_eq_some_iff.1 found
  refine h.replaced found service fun e id => ?_
  rw [Index.get?_set]
  split
  · rename_i eq
    subst eq
    constructor
    · intro taken
      exact .inl ⟨rfl, Option.some.inj taken⟩
    · rintro (⟨-, rfl⟩ | ⟨y, hy, ne, at_, -⟩)
      · rfl
      · exact absurd (free y hy at_) ne
  · rename_i ne
    -- elsewhere only the endpoint that is given up changes hands
    have rest : (if old.endpoint = x.endpoint then s.owners
        else s.owners.erase old.endpoint).get? e
          = if e = old.endpoint then none else s.owners.get? e := by
      split
      · rename_i eq
        rw [if_neg (eq ▸ ne)]
      · exact Index.get?_erase ..
    rw [rest]
    split
    · rename_i eq
      constructor
      · intro gone
        cases gone
      · rintro (⟨he, -⟩ | ⟨y, hy, other, he, -⟩)
        · exact absurd he.symm ne
        · exact absurd (h.eq_of_endpoint hy there (he.trans eq) ▸ hid) other
    · rename_i away
      rw [h.owners]
      constructor
      · rintro ⟨y, hy, rfl, rfl⟩
        refine .inr ⟨y, hy, fun eq => away ?_, rfl, rfl⟩
        rw [h.eq_of_id hy there (eq.trans hid.symm)]
      · rintro (⟨he, -⟩ | ⟨y, hy, -, on⟩)
        · exact absurd he.symm ne
        · exact ⟨y, hy, on⟩

/-! ## A record is put -/

/-- A record that stays with its service changes in its place, and the endpoint that it leaves is
    given up. -/
theorem Coherent.put_known {s : Store} {x old : Instance} (h : s.Coherent)
    (found : s.find? x.id = some old) (service : old.service = x.service) :
    s.put x = s.swap old x := by
  unfold put
  rw [h.names_of_find? found, service, if_pos rfl, found]

/-- A record that is new, or comes to another service, is taken out and added at the end. -/
theorem Coherent.put_moved {s : Store} {x : Instance} (h : s.Coherent)
    (elsewhere : ∀ old, s.find? x.id = some old → old.service ≠ x.service) :
    s.put x = (s.remove x.id).2.insert x := by
  have unlisted : s.names.get? x.id ≠ some x.service := by
    cases found : s.find? x.id with
    | none => simp [h.names_of_unknown found]
    | some old => simpa [h.names_of_find? found] using elsewhere old found
  unfold put
  rw [if_neg unlisted]

/-- A record that is put drives out the one of its id, and no other one. -/
theorem Coherent.mem_all_put {s : Store} {x y : Instance} (h : s.Coherent) :
    y ∈ (s.put x).all ↔ y = x ∨ y ∈ s.all ∧ y.id ≠ x.id := by
  by_cases stays : ∃ old, s.find? x.id = some old ∧ old.service = x.service
  · obtain ⟨old, found, service⟩ := stays
    rw [h.put_known found service]
    exact h.mem_all_replace found
  · have elsewhere : ∀ old, s.find? x.id = some old → old.service ≠ x.service :=
      fun old found eq => stays ⟨old, found, eq⟩
    rw [h.put_moved elsewhere, mem_all_insert, h.mem_all_remove, or_comm]

/-- A record may be put where nobody else holds its endpoint. -/
protected theorem Coherent.put {s : Store} {x : Instance} (h : s.Coherent) (identified : x.id ≠ "")
    (free : ∀ y ∈ s.all, y.endpoint = x.endpoint → y.id = x.id) : (s.put x).Coherent := by
  by_cases stays : ∃ old, s.find? x.id = some old ∧ old.service = x.service
  · obtain ⟨old, found, service⟩ := stays
    rw [h.put_known found service]
    exact h.swap found service free
  · have elsewhere : ∀ old, s.find? x.id = some old → old.service ≠ x.service :=
      fun old found eq => stays ⟨old, found, eq⟩
    rw [h.put_moved elsewhere]
    have removed := h.remove x.id
    refine removed.insert identified ?_ ?_
    · rw [removed.find?_eq_none_iff]
      exact fun y hy => (h.mem_all_remove.1 hy).2
    · rw [removed.owner?_eq_none_iff]
      intro y hy at_
      obtain ⟨hy, ne⟩ := h.mem_all_remove.1 hy
      exact ne (free y hy at_)

/-! ## Cursors -/

/-- A cursor may be set to a place inside its list. -/
theorem Coherent.setCursor {s : Store} {name : String} {i : Nat} (h : s.Coherent)
    (inside : i < (s.ofService name).length) :
    Coherent { s with cursors := s.cursors.set name i } where
  listed := h.listed
  identified := h.identified
  distinct := h.distinct
  names := h.names
  owners := h.owners
  occupied := h.occupied
  cursors other j := by
    show (s.cursors.set name i).get? other = some j → j < (s.ofService other).length
    rw [Index.get?_set]
    split
    · rintro ⟨⟩
      rename_i eq
      rwa [eq]
    · exact h.cursors other j

end ServiceRegistry.Store
