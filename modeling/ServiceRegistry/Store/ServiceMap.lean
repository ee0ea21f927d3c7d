/-
  The records of each service.

  A service has a list: its records in the order of their arrival, which is the order of the
  round robin.  The lists stand in the order of the names of their services.

    * `get`, `all`   the views: the list of one service, and the records of all;
    * `get_set`, `get_erase`   the changes through the views;
    * `mem_all`, `length_all`   the records of all are those of each.
-/
import ServiceRegistry.Instance.Basic

namespace ServiceRegistry

/-- ServiceMap by the names of their services, in the order of the names. -/
structure ServiceMap where
  entries : List (String × List Instance)
  sorted : entries.Pairwise (·.1 < ·.1)
  deriving DecidableEq, Repr

namespace ServiceMap

/-- No lists. -/
def empty : ServiceMap := ⟨[], .nil⟩

/-! ## Views -/

/-- The list of a service, empty when there is none. -/
def get (c : ServiceMap) (name : String) : List Instance :=
  ((c.entries.find? (·.1 = name)).map (·.2)).getD []

/-- All records, services in the order of their names. -/
def all (c : ServiceMap) : List Instance := c.entries.flatMap (·.2)

/-- The number of records. -/
def size (c : ServiceMap) : Nat := c.entries.foldr (fun e n => e.2.length + n) 0

/-! ## Changes -/

/-- Puts a list in the place of its name. -/
def place (name : String) (xs : List Instance) :
    List (String × List Instance) → List (String × List Instance)
  | [] => [(name, xs)]
  | e :: es =>
    if e.1 < name then e :: place name xs es
    else if e.1 = name then (name, xs) :: es
    else (name, xs) :: e :: es

theorem mem_place {name : String} {xs : List Instance} {es : List (String × List Instance)}
    {e : String × List Instance} (h : e ∈ place name xs es) : e = (name, xs) ∨ e ∈ es := by
  induction es with
  | nil => simpa [place] using h
  | cons d ds ih =>
    unfold place at h
    split at h
    · rcases List.mem_cons.1 h with rfl | h
      · exact .inr (List.mem_cons_self ..)
      · exact (ih h).imp_right (List.mem_cons_of_mem _)
    · split at h
      · exact (List.mem_cons.1 h).imp_right (List.mem_cons_of_mem _)
      · exact List.mem_cons.1 h

theorem sorted_place (name : String) (xs : List Instance) {es : List (String × List Instance)}
    (h : es.Pairwise (·.1 < ·.1)) : (place name xs es).Pairwise (·.1 < ·.1) := by
  induction es with
  | nil => simp [place]
  | cons e es ih =>
    obtain ⟨first, rest⟩ := List.pairwise_cons.1 h
    unfold place
    split
    · rename_i lt
      refine List.pairwise_cons.2 ⟨fun d hd => ?_, ih rest⟩
      rcases mem_place hd with rfl | hd
      · exact lt
      · exact first d hd
    · split
      · rename_i eq
        exact List.pairwise_cons.2 ⟨fun d hd => eq ▸ first d hd, rest⟩
      · rename_i ge ne
        have lt : name < e.1 := by
          rcases Decidable.em (name < e.1) with lt | le
          · exact lt
          · exact absurd (String.le_antisymm (String.not_lt.1 le) (String.not_lt.1 ge)) ne
        refine List.pairwise_cons.2 ⟨fun d hd => ?_, h⟩
        rcases List.mem_cons.1 hd with rfl | hd
        · exact lt
        · exact String.lt_trans lt (first d hd)

/-- Sets the list of a service. -/
def set (c : ServiceMap) (name : String) (xs : List Instance) : ServiceMap :=
  ⟨place name xs c.entries, sorted_place name xs c.sorted⟩

/-- Forgets a service. -/
def erase (c : ServiceMap) (name : String) : ServiceMap :=
  ⟨c.entries.filter (·.1 ≠ name), c.sorted.filter _⟩

/-! ## The changes through the views -/

theorem find?_place (name other : String) (xs : List Instance)
    (es : List (String × List Instance)) :
    (place name xs es).find? (·.1 = other)
      = if other = name then some (name, xs) else es.find? (·.1 = other) := by
  induction es with
  | nil =>
    by_cases h : other = name
    · simp [place, h]
    · simp [place, h, Ne.symm h]
  | cons e es ih =>
    unfold place
    split
    · rename_i lt
      by_cases h : e.1 = other
      · have ne : other ≠ name := fun eq => String.lt_irrefl name (by rwa [h, eq] at lt)
        simp [h, ne]
      · simpa [h] using ih
    · split
      · rename_i eq
        by_cases h : other = name
        · simp [h]
        · simp [h, eq, Ne.symm h]
      · by_cases h : other = name
        · simp [h]
        · simp [h, Ne.symm h]

@[simp] theorem get_set (c : ServiceMap) (name other : String) (xs : List Instance) :
    (c.set name xs).get other = if other = name then xs else c.get other := by
  unfold get set
  rw [find?_place]
  split <;> rfl

@[simp] theorem get_erase (c : ServiceMap) (name other : String) :
    (c.erase name).get other = if other = name then [] else c.get other := by
  simp only [get, erase, List.find?_filter]
  split
  · rename_i h
    have none_left : ∀ e ∈ c.entries, ¬ (e.1 ≠ name ∧ e.1 = other) :=
      fun e _ he => he.1 (he.2.trans h)
    rw [List.find?_eq_none.2 (by simpa using none_left)]
    rfl
  · rename_i h
    congr 3
    funext e
    by_cases he : e.1 = other <;> simp [he, h]

theorem find?_of_mem {es : List (String × List Instance)} {e : String × List Instance}
    (sorted : es.Pairwise (·.1 < ·.1)) (h : e ∈ es) : es.find? (·.1 = e.1) = some e := by
  induction es with
  | nil => exact absurd h List.not_mem_nil
  | cons d ds ih =>
    obtain ⟨lt, rest⟩ := List.pairwise_cons.1 sorted
    rcases List.mem_cons.1 h with rfl | h
    · simp
    · have ne : d.1 ≠ e.1 := fun eq => String.lt_irrefl e.1 (by simpa [eq] using lt e h)
      simpa [ne] using ih rest h

theorem get_of_mem {c : ServiceMap} {e : String × List Instance} (h : e ∈ c.entries) :
    c.get e.1 = e.2 := by
  rw [get, find?_of_mem c.sorted h]
  rfl

theorem mem_all {c : ServiceMap} {x : Instance} : x ∈ c.all ↔ ∃ name, x ∈ c.get name := by
  constructor
  · intro h
    obtain ⟨e, he, hx⟩ := List.mem_flatMap.1 h
    exact ⟨e.1, get_of_mem he ▸ hx⟩
  · rintro ⟨name, hx⟩
    unfold get at hx
    cases found : c.entries.find? (·.1 = name) with
    | none => simp [found] at hx
    | some e =>
      rw [found] at hx
      exact List.mem_flatMap.2 ⟨e, List.mem_of_find?_eq_some found, hx⟩

theorem length_all (c : ServiceMap) : c.all.length = c.size := by
  unfold all size
  induction c.entries with
  | nil => rfl
  | cons e es ih => rw [List.flatMap_cons, List.length_append, ih, List.foldr_cons]

end ServiceMap

end ServiceRegistry
