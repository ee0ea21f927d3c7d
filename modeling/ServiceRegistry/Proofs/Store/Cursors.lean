/-
  The cursors of a table, as they are given away and taken over.

  1. A map of cursors never has a name twice in the list behind it (`Index.Keyed`), whatever was
     done to the table: `keyed_carryOut` for one operation, `keyed_run` for a run.
  2. Cursors with distinct names are taken over one by one (`get?_adopt`), and the cursors of a
     table with the same lists as they are (`get?_adopt_of_services`).
-/
import ServiceRegistry.Proofs.Store.Records
import ServiceRegistry.Proofs.Store.Runs

namespace ServiceRegistry

/-! ## Names -/

/-- No key occurs twice in the list behind a map. -/
def Index.Keyed {κ ν : Type} (m : Index κ ν) : Prop := (m.entries.map (·.1)).Nodup

/-- The cursors begin with no keys at all. -/
theorem Index.keyed_empty {κ ν : Type} : Keyed ({} : Index κ ν) := List.nodup_nil

namespace Index.Keyed

variable {κ ν : Type} [DecidableEq κ] {m : Index κ ν}

/-- Dropping an entry leaves no key twice. -/
theorem erase (h : m.Keyed) (k : κ) : (m.erase k).Keyed :=
  h.sublist (List.filter_sublist.map _)

/-- Nor does setting one, which drops the old entry for the key first. -/
theorem set (h : m.Keyed) (k : κ) (v : ν) : (m.set k v).Keyed := by
  refine List.nodup_cons.2 ⟨fun there => ?_, h.erase k⟩
  obtain ⟨e, he, eq⟩ := List.mem_map.1 there
  exact absurd eq (by simpa using (List.mem_filter.1 he).2)

/-- An entry is found by its key. -/
theorem get?_of_mem (h : m.Keyed) {e : κ × ν} (he : e ∈ m.entries) : m.get? e.1 = some e.2 := by
  obtain ⟨entries⟩ := m
  unfold get?
  induction entries with
  | nil => exact absurd he List.not_mem_nil
  | cons d ds ih =>
    obtain ⟨fresh, rest⟩ := List.nodup_cons.1 h
    rcases List.mem_cons.1 he with rfl | there
    · simp
    · have other : d.1 ≠ e.1 := fun eq => fresh (List.mem_map.2 ⟨e, there, eq.symm⟩)
      simpa [other] using ih rest there

end Index.Keyed

namespace Store

variable {s : Store} {now : Int64}

section Keyed

variable (h : s.cursors.Keyed)
include h

/-- Each change of a table sets or drops single cursors, so that no service ever has two. -/
theorem keyed_replace (x : Instance) : (s.replace x).cursors.Keyed := by
  rwa [cursors_replace]

theorem keyed_remove (id : String) : (s.remove id).2.cursors.Keyed := by
  unfold remove
  split
  · dsimp only
    split
    · exact h.erase _
    · exact h.set _ _
  · exact h

theorem keyed_put (x : Instance) : (s.put x).cursors.Keyed := by
  unfold put
  split
  · split
    · exact keyed_replace h x
    · exact h
  · exact keyed_remove h x.id

/-- The same for what other nodes hand over, records and cursors. -/
theorem keyed_merge (x : Instance) : (s.merge now x).2.cursors.Keyed := by
  rcases merge_cases now x s with ⟨-, eq⟩ | ⟨-, eq⟩
  · rwa [eq]
  · rw [eq]
    refine keyed_put ?_ _
    unfold clear
    split
    · split
      · exact h
      · exact keyed_remove h _
    · exact h

theorem keyed_adopt (cursors : List (String × Int64)) : (s.adopt cursors).2.cursors.Keyed := by
  show (cursors.foldl (fun s c => s.adoptOne c.1 c.2) s).cursors.Keyed
  induction cursors generalizing s with
  | nil => exact h
  | cons c cs ih =>
    refine ih (s := s.adoptOne c.1 c.2) ?_
    unfold adoptOne
    dsimp only
    split
    · exact h
    · exact h.set _ _

/-- No operation gives a service two cursors. -/
theorem keyed_carryOut (o : Operation) : (s.carryOut now o).cursors.Keyed := by
  have step := step_carryOut now o s
  generalize s.carryOut now o = t at step
  cases step with
  | idle | inserts => exact h
  | beats => exact keyed_replace h _
  | removes => exact keyed_remove h _
  | merges => exact keyed_merge h _
  | turns => exact h.set _ _
  | adopts cursors => exact keyed_adopt h cursors

/-- So no service ever has two cursors. -/
theorem keyed_run (ops : List (Int64 × Operation)) : (s.run ops).cursors.Keyed := by
  induction ops generalizing s with
  | nil => exact h
  | cons o os ih => exact ih (keyed_carryOut h o.2)

end Keyed

/-- A cursor that is taken over for another service moves none. -/
theorem get?_adoptOne_of_ne (s : Store) {name other : String} (ne : name ≠ other) (i : Int64) :
    (s.adoptOne other i).cursors.get? name = s.cursors.get? name := by
  unfold adoptOne
  dsimp only
  split
  · rfl
  · rw [Index.get?_set, if_neg ne]

/-- A service of which the cursors handed over say nothing keeps its own. -/
theorem get?_adopt_of_absent (s : Store) {cursors : List (String × Int64)} {name : String}
    (absent : name ∉ cursors.map (·.1)) :
    (s.adopt cursors).2.cursors.get? name = s.cursors.get? name := by
  show (cursors.foldl (fun s c => s.adoptOne c.1 c.2) s).cursors.get? name = _
  induction cursors generalizing s with
  | nil => rfl
  | cons c cs ih =>
    rw [List.map_cons, List.mem_cons, not_or] at absent
    rw [List.foldl_cons, ih _ absent.2, get?_adoptOne_of_ne s absent.1]

/-- Each cursor is taken over for itself, where its service is known. -/
theorem get?_adopt (s : Store) {cursors : List (String × Int64)}
    (distinct : (cursors.map (·.1)).Nodup) (name : String) :
    (s.adopt cursors).2.cursors.get? name =
      match cursors.find? (·.1 = name) with
      | none => s.cursors.get? name
      | some c =>
        if (s.ofService name).length = 0 then s.cursors.get? name
        else some (clampCursor (s.ofService name).length c.2) := by
  show (cursors.foldl (fun s c => s.adoptOne c.1 c.2) s).cursors.get? name = _
  induction cursors generalizing s with
  | nil => rfl
  | cons c cs ih =>
    obtain ⟨fresh, distinct⟩ := List.nodup_cons.1 distinct
    rw [List.foldl_cons, ih (s.adoptOne c.1 c.2) distinct,
      (SameRecords.adoptOne s c.1 c.2).ofService, List.find?_cons]
    by_cases own : c.1 = name
    · have done : cs.find? (·.1 = name) = none := by
        refine List.find?_eq_none.2 fun d hd eq => fresh ?_
        exact List.mem_map.2 ⟨d, hd, (of_decide_eq_true eq).trans own.symm⟩
      subst own
      simp only [done, decide_true]
      unfold adoptOne
      dsimp only
      split
      · rfl
      · rw [Index.get?_set, if_pos rfl]
    · rw [get?_adoptOne_of_ne s (Ne.symm own)]
      simp [own]

/-- A cursor inside its list survives being written as a signed number and clamped again. -/
theorem clampCursor_of_lt {n i : Nat} (inside : i < n) (short : n ≤ Int64.maxValue.toInt) :
    clampCursor n (Int64.ofInt i) = i := by
  have most : Int64.maxValue.toInt = 2 ^ 63 - 1 := by decide
  have whole : (Int64.ofInt i).toInt = i := Int64.toInt_ofInt_of_le (by omega) (by omega)
  rw [clampCursor, whole]
  omega

/-- The cursors of a table with the same lists are taken over as they are. -/
theorem Coherent.get?_adopt_of_services {t : Store} (h : s.Coherent) (keyed : s.cursors.Keyed)
    (services : t.services = s.services)
    (short : ∀ name, (s.ofService name).length ≤ Int64.maxValue.toInt)
    (unset : ∀ name, t.cursors.get? name = none) (name : String) :
    (t.adopt (s.cursors.entries.map fun e => (e.1, Int64.ofInt e.2))).2.cursors.get? name
      = s.cursors.get? name := by
  have list : t.ofService name = s.ofService name := by rw [ofService, services, ofService]
  have distinct : ((s.cursors.entries.map fun e => (e.1, Int64.ofInt e.2)).map (·.1)).Nodup := by
    rw [List.map_map]
    exact keyed
  have looked : (s.cursors.entries.map fun e => (e.1, Int64.ofInt e.2)).find? (·.1 = name)
      = (s.cursors.entries.find? (·.1 = name)).map fun e => (e.1, Int64.ofInt e.2) := by
    rw [List.find?_map]
    rfl
  have given : s.cursors.get? name = (s.cursors.entries.find? (·.1 = name)).map (·.2) := rfl
  rw [get?_adopt t distinct, looked]
  cases found : s.cursors.entries.find? (·.1 = name) with
  | none =>
    rw [given, found]
    exact unset name
  | some e =>
    have inside : e.2 < (s.ofService name).length := h.cursors name e.2 (by rw [given, found]; rfl)
    have some_there : (s.ofService name).length ≠ 0 := by omega
    rw [given, found]
    simp only [Option.map_some, list, if_neg some_there, clampCursor_of_lt inside (short name)]

/-! ## Picks -/

/-- What queries for these names find, one after another. -/
def picks : List String → Store → List (Except RegistryError (List Instance))
  | [], _ => []
  | name :: names, s => (s.discover name).1 :: picks names (s.discover name).2

/-- Two tables that queries cannot tell apart. -/
structure Alike (s t : Store) : Prop where
  services : s.services = t.services
  cursors : ∀ name, s.cursors.get? name = t.cursors.get? name

namespace Alike

variable {t : Store}

/-- A query finds the same in both, and they are alike again. -/
theorem discover (h : s.Alike t) (name : String) :
    (s.discover name).1 = (t.discover name).1 ∧ (s.discover name).2.Alike (t.discover name).2 := by
  have list : s.ofService name = t.ofService name := by rw [ofService, h.services, ofService]
  have all : s.all = t.all := by rw [Store.all, h.services, Store.all]
  unfold Store.discover
  rw [all, list, h.cursors name]
  split
  · exact ⟨rfl, h⟩
  · dsimp only
    split
    · exact ⟨rfl, h⟩
    · refine ⟨rfl, h.services, fun other => ?_⟩
      rw [Index.get?_set, Index.get?_set, h.cursors]

theorem picks (h : s.Alike t) (names : List String) : s.picks names = t.picks names := by
  induction names generalizing s t with
  | nil => rfl
  | cons name names ih =>
    obtain ⟨found, after⟩ := h.discover name
    rw [Store.picks, Store.picks, found, ih after]

end Alike

end Store

end ServiceRegistry
