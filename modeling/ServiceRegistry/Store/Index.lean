/-
  Finite maps, as lists of keys with their values.

  The view is `get?`; each operation has one equation through it.

    * `get?_set`, `get?_erase`, `set_set`.
-/

namespace ServiceRegistry

/-- Values by key, at most one for each key. -/
structure Index (κ ν : Type) where
  entries : List (κ × ν) := []
  deriving DecidableEq, Repr

namespace Index

variable {κ ν : Type} [DecidableEq κ]

/-- The value of a key. -/
def get? (m : Index κ ν) (k : κ) : Option ν :=
  (m.entries.find? (·.1 = k)).map (·.2)

/-- Forgets the value of a key. -/
def erase (m : Index κ ν) (k : κ) : Index κ ν :=
  ⟨m.entries.filter (·.1 ≠ k)⟩

/-- Sets the value of a key. -/
def set (m : Index κ ν) (k : κ) (v : ν) : Index κ ν :=
  ⟨(k, v) :: (m.erase k).entries⟩

@[simp] theorem get?_erase (m : Index κ ν) (k other : κ) :
    (m.erase k).get? other = if other = k then none else m.get? other := by
  simp only [get?, erase, List.find?_filter]
  split
  · subst other; simp
  · rename_i h
    congr 2
    funext x
    by_cases hx : x.1 = other <;> simp [hx, h]

@[simp] theorem get?_set (m : Index κ ν) (k other : κ) (v : ν) :
    (m.set k v).get? other = if other = k then some v else m.get? other := by
  by_cases h : other = k
  · simp [set, get?, h]
  · rw [if_neg h, ← (get?_erase m k other).trans (if_neg h)]
    simp [set, get?, Ne.symm h]

/-- Of two values set one after the other the second one counts. -/
@[simp] theorem set_set (m : Index κ ν) (k : κ) (v w : ν) : (m.set k v).set k w = m.set k w := by
  simp [set, erase, List.filter_filter]

end Index

end ServiceRegistry
