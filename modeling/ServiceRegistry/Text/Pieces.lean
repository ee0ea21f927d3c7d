/-
  Cutting text at a separator.

  `pieces sep` cuts at every separator; there is always one piece more than there are separators.

    * `pieces_of_absent`  text without a separator is one piece.
-/

namespace ServiceRegistry.Text

/-- The pieces between the separators. -/
def pieces (sep : Char) : List Char → List (List Char)
  | [] => [[]]
  | c :: cs =>
    if c = sep then [] :: pieces sep cs
    else match pieces sep cs with
      | [] => [[c]]
      | p :: ps => (c :: p) :: ps

/-- What stands before the first separator and, if there is one, what stands after it. -/
def cut (sep : Char) (cs : List Char) : List Char × Option (List Char) :=
  match cs.dropWhile (· ≠ sep) with
  | [] => (cs, none)
  | _ :: rest => (cs.takeWhile (· ≠ sep), some rest)

theorem pieces_of_absent {sep : Char} {cs : List Char} (h : sep ∉ cs) : pieces sep cs = [cs] := by
  induction cs with
  | nil => rfl
  | cons c cs ih =>
    simp only [List.mem_cons, not_or] at h
    simp [pieces, Ne.symm h.1, ih h.2]

end ServiceRegistry.Text
