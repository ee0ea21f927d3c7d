/-
  Blank characters and trimming.

  `isBlank` is the Unicode property `White_Space`, all 25 characters of it.  Trimming works on the
  character list: `trimEnd p` drops the longest suffix inside `p`, `trim` drops blanks at both ends.

    * `trimEnd_append_of_all`   a suffix inside `p` is dropped;
    * `trimEnd_of_last`         nothing is dropped when the last character is outside `p`.
-/

namespace ServiceRegistry.Text

/-! ## The property `White_Space` -/

/-- Whether `c` has the Unicode property `White_Space`. -/
def isBlank (c : Char) : Bool :=
  let n := c.toNat
  (0x09 ≤ n && n ≤ 0x0D) || n == 0x20 || n == 0x85 || n == 0xA0 || n == 0x1680
    || (0x2000 ≤ n && n ≤ 0x200A) || n == 0x2028 || n == 0x2029 || n == 0x202F
    || n == 0x205F || n == 0x3000

/-! ## Trimming -/

/-- Drops the longest suffix whose characters satisfy `p`. -/
def trimEnd (p : Char → Bool) (cs : List Char) : List Char :=
  (cs.reverse.dropWhile p).reverse

/-- Drops blanks at both ends. -/
def trim (cs : List Char) : List Char :=
  trimEnd isBlank (cs.dropWhile isBlank)

theorem trimEnd_append_of_all (p : Char → Bool) (cs ds : List Char) (h : ∀ d ∈ ds, p d = true) :
    trimEnd p (cs ++ ds) = trimEnd p cs := by
  unfold trimEnd
  rw [List.reverse_append, List.dropWhile_append_of_pos]
  intro d hd
  exact h d (List.mem_reverse.1 hd)

example : trimEnd (· == '/') "http://n1//".toList = "http://n1".toList := by decide

theorem trimEnd_of_last (p : Char → Bool) (cs : List Char) (c : Char) (h : p c = false) :
    trimEnd p (cs ++ [c]) = cs ++ [c] := by
  simp [trimEnd, h]

end ServiceRegistry.Text
