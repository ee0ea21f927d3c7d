/-
  Expiry in whole numbers.

  1. **Words.**  How long ago a heartbeat was is computed in words of 64 bits, and a timeout that
     does not fit into a signed one is cut.  While the clock does not stand before zero nothing
     comes of either: the difference does not overflow (`toInt_sub_of_nonneg`), and no record is as
     old as the longest timeout that is not cut.  So a record is expired just when it is overdue in
     whole numbers (`isExpired_iff`).
  2. **One record.**  The scan lists the records that are overdue (`expired_eq_overdue`), and a
     record is taken out on condition just when it is one of them (`removeIfExpired_of_overdue`,
     `removeIfExpired_of_live`).
  3. **Many records.**  Records that are taken out one after another leave the others as and where
     they were (`all_removes`), and without the overdue ones none is overdue
     (`overdue_removes_overdue`).
-/
import ServiceRegistry.Proofs.Store.Listing
import ServiceRegistry.Proofs.Store.Operations

namespace ServiceRegistry

/-! ## Words -/

/-- A heartbeat that is set lies more than the timeout before the clock. -/
def Instance.Overdue (now : Int) (timeout : Nat) (x : Instance) : Prop :=
  0 < x.heartbeat.secs.toInt ∧ timeout < now - x.heartbeat.secs.toInt

instance (now : Int) (timeout : Nat) (x : Instance) : Decidable (x.Overdue now timeout) :=
  inferInstanceAs (Decidable (_ ∧ _))

/-- The difference of two readings of the clock does not overflow. -/
theorem toInt_sub_of_nonneg {a b : Int64} (ha : 0 ≤ a) (hb : 0 ≤ b) :
    (a - b).toInt = a.toInt - b.toInt := by
  have := Int64.le_iff_toInt_le.1 ha
  have := Int64.le_iff_toInt_le.1 hb
  have := Int64.toInt_lt a
  have := Int64.toInt_lt b
  have zero : (0 : Int64).toInt = 0 := rfl
  rw [Int64.toInt_sub]
  exact Int.bmod_eq_of_le (by omega) (by omega)

/-- A time-out of more than 63 bits turns negative when it is compared as a signed number. -/
theorem toInt_toInt64 (t : UInt64) : t.toInt64.toInt = (t.toNat : Int).bmod UInt64.size := by
  rw [← Int64.toInt_toBitVec, UInt64.toBitVec_toInt64, BitVec.toInt_eq_toNat_bmod,
    UInt64.toNat_toBitVec]

/-- A timeout that does not fit into a signed word is cut to the largest one. -/
theorem toInt_timeoutSecs (timeout : UInt64) :
    (timeoutSecs timeout).toInt = min (timeout.toNat : Int) Int64.maxValue.toInt := by
  have word := timeout.toNat_lt
  have size : UInt64.size = 18446744073709551616 := rfl
  have most : Int64.maxValue.toInt = 9223372036854775807 := rfl
  have zero : (0 : Int64).toInt = 0 := rfl
  have signed := toInt_toInt64 timeout
  unfold timeoutSecs
  split
  · rename_i negative
    rw [Int64.lt_iff_toInt_lt, zero] at negative
    have long : 9223372036854775807 < timeout.toNat := by
      refine Nat.lt_of_not_le fun short => ?_
      rw [signed, Int.bmod_eq_of_le (by omega) (by omega)] at negative
      omega
    omega
  · rename_i nonneg
    rw [Int64.lt_iff_toInt_lt, zero] at nonneg
    have short : timeout.toNat ≤ 9223372036854775807 := by
      refine Nat.le_of_not_lt fun long => ?_
      have wraps : (timeout.toNat : Int).bmod UInt64.size = timeout.toNat - UInt64.size := by
        rw [← Int.sub_bmod_right]
        exact Int.bmod_eq_of_le (by omega) (by omega)
      omega
    rw [signed, Int.bmod_eq_of_le (by omega) (by omega)]
    omega

/-- With a clock that is not negative the check of the program is the one in whole numbers, whatever
    the time-out: one that would turn negative is taken for endless. -/
theorem Instance.isExpired_iff {now : Int64} (clock : 0 ≤ now) (timeout : UInt64) (x : Instance) :
    x.isExpired now timeout ↔ x.Overdue now.toInt timeout.toNat := by
  unfold isExpired Overdue
  rw [Bool.and_eq_true, decide_eq_true_eq, decide_eq_true_eq, Int64.lt_iff_toInt_lt,
    Int64.lt_iff_toInt_lt]
  refine and_congr_right fun set => ?_
  have nonneg : 0 ≤ x.heartbeat.secs := Int64.le_iff_toInt_le.2 (Int.le_of_lt set)
  have most : now.toInt ≤ Int64.maxValue.toInt := Int64.le_iff_toInt_le.1 (Int64.le_maxValue now)
  have zero : (0 : Int64).toInt = 0 := rfl
  rw [toInt_sub_of_nonneg clock nonneg, toInt_timeoutSecs]
  -- no record is as old as the longest timeout that is not cut
  omega

namespace Store

variable {s : Store} {now : Int64}

/-! ## One record -/

/-- The records that are overdue, in listing order. -/
def overdue (now : Int) (timeout : Nat) (s : Store) : List Instance :=
  s.all.filter (·.Overdue now timeout)

/-- Who is overdue: a stored record for which the time is up. -/
theorem mem_overdue {now : Int} {timeout : Nat} {x : Instance} :
    x ∈ s.overdue now timeout ↔ x ∈ s.all ∧ x.Overdue now timeout := by
  rw [overdue, List.mem_filter, decide_eq_true_eq]

/-- Either a record of the id is overdue, or none is. -/
theorem overdue_cases (now : Int) (timeout : Nat) (s : Store) (id : String) :
    (∃ x ∈ s.overdue now timeout, x.id = id) ∨ ∀ x ∈ s.overdue now timeout, x.id ≠ id := by
  by_cases late : ∃ x ∈ s.overdue now timeout, x.id = id
  · exact .inl late
  · exact .inr fun x hx same => late ⟨x, hx, same⟩

/-- The listing of expired records is right, and in the order of the table. -/
theorem expired_eq_overdue (clock : 0 ≤ now) (timeout : UInt64) (s : Store) :
    s.expired now timeout = s.overdue now.toInt timeout.toNat := by
  refine List.filter_congr fun x _ => ?_
  rw [Bool.eq_iff_iff, decide_eq_true_eq]
  exact Instance.isExpired_iff clock timeout x

namespace Coherent

/-- An overdue record is taken out and reported. -/
theorem removeIfExpired_of_overdue (h : s.Coherent) (clock : 0 ≤ now) {timeout : UInt64}
    {x : Instance} (late : x ∈ s.overdue now.toInt timeout.toNat) :
    s.removeIfExpired x.id now timeout = (some x, (s.remove x.id).2) := by
  obtain ⟨hx, late⟩ := mem_overdue.1 late
  have found : s.find? x.id = some x := h.find?_eq_some_iff.2 ⟨hx, rfl⟩
  have gone : (s.remove x.id).1 = some x := h.fst_remove.trans found
  have expired : x.isExpired now timeout := (Instance.isExpired_iff clock timeout x).2 late
  unfold Store.removeIfExpired
  rw [found]
  dsimp only
  rw [if_pos expired, ← gone]

/-- Under an id that no overdue record has nothing happens. -/
theorem removeIfExpired_of_live (h : s.Coherent) (clock : 0 ≤ now) {timeout : UInt64} {id : String}
    (live : ∀ x ∈ s.overdue now.toInt timeout.toNat, x.id ≠ id) :
    s.removeIfExpired id now timeout = (none, s) := by
  rcases s.removeIfExpired_cases id now timeout with eq | ⟨x, found, expired, -⟩
  · exact eq
  · obtain ⟨hx, same⟩ := h.find?_eq_some_iff.1 found
    have late := (Instance.isExpired_iff clock timeout x).1 expired
    exact absurd same (live x (mem_overdue.2 ⟨hx, late⟩))

/-- A removal leaves the listing without the id. -/
theorem all_remove (h : s.Coherent) (id : String) :
    (s.remove id).2.all = s.all.filter (·.id ≠ id) :=
  (h.remove id).all_eq_filter fun name => h.ofService_remove id name

end Coherent

/-! ## Many records -/

/-- The table without these records, which are taken out one after another. -/
def removes (xs : List Instance) (s : Store) : Store := xs.foldl (fun s x => (s.remove x.id).2) s

namespace Coherent

variable {xs : List Instance}

/-- A record is left when its id is none of those that were taken out. -/
theorem all_removes (h : s.Coherent) {p : Instance → Bool}
    (left : ∀ y ∈ s.all, p y = true ↔ ∀ x ∈ xs, y.id ≠ x.id) :
    (s.removes xs).all = s.all.filter p := by
  induction xs generalizing s with
  | nil => exact (List.filter_eq_self.2 fun y hy => (left y hy).2 fun x hx => nomatch hx).symm
  | cons x xs ih =>
    have later : ∀ y ∈ (s.remove x.id).2.all, p y = true ↔ ∀ z ∈ xs, y.id ≠ z.id := by
      intro y hy
      obtain ⟨hy, apart⟩ := h.mem_all_remove.1 hy
      rw [left y hy, List.forall_mem_cons]
      exact and_iff_right apart
    rw [removes, List.foldl_cons]
    refine (ih (h.remove x.id) later).trans ?_
    rw [h.all_remove, List.filter_filter]
    refine List.filter_congr fun y hy => ?_
    rw [Bool.eq_iff_iff, Bool.and_eq_true]
    refine and_iff_left_of_imp fun stays => ?_
    exact decide_eq_true ((left y hy).1 stays x List.mem_cons_self)

/-- Without the overdue records the others are left. -/
theorem all_removes_overdue (h : s.Coherent) (now : Int) (timeout : Nat) :
    (s.removes (s.overdue now timeout)).all = s.all.filter (¬ ·.Overdue now timeout) := by
  refine h.all_removes fun y hy => ?_
  rw [decide_eq_true_eq]
  constructor
  · intro live x late same
    obtain ⟨hx, late⟩ := mem_overdue.1 late
    exact live (h.eq_of_id hy hx same ▸ late)
  · intro other late
    exact other y (mem_overdue.2 ⟨hy, late⟩) rfl

/-- Then none is overdue any more. -/
theorem overdue_removes_overdue (h : s.Coherent) (now : Int) (timeout : Nat) :
    (s.removes (s.overdue now timeout)).overdue now timeout = [] := by
  rw [overdue, h.all_removes_overdue, List.filter_filter]
  refine List.filter_eq_nil_iff.2 fun x _ both => ?_
  simp at both

end Coherent

end Store

end ServiceRegistry
