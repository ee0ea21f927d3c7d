/-
  What a sweep removes.

  A sweep finds the records that are overdue and evicts them one after another.  Each eviction reads
  the role and the clock anew and looks at the record that is in the table then.

  1. **One eviction.**  It goes by the record of the id as it stands: one that is overdue goes
     (`evict_of_overdue`), and without one nothing happens (`evict_of_live`).
  2. **A sweep at rest.**  While nothing else happens each record that was found is still there and
     still overdue when its turn comes, for no two share an id (`evictAll_of_overdue`).  So the
     overdue records go, they alone (`sweep_of_overdue`), and at the same clock none is left
     (`expiry_is_exact`).
  3. **A sweep amid other things.**  Anything may happen before each eviction
     (`ServiceState.Drifts`); the table stays coherent, and this is all that an eviction needs
     (`Eviction.lawful`, `sweep_spares_live`).
-/
import ServiceRegistry.Proofs.Service.Accounts
import ServiceRegistry.Proofs.Store.Overdue

namespace ServiceRegistry

/-- A counter may be moved on in two steps. -/
@[simp] theorem Counters.add_add (c : Counters) (k : Counter) (m n : UInt64) :
    (c.add k m).add k n = c.add k (m + n) := by
  cases k <;> simp [Counters.add, UInt64.add_assoc]

namespace Service

variable {s : Service} {now : Int64} {timeout : UInt64} {xs : List Instance}

/-! ## One eviction -/

/-- The overdue record of an id is the one that goes. -/
theorem evict_of_overdue (h : s.store.Coherent) (clock : 0 ≤ now) {x : Instance}
    (late : x ∈ s.store.overdue now.toInt timeout.toNat) :
    s.evict true now timeout x.id
      = (true, { s with store := (s.store.remove x.id).2 }.count .expiredInstances,
          [.replicate ⟨.unregister, x⟩]) := by
  unfold evict
  rw [h.removeIfExpired_of_overdue clock late]
  rfl

/-- Without an overdue record of the id nothing happens, whatever the role. -/
theorem evict_of_live (h : s.store.Coherent) (clock : 0 ≤ now) {id : String}
    (live : ∀ x ∈ s.store.overdue now.toInt timeout.toNat, x.id ≠ id) (isMaster : Bool) :
    s.evict isMaster now timeout id = (false, s, []) := by
  unfold evict
  rw [h.removeIfExpired_of_live clock live]
  cases isMaster <;> rfl

/-- A slave evicts nothing. -/
@[simp] theorem evict_of_slave (s : Service) (now : Int64) (timeout : UInt64) (id : String) :
    s.evict false now timeout id = (false, s, []) := rfl

/-! ## A sweep at rest -/

/-- Overdue records that are evicted one after another all go, each once. -/
theorem evictAll_of_overdue (h : s.store.Coherent) (clock : 0 ≤ now)
    (late : ∀ x ∈ xs, x ∈ s.store.overdue now.toInt timeout.toNat)
    (apart : xs.Pairwise fun x y => x.id ≠ y.id) :
    evictAll true now timeout xs s
      = (xs.length,
          ⟨s.store.removes xs, s.counters.add .expiredInstances (.ofNat xs.length)⟩,
          xs.map fun x => .replicate ⟨.unregister, x⟩) := by
  induction xs generalizing s with
  | nil =>
    have none : s.counters.add .expiredInstances 0 = s.counters := by simp [Counters.add]
    exact congrArg (fun c => (0, Service.mk s.store c, [])) none.symm
  | cons x xs ih =>
    obtain ⟨first, rest⟩ := List.forall_mem_cons.1 late
    obtain ⟨other, apart⟩ := List.pairwise_cons.1 apart
    -- the others are still there, and as late as they were
    have rest : ∀ y ∈ xs, y ∈ (s.store.remove x.id).2.overdue now.toInt timeout.toNat := by
      intro y hy
      obtain ⟨there, late⟩ := Store.mem_overdue.1 (rest y hy)
      exact Store.mem_overdue.2 ⟨h.mem_all_remove.2 ⟨there, (other y hy).symm⟩, late⟩
    have total : (1 : UInt64) + .ofNat xs.length = .ofNat (xs.length + 1) := by
      rw [UInt64.ofNat_add, UInt64.add_comm]
      rfl
    unfold evictAll
    rw [evict_of_overdue h clock first]
    dsimp only
    rw [ih (h.remove x.id) rest apart]
    simp only [count, Counters.bump, Counters.add_add, total]
    rfl

/-- So a sweep of the master takes out the overdue records. -/
theorem sweep_of_overdue (h : s.store.Coherent) (clock : 0 ≤ now) (timeout : UInt64) :
    let overdue := s.store.overdue now.toInt timeout.toNat
    s.sweep true now timeout
      = (overdue.length,
          ⟨s.store.removes overdue, s.counters.add .expiredInstances (.ofNat overdue.length)⟩,
          overdue.map fun x => .replicate ⟨.unregister, x⟩) := by
  intro overdue
  have apart : overdue.Pairwise fun x y => x.id ≠ y.id := h.pairwise_ids.filter _
  unfold sweep
  rw [Store.expired_eq_overdue clock]
  exact evictAll_of_overdue h clock (fun x hx => hx) apart

end Service

/-- What expiry makes of a table at a clock reading, told in whole numbers. -/
structure Store.ExpiresExactly (now : Int64) (timeout : UInt64) (s : Store) : Prop where
  /-- The time since a heartbeat does not overflow. -/
  elapsed : ∀ x ∈ s.all, 0 < x.heartbeat.secs.toInt →
    (now - x.heartbeat.secs).toInt = now.toInt - x.heartbeat.secs.toInt
  /-- The overdue records are listed, in listing order. -/
  listed : s.expired now timeout = s.all.filter (·.Overdue now.toInt timeout.toNat)
  /-- A record is taken out on condition just when it is one of them. -/
  taken : ∀ id x, (s.removeIfExpired id now timeout).1 = some x
    ↔ x ∈ s.expired now timeout ∧ x.id = id
  /-- Then the others stay as and where they are. -/
  others : ∀ id, (s.removeIfExpired id now timeout).1 ≠ none →
    (s.removeIfExpired id now timeout).2.all = s.all.filter (·.id ≠ id)
  /-- Otherwise nothing changes. -/
  kept : ∀ id, (s.removeIfExpired id now timeout).1 = none →
    (s.removeIfExpired id now timeout).2 = s

/-- What a sweep makes of a service. -/
structure Service.SweepsExactly (now : Int64) (timeout : UInt64) (s : Service) : Prop where
  /-- The overdue records go, and the others stay as and where they are. -/
  left : (s.sweep true now timeout).2.1.store.all
    = s.store.all.filter (¬ ·.Overdue now.toInt timeout.toNat)
  /-- It tells how many went. -/
  size : (s.sweep true now timeout).1 = (s.store.expired now timeout).length
  /-- So many more are counted as expired, and nothing else is counted. -/
  counted : (s.sweep true now timeout).2.1.counters
    = s.counters.add .expiredInstances (.ofNat (s.store.expired now timeout).length)
  /-- One removal is replicated for each of them, in listing order. -/
  replicated : (s.sweep true now timeout).2.2
    = (s.store.expired now timeout).map fun x => .replicate ⟨.unregister, x⟩
  /-- At the same clock there is nothing left to do. -/
  again : (s.sweep true now timeout).2.1.sweep true now timeout
    = (0, (s.sweep true now timeout).2.1, [])
  /-- Only the master does anything. -/
  slave : s.sweep false now timeout = (0, s, [])

/-- Expiry is exact for every coherent table. -/
theorem Store.Coherent.expiresExactly {s : Store} (h : s.Coherent) {now : Int64} (clock : 0 ≤ now)
    (timeout : UInt64) : s.ExpiresExactly now timeout := by
  have listed : s.expired now timeout = s.overdue now.toInt timeout.toNat :=
    expired_eq_overdue clock timeout s
  -- an id belongs to an overdue record or to none, which settles what is taken and what is left
  have decided := s.overdue_cases now.toInt timeout.toNat
  refine ⟨?_, listed, ?_, ?_, ?_⟩
  · intro x _ set
    exact toInt_sub_of_nonneg clock (Int64.le_iff_toInt_le.2 (Int.le_of_lt set))
  · intro id x
    rw [listed]
    rcases decided id with ⟨y, late, rfl⟩ | live
    · rw [h.removeIfExpired_of_overdue clock late]
      constructor
      · rintro ⟨⟩
        exact ⟨late, rfl⟩
      · rintro ⟨late', same⟩
        rw [h.eq_of_id (mem_overdue.1 late).1 (mem_overdue.1 late').1 same.symm]
    · rw [h.removeIfExpired_of_live clock live]
      constructor
      · rintro ⟨⟩
      · rintro ⟨late, same⟩
        exact absurd same (live x late)
  · intro id some_taken
    rcases decided id with ⟨x, late, rfl⟩ | live
    · rw [h.removeIfExpired_of_overdue clock late]
      exact h.all_remove x.id
    · rw [h.removeIfExpired_of_live clock live] at some_taken
      exact absurd rfl some_taken
  · intro id none_taken
    rcases decided id with ⟨x, late, rfl⟩ | live
    · rw [h.removeIfExpired_of_overdue clock late] at none_taken
      cases none_taken
    · rw [h.removeIfExpired_of_live clock live]

/-- So is a sweep. -/
theorem Service.sweepsExactly {s : Service} (h : s.store.Coherent) {now : Int64} (clock : 0 ≤ now)
    (timeout : UInt64) : s.SweepsExactly now timeout := by
  have listed := Store.expired_eq_overdue clock timeout s.store
  have swept := sweep_of_overdue h clock timeout
  refine ⟨?_, ?_, ?_, ?_, ?_, rfl⟩
  · rw [swept]
    exact h.all_removes_overdue now.toInt timeout.toNat
  · rw [swept, listed]
  · rw [swept, listed]
  · rw [swept, listed]
  · rw [swept]
    unfold sweep
    dsimp only
    rw [Store.expired_eq_overdue clock, h.overdue_removes_overdue]
    rfl

namespace Service

/-- Expiry is exact: whatever was done to a table and whatever was counted, while the clock does not
    stand before zero. -/
theorem expiry_is_exact (past : List (Int64 × Store.Operation)) (counters : Counters)
    (now : Int64) (clock : 0 ≤ now) (timeout : UInt64) :
    (Store.run past {}).ExpiresExactly now timeout
      ∧ SweepsExactly now timeout ⟨Store.run past {}, counters⟩ :=
  have coherent := Store.coherent_empty.run past
  ⟨coherent.expiresExactly clock timeout, sweepsExactly coherent clock timeout⟩

/-- Of three records one is young enough, and with the longest of all timeouts every one is. -/
theorem expiry_is_exact_of_three :
    let record (id service : String) (port : UInt32) : Instance :=
      { id, identity := ⟨service, "h", port⟩ }
    let past : List (Int64 × Store.Operation) :=
      [(1, .register (record "a" "s" 1)), (1, .register (record "b" "r" 2)),
        (2, .register (record "c" "s" 3)), (60, .heartbeat (record "a" "s" 1).claim)]
    (0 : Int64) ≤ 100
      ∧ (Store.run past {}).ExpiresExactly 100 50
      ∧ SweepsExactly 100 50 ⟨Store.run past {}, {}⟩
      ∧ ((Store.run past {}).expired 100 50).map (·.id) = ["b", "c"]
      ∧ (Store.run past {}).expired 100 18446744073709551615 = [] := by
  intro record past
  obtain ⟨expires, sweeps⟩ := expiry_is_exact past {} 100 (by decide) 50
  exact ⟨by decide, expires, sweeps, by decide, by decide⟩

end Service

/-! ## A sweep amid other things -/

namespace ServiceState

/-- What may happen beside the evictions of a sweep: any turns, in any roles and at any clock
    readings, anything done to the table, and anything counted.  A sweep gives way between two
    evictions, so what it has found may be out of date by the time it acts on it. -/
inductive Drifts (d : ServiceState) : ServiceState → Prop
  | rest : Drifts d d
  | turn {d' d'' : ServiceState} {e : Entry} (before : Drifts d d') (step : d'.Step e d'') :
      Drifts d d''
  | operate {d' : ServiceState} (before : Drifts d d') (now : Int64) (o : Store.Operation) :
      Drifts d { d' with service.store := d'.service.store.carryOut now o }
  | count {d' : ServiceState} (before : Drifts d d') (k : Counter) :
      Drifts d { d' with service := d'.service.count k }

/-- Whatever happens, the table stays coherent. -/
theorem Drifts.coherent {d d' : ServiceState} (drifts : d.Drifts d')
    (h : d.service.store.Coherent) :
    d'.service.store.Coherent := by
  induction drifts with
  | rest => exact h
  | turn before step ih => exact (step.accounts ih).coherent
  | operate before now o ih => exact ih.carryOut now o
  | count before k ih => exact ih

end ServiceState

/-- An eviction of a sweep: the record as the sweep has found it, the service when its turn has
    come, and the role and the clock that are read then. -/
structure Eviction where
  found : Instance
  service : Service
  isMaster : Bool
  now : Int64

namespace Eviction

/-- Whether a record goes, the service after it, and what is asked of the cluster. -/
def outcome (timeout : UInt64) (e : Eviction) : Bool × Service × List Order :=
  e.service.evict e.isMaster e.now timeout e.found.id

/-- The records that are overdue when its turn has come. -/
def overdue (timeout : UInt64) (e : Eviction) : List Instance :=
  e.service.store.overdue e.now.toInt timeout.toNat

/-- An eviction goes by the table as it stands, whatever was found before. -/
structure Lawful (timeout : UInt64) (e : Eviction) : Prop where
  /-- A record goes just when the node is master and a record of the id is in the table and
      overdue. -/
  goes_iff : (e.outcome timeout).1 = true
    ↔ e.isMaster = true ∧ ∃ y ∈ e.overdue timeout, y.id = e.found.id
  /-- This record is replicated as removed, counted once, and the only one to go. -/
  gone : ∀ y ∈ e.service.store.all, y.id = e.found.id → (e.outcome timeout).1 = true →
    (e.outcome timeout).2.2 = [.replicate ⟨.unregister, y⟩]
      ∧ (e.outcome timeout).2.1.counters = e.service.counters.bump .expiredInstances
      ∧ (e.outcome timeout).2.1.store.all = e.service.store.all.filter (·.id ≠ y.id)
  /-- If none goes, nothing is changed, counted or replicated. -/
  stays : (e.outcome timeout).1 = false → e.outcome timeout = (false, e.service, [])
  /-- A record that is not overdue survives. -/
  spares : ∀ y ∈ e.service.store.all, y ∉ e.overdue timeout →
    y ∈ (e.outcome timeout).2.1.store.all

variable {timeout : UInt64} {e : Eviction}

/-- An eviction that does nothing is lawful when there was nothing to evict. -/
theorem lawful_of_idle (idle : e.outcome timeout = (false, e.service, []))
    (none : ¬ (e.isMaster = true ∧ ∃ y ∈ e.overdue timeout, y.id = e.found.id)) :
    e.Lawful timeout := by
  refine ⟨?_, ?_, fun _ => idle, ?_⟩
  · rw [idle]
    exact iff_of_false Bool.false_ne_true none
  · intro y _ _ goes
    rw [idle] at goes
    cases goes
  · intro y hy _
    rwa [idle]

/-- One of an overdue record is lawful on the master. -/
theorem lawful_of_overdue (h : e.service.store.Coherent) (clock : 0 ≤ e.now)
    (master : e.isMaster = true) {x : Instance} (late : x ∈ e.overdue timeout)
    (same : x.id = e.found.id) : e.Lawful timeout := by
  have hx := (Store.mem_overdue.1 late).1
  have goes : e.outcome timeout
      = (true, { e.service with store := (e.service.store.remove x.id).2 }.count .expiredInstances,
          [.replicate ⟨.unregister, x⟩]) := by
    rw [outcome, master, ← same]
    exact Service.evict_of_overdue h clock late
  refine ⟨?_, ?_, ?_, ?_⟩
  · rw [goes]
    exact iff_of_true rfl ⟨master, x, late, same⟩
  · intro y hy same' _
    obtain rfl := h.eq_of_id hy hx (same'.trans same.symm)
    rw [goes]
    exact ⟨rfl, rfl, h.all_remove y.id⟩
  · intro stays
    rw [goes] at stays
    cases stays
  · intro y hy live
    rw [goes]
    refine h.mem_all_remove.2 ⟨hy, fun eq => live ?_⟩
    rwa [h.eq_of_id hy hx eq]

/-- What was in the table before plays no part, as long as the table is coherent. -/
theorem lawful (h : e.service.store.Coherent) (clock : 0 ≤ e.now) : e.Lawful timeout := by
  rcases e.service.store.overdue_cases e.now.toInt timeout.toNat e.found.id with
    ⟨x, late, same⟩ | live
  · cases master : e.isMaster with
    | true => exact lawful_of_overdue h clock master late same
    | false =>
      have idle : e.outcome timeout = (false, e.service, []) := by
        rw [outcome, master, Service.evict_of_slave]
      refine lawful_of_idle idle fun both => ?_
      rw [master] at both
      exact Bool.false_ne_true both.1
  · refine lawful_of_idle (Service.evict_of_live h clock live e.isMaster) fun both => ?_
    obtain ⟨-, y, late, same⟩ := both
    exact live y late same

end Eviction

namespace ServiceState

/-- The evictions of a sweep, one for each record that it has found.  Anything may happen before
    each, and each reads the role and the clock anew. -/
inductive Evicts (timeout : UInt64) :
    ServiceState → List Instance → List Eviction → ServiceState → Prop
  | done (d : ServiceState) : Evicts timeout d [] [] d
  | next {d d' d'' : ServiceState} {x : Instance} {xs : List Instance} {es : List Eviction}
      (drifts : d.Drifts d') (isMaster : Bool) (now : Int64) (clock : 0 ≤ now)
      (rest : Evicts timeout
        { d' with service := (d'.service.evict isMaster now timeout x.id).2.1 } xs es d'') :
      Evicts timeout d (x :: xs) (⟨x, d'.service, isMaster, now⟩ :: es) d''

/-- Each eviction of a sweep is lawful: whatever has happened before it left a coherent table. -/
theorem Evicts.lawful {timeout : UInt64} {d d' : ServiceState} {xs : List Instance}
    {es : List Eviction} (evicts : Evicts timeout d xs es d') (h : d.service.store.Coherent) :
    ∀ e ∈ es, e.Lawful timeout := by
  induction evicts with
  | done d => exact fun e he => nomatch he
  | @next d d' d'' x xs es drifts isMaster now clock rest ih =>
    have coherent := drifts.coherent h
    refine List.forall_mem_cons.2 ⟨Eviction.lawful coherent clock, ih ?_⟩
    exact (Service.accounted_evict coherent isMaster now timeout x.id).coherent

/-- When nothing happens beside them, the evictions are those that a sweep makes in one go. -/
theorem evicts_evictAll (isMaster : Bool) {now : Int64} (clock : 0 ≤ now) (timeout : UInt64)
    (xs : List Instance) (d : ServiceState) :
    ∃ es, Evicts timeout d xs es
        { d with service := (Service.evictAll isMaster now timeout xs d.service).2.1 }
      ∧ (Service.evictAll isMaster now timeout xs d.service).1
        = (es.countP fun e => (e.outcome timeout).1)
      ∧ (Service.evictAll isMaster now timeout xs d.service).2.2
        = es.flatMap fun e => (e.outcome timeout).2.2 := by
  induction xs generalizing d with
  | nil => exact ⟨[], .done d, rfl, rfl⟩
  | cons x xs ih =>
    obtain ⟨es, rest, count, orders⟩ :=
      ih { d with service := (d.service.evict isMaster now timeout x.id).2.1 }
    refine ⟨⟨x, d.service, isMaster, now⟩ :: es, .next .rest isMaster now clock rest, ?_, ?_⟩
    · rw [List.countP_cons, ← count]
      cases gone : (d.service.evict isMaster now timeout x.id).1 <;>
        simp [Eviction.outcome, Service.evictAll, gone]
    · rw [List.flatMap_cons, ← orders]
      rfl

/-- A sweep never removes a record that is live.  Whatever has become of the records since they were
    found, an eviction goes by the one that is in the table when its turn has come. -/
theorem sweep_spares_live {d d' : ServiceState} {es : List Eviction} (now : Int64)
    (timeout : UInt64) (reached : ({} : ServiceState).Drifts d)
    (evicts : Evicts timeout d (d.service.store.expired now timeout) es d') :
    ∀ e ∈ es, e.Lawful timeout :=
  evicts.lawful (reached.coherent Store.coherent_empty)

/-- Three records are found.  Before their turns the first sends a heartbeat, the second moves to
    another port, and the node loses its role: the second goes alone, as it stands. -/
theorem sweep_spares_live_of_three :
    let record (id : String) (port : UInt32) : Instance :=
      { id, identity := ⟨"s", "h", port⟩, registered := .ofSecs 1, heartbeat := .ofSecs 1 }
    let past : List (Int64 × Store.Operation) :=
      [(1, .register (record "a" 1)), (1, .register (record "b" 2)), (1, .register (record "c" 3))]
    let d : ServiceState := { service.store := Store.run past {} }
    ({} : ServiceState).Drifts d
      ∧ ∃ es d', Evicts 10 d (d.service.store.expired 20 10) es d'
        ∧ (∀ e ∈ es, e.Lawful 10)
        ∧ es.map (·.found) = [record "a" 1, record "b" 2, record "c" 3]
        ∧ es.flatMap (fun e => (e.outcome 10).2.2) = [.replicate ⟨.unregister, record "b" 4⟩] := by
  intro record past d
  have reached : ({} : ServiceState).Drifts d :=
    .operate (.operate (.operate .rest 1 (.register (record "a" 1))) 1 (.register (record "b" 2)))
      1 (.register (record "c" 3))
  have scan : d.service.store.expired 20 10 = [record "a" 1, record "b" 2, record "c" 3] := by
    decide
  have evicts := @Evicts.next 10 d _ _ (record "a" 1) _ _
    (.operate .rest 19 (.heartbeat (record "a" 1).claim)) true 21 (by decide)
    (.next (x := record "b" 2) (.operate .rest 21 (.merge (record "b" 4))) true 22 (by decide)
      (.next (x := record "c" 3) .rest false 23 (by decide) (.done _)))
  rw [← scan] at evicts
  exact ⟨reached, _, _, evicts, sweep_spares_live 20 10 reached evicts, by decide, by decide⟩

end ServiceState

end ServiceRegistry
