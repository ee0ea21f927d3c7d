/-
  The timestamps of a master's own records.

  A master that takes nothing from elsewhere stamps every record by its own clock, whatever the
  heartbeats are that clients supply.

  1. **Stamps.**  `Instance.Timed` is what holds of a record at a clock reading.  It lasts as the
     clock goes on (`Timed.mono`) and whatever a master writes has it (`keeps_timed`), so all
     records have it after a run (`Tended.timed`).
  2. **Tenure.**  A record keeps its identity and its registration, and its heartbeat moves forward
     only (`Instance.Becomes`).  That a heartbeat by the clock does not move it back needs that no
     stored one is ahead of the clock, which is the last part of `Timed` (`becomes_carryOut`).
  3. `own_records_in_time` puts them together.
-/
import ServiceRegistry.Proofs.Store.Stamps
import ServiceRegistry.Proofs.Store.Registering
import Mathlib.Data.List.Induction

namespace ServiceRegistry

/-! ## Records -/

/-- A record as a master stamps it: it could be added, it was registered at a positive second and
    has been heard of since, but not later than now, and each second is written out in its readable
    form.  That the heartbeat is not past the clock is what keeps the next one from going back. -/
structure Instance.Timed (now : Int64) (x : Instance) : Prop where
  registrable : x.Registrable
  positive : 0 < x.registered.secs
  since : x.registered.secs ≤ x.heartbeat.secs
  past : x.heartbeat.secs ≤ now
  registered : x.registered.readable = Time.readable x.registered.secs.toInt
  heartbeat : x.heartbeat.readable = Time.readable x.heartbeat.secs.toInt

/-- What a record may become while it stays in a table. -/
structure Instance.Becomes (x y : Instance) : Prop where
  id : y.id = x.id
  identity : y.identity = x.identity
  registered : y.registered = x.registered
  heartbeat : x.heartbeat.secs ≤ y.heartbeat.secs

namespace Instance

variable {x y z : Instance} {now later : Int64}

/-- Time may pass. -/
theorem Timed.mono (h : x.Timed now) (le : now ≤ later) : x.Timed later :=
  { h with past := Int64.le_trans h.past le }

/-- A heartbeat by the clock, or at any second between the one before and the clock's. -/
theorem Timed.beat (h : x.Timed now) {secs : Int64} (forward : x.heartbeat.secs ≤ secs)
    (past : secs ≤ now) : Timed now { x with heartbeat := .ofSecs secs } where
  registrable := ⟨h.registrable.service, h.registrable.ip, h.registrable.port⟩
  positive := h.positive
  since := Int64.le_trans h.since forward
  past := past
  registered := h.registered
  heartbeat := rfl

/-- A new record begins with both times at the clock. -/
theorem Timed.new (valid : x.Registrable) (pos : 0 < now) :
    Timed now { x with registered := .ofSecs now, heartbeat := .ofSecs now } where
  registrable := ⟨valid.service, valid.ip, valid.port⟩
  positive := pos
  since := Int64.le_refl now
  past := Int64.le_refl now
  registered := rfl
  heartbeat := rfl

/-- What a record may become in no step, and in several. -/
theorem Becomes.refl (x : Instance) : x.Becomes x := ⟨rfl, rfl, rfl, Int64.le_refl _⟩

theorem Becomes.trans (h : x.Becomes y) (h' : y.Becomes z) : x.Becomes z where
  id := h'.id.trans h.id
  identity := h'.identity.trans h.identity
  registered := h'.registered.trans h.registered
  heartbeat := Int64.le_trans h.heartbeat h'.heartbeat

end Instance

namespace Store

/-- A refresh does not move a heartbeat ahead of the clock, unless it is there already. -/
theorem refreshedAt_le {now stored : Int64} (past : stored ≤ now) (supplied : Int64) :
    refreshedAt now supplied stored ≤ now := by
  have past := Int64.le_iff_toInt_le.1 past
  refine Int64.le_iff_toInt_le.2 ?_
  rw [toInt_refreshedAt]
  unfold refreshedTo
  split <;> omega

/-! ## Operations -/

/-- All but what takes over something from another node: what clients ask for, expiry, and the
    cursors. -/
def Operation.IsOwn : Operation → Prop
  | .merge _ | .touch _ _ _ => False
  | _ => True

/-- A run of a master that takes nothing from elsewhere, by a positive clock that does not go back.
    Records of other nodes carry the readings of other clocks, of which nothing is known. -/
structure Tended (ops : List (Int64 × Operation)) : Prop where
  own : ∀ o ∈ ops, o.2.IsOwn
  positive : ∀ o ∈ ops, 0 < o.1
  forward : ops.Pairwise (·.1 ≤ ·.1)

/-- No operation of a client puts a time past the clock, or a heartbeat before the registration. -/
theorem keeps_timed {now : Int64} (pos : 0 < now) {o : Operation} (own : o.IsOwn) :
    Keeps now (Instance.Timed now) o := by
  cases o with
  | register x =>
    refine ⟨fun valid => ?_, fun y hy => hy.beat (le_refreshedAt ..) (refreshedAt_le hy.past _)⟩
    rcases Instance.checkRegistration_cases (Instance.id_ne_of_checkRegistration valid) with
      ⟨registrable, -⟩ | ⟨-, reason, refused⟩
    · exact .new registrable pos
    · rw [valid] at refused
      cases refused
  | heartbeat c => exact fun y hy => hy.beat hy.past (Int64.le_refl now)
  | merge x => exact own.elim
  | touch id secs readable => exact own.elim
  | unregister | remove | removeIfExpired | discover | adopt => trivial

namespace Coherent

variable {s : Store} {x y : Instance}

/-- A record that stands in both tables is one and the same. -/
theorem becomes_of_kept (h : s.Coherent) (hx : x ∈ s.all) (hy : y ∈ s.all) (same : y.id = x.id) :
    x.Becomes y :=
  h.eq_of_id hy hx same ▸ .refl y

/-- A heartbeat that does not go back is all that a refresh changes. -/
theorem becomes_beat (h : s.Coherent) {id : String} {old : Instance} {secs : Int64}
    (found : s.find? id = some old) (forward : old.heartbeat.secs ≤ secs) (hx : x ∈ s.all)
    (hy : y ∈ (s.beat old (.ofSecs secs)).all) (same : y.id = x.id) : x.Becomes y := by
  rcases (h.mem_all_beat found (.ofSecs secs) y).1 hy with rfl | ⟨hy, -⟩
  · obtain rfl := h.eq_of_id (h.find?_eq_some_iff.1 found).1 hx same
    exact ⟨rfl, rfl, rfl, forward⟩
  · exact h.becomes_of_kept hx hy same

/-- A record that stays in the table becomes one that it may become. -/
theorem becomes_carryOut (h : s.Coherent) {now : Int64} (timed : ∀ z ∈ s.all, z.Timed now)
    {o : Operation} (own : o.IsOwn) (hx : x ∈ s.all) (hy : y ∈ (s.carryOut now o).all)
    (same : y.id = x.id) : x.Becomes y := by
  have step := step_carryOut now o s
  generalize s.carryOut now o = t at step hy
  cases step with
  | idle => exact h.becomes_of_kept hx hy same
  | inserts unknown =>
    rcases mem_all_insert.1 hy with hy | rfl
    · exact h.becomes_of_kept hx hy same
    · exact absurd same.symm (h.find?_eq_none_iff.1 unknown x hx)
  | beats found stamps =>
    cases stamps with
    | refresh => exact h.becomes_beat found (le_refreshedAt ..) hx hy same
    | heartbeat =>
      have past := (timed _ (h.find?_eq_some_iff.1 found).1).past
      exact h.becomes_beat found past hx hy same
    | touch => exact own.elim
  | removes => exact h.becomes_of_kept hx (h.mem_all_remove.1 hy).1 same
  | merges => exact own.elim
  | turns => exact h.becomes_of_kept hx hy same
  | adopts cursors =>
    rw [(SameRecords.adopt s cursors).all] at hy
    exact h.becomes_of_kept hx hy same

end Coherent

/-! ## Runs -/

namespace Tended

variable {ops before during : List (Int64 × Operation)}

/-- The beginning of a run is a run. -/
theorem of_append (h : Tended (before ++ during)) : Tended before where
  own o ho := h.own o (List.mem_append_left _ ho)
  positive o ho := h.positive o (List.mem_append_left _ ho)
  forward := (List.pairwise_append.1 h.forward).1

/-- The last reading of the clock is not before any other. -/
theorem le_last {o : Int64 × Operation} (h : Tended (ops ++ [o])) : ∀ p ∈ ops, p.1 ≤ o.1 :=
  fun p hp => (List.pairwise_append.1 h.forward).2.2 p hp o List.mem_cons_self

/-- The last operation is one of a client, at a positive clock. -/
theorem last {o : Int64 × Operation} (h : Tended (ops ++ [o])) : o.2.IsOwn ∧ 0 < o.1 :=
  have ho : o ∈ ops ++ [o] := List.mem_append_right _ List.mem_cons_self
  ⟨h.own o ho, h.positive o ho⟩

/-- The invariant of a run: all times are positive, in order, and not past any later reading of the
    clock. -/
theorem timed (h : Tended ops) {now : Int64} (past : ∀ o ∈ ops, o.1 ≤ now) :
    ∀ x ∈ (run ops {}).all, x.Timed now := by
  induction ops using List.reverseRecOn generalizing now with
  | nil => exact fun x hx => nomatch hx
  | append_singleton ops o ih =>
    have coherent : (run ops {}).Coherent := coherent_empty.run ops
    obtain ⟨own, pos⟩ := h.last
    have stamped := coherent.forall_mem_carryOut (ih h.of_append h.le_last) (keeps_timed pos own)
    rw [run_concat]
    exact fun x hx => (stamped x hx).mono (past o (List.mem_append_right _ List.mem_cons_self))

/-- As long as there is a record of its id, it is what a record may become. -/
theorem becomes (h : Tended (before ++ during)) {x : Instance} (hx : x ∈ (run before {}).all)
    (stays : ∀ part, part <+: during → ∃ y ∈ (run (before ++ part) {}).all, y.id = x.id) :
    ∃ y ∈ (run (before ++ during) {}).all, x.Becomes y := by
  induction during using List.reverseRecOn with
  | nil =>
    rw [List.append_nil]
    exact ⟨x, hx, .refl x⟩
  | append_singleton during o ih =>
    rw [← List.append_assoc] at h ⊢
    obtain ⟨y, hy, first⟩ := ih h.of_append fun part initial =>
      stays part (initial.trans (List.prefix_append ..))
    obtain ⟨z, hz, same⟩ := stays (during ++ [o]) (List.prefix_refl _)
    have coherent : (run (before ++ during) {}).Coherent := coherent_empty.run _
    rw [← List.append_assoc, run_concat] at hz
    rw [run_concat]
    exact ⟨z, hz, first.trans <| coherent.becomes_carryOut (h.of_append.timed h.le_last)
      h.last.1 hy hz (same.trans first.id.symm)⟩

end Tended

/-- After every run of a master that takes nothing from elsewhere each record is stamped by a clock
    that has not been passed.  A record that is in the table at some time of the run, and whose id
    does not leave it, is still the one that was registered, with no earlier heartbeat. -/
theorem own_records_in_time (before during : List (Int64 × Operation))
    (tended : Tended (before ++ during)) :
    (∀ now, (∀ o ∈ before ++ during, o.1 ≤ now) →
      ∀ x ∈ (run (before ++ during) {}).all, x.Timed now)
    ∧ ∀ x ∈ (run before {}).all,
        (∀ part, part <+: during → ∃ y ∈ (run (before ++ part) {}).all, y.id = x.id) →
        ∃ y ∈ (run (before ++ during) {}).all, x.Becomes y :=
  ⟨fun _ past => tended.timed past, fun _ hx stays => tended.becomes hx stays⟩

/-- A record that comes with a heartbeat before all time, and once more with one after it. -/
theorem own_records_in_time_untrusted :
    let record (secs : Int64) : Instance :=
      { id := "i", identity := ⟨"s", "h", 80⟩, heartbeat := ⟨secs, "?"⟩ }
    let stored (secs : Int64) : Instance :=
      { id := "i", identity := ⟨"s", "h", 80⟩, registered := .ofSecs 5, heartbeat := .ofSecs secs }
    let before : List (Int64 × Operation) := [(5, .register (record Int64.minValue))]
    let during : List (Int64 × Operation) :=
      [(6, .register (record Int64.maxValue)), (6, .heartbeat (record 0).claim)]
    Tended (before ++ during)
      ∧ (∀ x ∈ (run (before ++ during) {}).all, x.Timed 6)
      ∧ (run before {}).all = [stored 5] ∧ (run (before ++ during) {}).all = [stored 6]
      ∧ (stored 5).Becomes (stored 6) := by
  intro record stored before during
  have tended : Tended (before ++ during) := by
    refine ⟨?_, ?_, ?_⟩ <;> simp [before, during, Operation.IsOwn]
  have first : (run before {}).all = [stored 5] := by decide
  have last : (run (before ++ during) {}).all = [stored 6] := by decide
  obtain ⟨timed, becomes⟩ := own_records_in_time before during tended
  have stays : ∀ part, part <+: during →
      ∃ y ∈ (run (before ++ part) {}).all, y.id = (stored 5).id := by
    intro part initial
    simp only [during, List.prefix_cons_iff, List.prefix_nil] at initial
    rcases initial with rfl | ⟨-, rfl, rfl | ⟨-, rfl, rfl⟩⟩
    · exact ⟨stored 5, by decide, rfl⟩
    · exact ⟨stored 6, by decide, rfl⟩
    · exact ⟨stored 6, by decide, rfl⟩
  obtain ⟨y, hy, same⟩ := becomes (stored 5) (first ▸ List.mem_cons_self) stays
  rw [last, List.mem_singleton] at hy
  refine ⟨tended, timed 6 ?_, first, last, hy ▸ same⟩
  simp [before, during]

end Store

end ServiceRegistry
