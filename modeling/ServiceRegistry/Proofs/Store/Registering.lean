/-
  What becomes of a registration.

  A registration is an insertion, a heartbeat or a mistake, and the table and the record that comes
  decide which.

  1. Three conditions, no two of which hold together (`Coherent.apart`): the registration is
     `Invalid`, it `Refreshes` a stored record, it `Conflicts` with one.
  2. `Verdict` says what is done under each of them, and when none holds (`Coherent.verdict`).
  3. `register_decides`: so the result is of a kind just when its condition holds, and the table
     after it differs from the one before in what that kind says and in nothing else.
-/
import ServiceRegistry.Proofs.Store.Runs

namespace ServiceRegistry

/-! ## New records -/

/-- A new record has a name, an address, and a port of 1 … 65535. -/
structure Instance.Registrable (x : Instance) : Prop where
  service : x.service ≠ ""
  ip : x.identity.ip ≠ ""
  port : 1 ≤ x.identity.port.toNat ∧ x.identity.port.toNat ≤ 65535

/-- A registration carries no identity, or that of a stored record. -/
def Instance.Recalls (x old : Instance) : Prop :=
  x.identity.service = "" ∧ x.identity.ip = "" ∧ x.identity.port = 0
    ∨ x.identity.service = old.identity.service ∧ x.identity.ip = old.identity.ip
      ∧ x.identity.port = old.identity.port

namespace Instance

variable {x old : Instance}

/-- A registration recalls a record when it carries no identity of its own, or the same one. -/
theorem recalls_iff : x.Recalls old ↔ x.isBareHeartbeat ∨ x.identity = old.identity := by
  obtain ⟨id, ⟨service, ip, port⟩⟩ := x
  obtain ⟨id', ⟨service', ip', port'⟩⟩ := old
  simp [Recalls, isBareHeartbeat, Identity.blank]

/-- Ports from 1 to 65535 pass. -/
theorem checkPort_cases (port : UInt32) :
    (1 ≤ port.toNat ∧ port.toNat ≤ 65535) ∧ checkPort port = .ok ()
      ∨ ¬ (1 ≤ port.toNat ∧ port.toNat ≤ 65535)
        ∧ ∃ reason, checkPort port = .error (.validation reason) := by
  have zero : port = 0 ↔ port.toNat = 0 := by
    rw [← UInt32.toNat_inj]
    rfl
  have above : 65535 < port ↔ 65535 < port.toNat := UInt32.lt_iff_toNat_lt
  unfold checkPort
  split
  · rename_i none
    have none := zero.1 none
    exact .inr ⟨by omega, _, rfl⟩
  · rename_i given
    have given := mt zero.2 given
    split
    · rename_i beyond
      have beyond := above.1 beyond
      exact .inr ⟨by omega, _, rfl⟩
    · rename_i within
      have within := mt above.2 within
      exact .inl ⟨by omega, rfl⟩

/-- The check of a new record lets it pass, or says that it is not acceptable. -/
theorem checkRegistration_cases (given : x.id ≠ "") :
    x.Registrable ∧ x.checkRegistration = .ok ()
      ∨ ¬ x.Registrable ∧ ∃ reason, x.checkRegistration = .error (.validation reason) := by
  unfold checkRegistration
  rw [if_neg (by simpa using given)]
  split
  · rename_i empty
    exact .inr ⟨fun valid => valid.service (by simpa using empty), _, rfl⟩
  · rename_i service
    split
    · rename_i empty
      exact .inr ⟨fun valid => valid.ip (by simpa using empty), _, rfl⟩
    · rename_i ip
      rcases checkPort_cases x.identity.port with ⟨port, passed⟩ | ⟨port, refused⟩
      · exact .inl ⟨⟨by simpa using service, by simpa using ip, port⟩, passed⟩
      · exact .inr ⟨fun valid => port valid.port, refused⟩

end Instance

/-! ## Heartbeats -/

/-- Where a refresh moves a heartbeat: to the supplied one, if it is set, or else to the clock, but
    neither ahead of the clock nor back. -/
def refreshedTo (now supplied stored : Int) : Int :=
  if 0 < supplied then max stored (min supplied now) else max stored now

/-- Machine words are compared as whole numbers; the later of two is their maximum. -/
theorem toInt_later (a b : Int64) : (later a b).toInt = max a.toInt b.toInt := by
  unfold later
  split
  · rename_i le
    rw [Int.max_eq_right (Int64.le_iff_toInt_le.1 le)]
  · rename_i gt
    have le : b ≤ a := Int64.le_of_lt (Int64.not_le.1 gt)
    rw [Int.max_eq_left (Int64.le_iff_toInt_le.1 le)]

/-- The earlier is their minimum. -/
theorem toInt_earlier (a b : Int64) : (earlier a b).toInt = min a.toInt b.toInt := by
  unfold earlier
  split
  · rename_i le
    rw [Int.min_eq_left (Int64.le_iff_toInt_le.1 le)]
  · rename_i gt
    have le : b ≤ a := Int64.le_of_lt (Int64.not_le.1 gt)
    rw [Int.min_eq_right (Int64.le_iff_toInt_le.1 le)]

/-- The time of a refresh in whole numbers. -/
theorem toInt_refreshedAt (now supplied stored : Int64) :
    (refreshedAt now supplied stored).toInt
      = refreshedTo now.toInt supplied.toInt stored.toInt := by
  have set : 0 < supplied ↔ 0 < supplied.toInt := Int64.lt_iff_toInt_lt
  unfold refreshedAt refreshedTo
  rw [toInt_later]
  by_cases given : 0 < supplied
  · rw [if_pos given, if_pos (set.1 given), toInt_earlier]
  · rw [if_neg given, if_neg (given ∘ set.2)]

namespace Store

/-! ## The conditions -/

/-- The id is empty, or it is new and the record is none that could be added. -/
def Invalid (s : Store) (x : Instance) : Prop :=
  x.id = "" ∨ (∀ y ∈ s.all, y.id ≠ x.id) ∧ ¬ x.Registrable

/-- The id is stored, and the registration carries no identity or the stored one. -/
def Refreshes (s : Store) (x : Instance) : Prop := ∃ old ∈ s.all, old.id = x.id ∧ x.Recalls old

/-- The id is stored with another identity, or it is new, could be added, and the endpoint is
    taken. -/
def Conflicts (s : Store) (x : Instance) : Prop :=
  (∃ old ∈ s.all, old.id = x.id ∧ ¬ x.Recalls old)
    ∨ x.id ≠ "" ∧ (∀ y ∈ s.all, y.id ≠ x.id) ∧ x.Registrable ∧ ∃ y ∈ s.all, y.endpoint = x.endpoint

/-- What is done with a registration: the condition it falls under, its result and the table after
    it.  The conditions are told by the records that are stored, not by the order in which the
    program looks at them. -/
inductive Verdict (now : Int64) (x : Instance) (s : Store) :
    Except RegistryError Registration × Store → Prop
  | invalid (reason : String) (invalid : s.Invalid x) :
    Verdict now x s (.error (.validation reason), s)
  | refreshed (old : Instance) (t : Stamp) (found : s.find? x.id = some old)
      (recalls : x.Recalls old)
      (moved : t = .ofSecs (refreshedAt now x.heartbeat.secs old.heartbeat.secs)) :
    Verdict now x s (.ok (.refreshed { old with heartbeat := t }), s.beat old t)
  | conflict (reason : String) (conflicts : s.Conflicts x) :
    Verdict now x s (.error (.conflict x.id reason), s)
  | registered (new : Instance) (valid : ¬ s.Invalid x) (fresh : ¬ s.Refreshes x)
      (free : ¬ s.Conflicts x)
      (stamped : new = { x with registered := .ofSecs now, heartbeat := .ofSecs now }) :
    Verdict now x s (.ok (.registered new), s.insert new)

namespace Coherent

variable {s : Store}

/-- No two of the three conditions hold together. -/
theorem apart (h : s.Coherent) (x : Instance) :
    (s.Invalid x → ¬ s.Refreshes x ∧ ¬ s.Conflicts x) ∧ (s.Refreshes x → ¬ s.Conflicts x) := by
  have identified := h.id_ne
  constructor
  · rintro (empty | ⟨unknown, improper⟩)
    · constructor
      · rintro ⟨old, there, same, -⟩
        exact identified old there (same.trans empty)
      · rintro (⟨old, there, same, -⟩ | ⟨given, -⟩)
        · exact identified old there (same.trans empty)
        · exact given empty
    · constructor
      · rintro ⟨old, there, same, -⟩
        exact unknown old there same
      · rintro (⟨old, there, same, -⟩ | ⟨-, -, proper, -⟩)
        · exact unknown old there same
        · exact improper proper
  · rintro ⟨old, there, same, recalls⟩ (⟨other, there', same', differs⟩ | ⟨-, unknown, -⟩)
    · obtain rfl := h.eq_of_id there there' (same.trans same'.symm)
      exact differs recalls
    · exact unknown old there same

/-- What is done with a registration is what the condition says that it falls under. -/
theorem verdict (h : s.Coherent) (now : Int64) (x : Instance) :
    Verdict now x s (s.register now x) := by
  -- in the order of the checks: the id, the stored record, the other fields, the endpoint
  unfold Store.register
  split
  · rename_i empty
    exact .invalid _ (.inl (by simpa using empty))
  · rename_i nonempty
    have given : x.id ≠ "" := by simpa using nonempty
    split
    · rename_i old found
      obtain ⟨there, same⟩ := h.find?_eq_some_iff.1 found
      split
      · rename_i known
        exact .refreshed old _ found (Instance.recalls_iff.2 (by simpa using known)) rfl
      · rename_i differs
        refine .conflict _ (.inl ⟨old, there, same, fun recalls => differs ?_⟩)
        simpa using Instance.recalls_iff.1 recalls
    · rename_i unknown
      have new : ∀ y ∈ s.all, y.id ≠ x.id := h.find?_eq_none_iff.1 unknown
      rcases Instance.checkRegistration_cases given with
        ⟨proper, passed⟩ | ⟨improper, reason, refused⟩
      · rw [passed]
        dsimp only
        split
        · rename_i owner owned
          obtain ⟨y, hy, at_, -⟩ := h.owner?_eq_some_iff.1 owned
          exact .conflict _ (.inr ⟨given, new, proper, y, hy, at_⟩)
        · rename_i free
          refine .registered _ ?_ ?_ ?_ rfl
          · rintro (empty | ⟨-, improper⟩)
            · exact given empty
            · exact improper proper
          · rintro ⟨old, there, same, -⟩
            exact new old there same
          · rintro (⟨old, there, same, -⟩ | ⟨-, -, -, y, hy, at_⟩)
            · exact new old there same
            · exact h.owner?_eq_none_iff.1 free y hy at_
      · rw [refused]
        exact .invalid reason (.inr ⟨new, improper⟩)

end Coherent

/-! ## The decision -/

/-- A registration decides on one of four results, and each leaves of the table what it should. -/
structure Decided (now : Int64) (x : Instance) (s : Store)
    (result : Except RegistryError Registration) (after : Store) : Prop where
  validation : (∃ reason, result = .error (.validation reason)) ↔ s.Invalid x
  refreshed : (∃ y, result = .ok (.refreshed y)) ↔ s.Refreshes x
  conflict : (∃ reason, result = .error (.conflict x.id reason)) ↔ s.Conflicts x
  registered : (∃ y, result = .ok (.registered y))
    ↔ ¬ s.Invalid x ∧ ¬ s.Refreshes x ∧ ¬ s.Conflicts x
  /-- A failure changes nothing. -/
  failed : ∀ e, result = .error e → after = s
  /-- A refresh changes the heartbeat of the stored record, and nothing else. -/
  beaten : ∀ y, result = .ok (.refreshed y) → ∃ old ∈ s.all, old.id = x.id
    ∧ (∃ beat : Int64,
        beat.toInt = refreshedTo now.toInt x.heartbeat.secs.toInt old.heartbeat.secs.toInt
          ∧ y = { old with heartbeat := ⟨beat, Time.readable beat.toInt⟩ })
    ∧ (∀ name, after.ofService name
        = (s.ofService name).map fun z => if z.id = x.id then y else z)
    ∧ after.cursors = s.cursors
  /-- A new record comes last under its service, with both timestamps at the clock, and nothing else
      changes. -/
  added : ∀ y, result = .ok (.registered y) →
    y = { x with registered := .ofSecs now, heartbeat := .ofSecs now }
      ∧ (∀ name, after.ofService name
          = if name = x.service then s.ofService name ++ [y] else s.ofService name)
      ∧ after.cursors = s.cursors

/-- After whatever was done to a table, a registration at any clock reading is refused as invalid,
    refreshes a record, conflicts or adds a record, each just when it should, and changes what it
    should. -/
theorem register_decides (past : List (Int64 × Operation)) (now : Int64) (x : Instance) :
    let s := run past {}
    Decided now x s (s.register now x).1 (s.register now x).2 := by
  intro s
  have coherent : s.Coherent := coherent_empty.run past
  obtain ⟨of_invalid, of_refreshes⟩ := coherent.apart x
  generalize done : s.register now x = r
  -- the verdict gives one direction of each equivalence, the conditions exclude one another and so
  -- give the other
  have verdict := done ▸ coherent.verdict now x
  cases verdict with
  | invalid reason invalid =>
    obtain ⟨no_refresh, no_conflict⟩ := of_invalid invalid
    constructor <;> simp [invalid, no_refresh, no_conflict]
  | conflict reason conflicts =>
    have valid : ¬ s.Invalid x := fun invalid => (of_invalid invalid).2 conflicts
    have no_refresh : ¬ s.Refreshes x := fun refreshes => of_refreshes refreshes conflicts
    constructor <;> simp [conflicts, valid, no_refresh]
  | refreshed old t found recalls moved =>
    obtain ⟨there, same⟩ := coherent.find?_eq_some_iff.1 found
    have refreshes : s.Refreshes x := ⟨old, there, same, recalls⟩
    have valid : ¬ s.Invalid x := fun invalid => (of_invalid invalid).1 refreshes
    have free : ¬ s.Conflicts x := of_refreshes refreshes
    have secs := toInt_refreshedAt now x.heartbeat.secs old.heartbeat.secs
    refine ⟨by simp [valid], by simp [refreshes], by simp [free], by simp [refreshes], by simp,
      ?beaten, by simp⟩
    case beaten =>
      rintro y ⟨⟩
      refine ⟨old, there, same, ⟨_, secs, by rw [moved]; rfl⟩, fun name => ?_, ?_⟩
      · rw [← same]
        exact coherent.ofService_replace { old with heartbeat := t } name
      · exact cursors_replace s { old with heartbeat := t }
  | registered new valid fresh free stamped =>
    refine ⟨by simp [valid], by simp [fresh], by simp [free], by simp [valid, fresh, free], by simp,
      by simp, ?added⟩
    case added =>
      rintro y ⟨⟩
      refine ⟨stamped, fun name => ?_, rfl⟩
      rw [ofService_insert, stamped]
      rfl

end Store

end ServiceRegistry
