/-
  The two ways a heartbeat comes in.

  An instance beats by a heartbeat with its claim, or by a registration under its id that carries
  its identity or none, and no heartbeat of its own (`Instance.Beats`).  Both put another heartbeat
  into the stored record and change nothing else, but not the same one: the heartbeat puts the
  clock, the registration the later one of the clock and what is stored.

  1. `eq_of_beat` and `forward_beat_iff`: the table after a beat tells which heartbeat was put, and
     no record goes back iff this one is not earlier than the stored one.
  2. `Coherent.twoWays`: so everything depends on whether the stored heartbeat is ahead of the
     clock.  If it is not, the two ways are one; if it is, as it may be on a follower, the
     registration keeps it and the heartbeat moves it back.
-/
import ServiceRegistry.Proofs.Store.Lookups
import ServiceRegistry.Proofs.Store.Registering
import ServiceRegistry.Proofs.Store.Stamps

namespace ServiceRegistry

variable {x y : Instance} {now : Int64}

/-- A registration that stands for a heartbeat of a stored record: it has the id, the identity or
    none, and no heartbeat. -/
structure Instance.Beats (y x : Instance) : Prop where
  id : y.id = x.id
  recalls : y.Recalls x
  silent : y.heartbeat.secs ≤ 0

/-- The later of two times is the second just when that is not before the first. -/
theorem later_eq_right_iff {a b : Int64} : later a b = b ↔ a ≤ b := by
  constructor
  · intro eq
    have le : a ≤ later a b := le_later a b
    rwa [eq] at le
  · intro le
    exact if_pos le

/-- A refresh that brings no time of its own goes by the clock, but never back. -/
theorem refreshedAt_of_silent {supplied : Int64} (silent : supplied ≤ 0) (now stored : Int64) :
    refreshedAt now supplied stored = later stored now := by
  unfold refreshedAt
  rw [if_neg (Int64.not_lt.2 silent)]

/-- Different times make different timestamps. -/
theorem Stamp.ofSecs_inj {a b : Int64} : Stamp.ofSecs a = Stamp.ofSecs b ↔ a = b := by
  constructor
  · intro eq
    exact congrArg Stamp.secs eq
  · intro eq
    rw [eq]

namespace Store

variable {s : Store}

/-- Every record is still there, with its claim, the time of its registration, and no earlier
    heartbeat. -/
def Forward (s after : Store) : Prop :=
  ∀ z ∈ s.all, ∃ w ∈ after.all,
    w.claim = z.claim ∧ w.registered = z.registered ∧ z.heartbeat.secs ≤ w.heartbeat.secs

/-! ## What a beat leaves -/

namespace Coherent

/-- The table tells with what timestamp a record was beaten. -/
theorem eq_of_beat (h : s.Coherent) (hx : x ∈ s.all) {t u : Stamp}
    (eq : s.beat x t = s.beat x u) : t = u := by
  have found : s.find? x.id = some x := h.find?_of_mem hx
  have left := h.find?_beat found t x.id
  have right := h.find?_beat found u x.id
  rw [if_pos rfl] at left right
  rw [eq, right] at left
  exact (congrArg Instance.heartbeat (Option.some.inj left)).symm

/-- A beat moves a table forward just when the new time is not before the old one. -/
theorem forward_beat_iff (h : s.Coherent) (hx : x ∈ s.all) (t : Stamp) :
    s.Forward (s.beat x t) ↔ x.heartbeat.secs ≤ t.secs := by
  have found : s.find? x.id = some x := h.find?_of_mem hx
  constructor
  · intro forward
    obtain ⟨w, hw, same, -, le⟩ := forward x hx
    rcases (h.mem_all_beat found t w).1 hw with rfl | ⟨-, ne⟩
    · exact le
    · exact absurd (congrArg Claim.id same) ne
  · intro le z hz
    by_cases same : z.id = x.id
    · obtain rfl := h.eq_of_id hz hx same
      exact ⟨_, (h.mem_all_beat found t _).2 (.inl rfl), rfl, rfl, le⟩
    · exact ⟨z, (h.mem_all_beat found t z).2 (.inr ⟨hz, same⟩), rfl, rfl, Int64.le_refl _⟩

/-- A heartbeat with the claim of a stored record sets its time to the clock, wherever it was. -/
theorem heartbeat_claim (h : s.Coherent) (hx : x ∈ s.all) (now : Int64) :
    s.heartbeat now x.claim
      = (.ok { x with heartbeat := .ofSecs now }, s.beat x (.ofSecs now)) := by
  have found : s.find? x.claim.id = some x := h.find?_of_mem hx
  have passed : x.checkClaim x.claim = .ok () := (x.checkClaim_eq_ok_iff x.claim).2 rfl
  unfold Store.heartbeat
  rw [found]
  simp only [passed]
  rfl

/-- A registration that refreshes the same record keeps the later of the two times. -/
theorem register_of_beats (h : s.Coherent) (hx : x ∈ s.all) (beats : y.Beats x) (now : Int64) :
    let t := Stamp.ofSecs (later x.heartbeat.secs now)
    s.register now y = (.ok (.refreshed { x with heartbeat := t }), s.beat x t) := by
  intro t
  have found : s.find? y.id = some x := beats.id ▸ h.find?_of_mem hx
  have given : ¬ y.id.isEmpty := by
    have identified : x.id ≠ "" := h.id_ne x hx
    simpa [beats.id] using identified
  have known : y.isBareHeartbeat || y.identity = x.identity := by
    simpa using Instance.recalls_iff.1 beats.recalls
  unfold Store.register
  rw [if_neg given, found]
  dsimp only
  rw [if_pos known, refreshedAt_of_silent beats.silent]
  rfl

end Coherent

/-! ## The two ways -/

/-- What a heartbeat with the claim of a record and a registration that beats for it have in common,
    and what not. -/
structure TwoWays (now : Int64) (x y : Instance) (s : Store) : Prop where
  /-- The heartbeat puts the clock. -/
  beaten : s.heartbeat now x.claim
    = (.ok { x with heartbeat := .ofSecs now }, s.beat x (.ofSecs now))
  /-- The registration puts the later one of the clock and what is stored. -/
  refreshed :
    let t := Stamp.ofSecs (later x.heartbeat.secs now)
    s.register now y = (.ok (.refreshed { x with heartbeat := t }), s.beat x t)
  /-- They return the same record just when the stored heartbeat is not ahead of the clock, -/
  record : (s.register now y).1.map Registration.record = (s.heartbeat now x.claim).1
    ↔ x.heartbeat.secs ≤ now
  /-- and then only they leave the same table. -/
  table : (s.register now y).2 = (s.heartbeat now x.claim).2 ↔ x.heartbeat.secs ≤ now
  /-- The registration moves no heartbeat back, -/
  kept : s.Forward (s.register now y).2
  /-- the heartbeat does as soon as the stored one is ahead of the clock. -/
  back : s.Forward (s.heartbeat now x.claim).2 ↔ x.heartbeat.secs ≤ now

/-- The two ways side by side. -/
theorem Coherent.twoWays (h : s.Coherent) (hx : x ∈ s.all) (beats : y.Beats x) (now : Int64) :
    TwoWays now x y s := by
  have beaten := h.heartbeat_claim hx now
  have refreshed := h.register_of_beats hx beats now
  have same : Stamp.ofSecs (later x.heartbeat.secs now) = .ofSecs now ↔ x.heartbeat.secs ≤ now :=
    Stamp.ofSecs_inj.trans later_eq_right_iff
  refine ⟨beaten, refreshed, ?record, ?table, ?kept, ?back⟩
  case record =>
    rw [beaten, refreshed, ← same]
    constructor
    · intro eq
      exact congrArg Instance.heartbeat (Except.ok.inj eq)
    · intro eq
      rw [eq]
      rfl
  case table =>
    rw [beaten, refreshed, ← same]
    constructor
    · intro eq
      exact h.eq_of_beat hx eq
    · intro eq
      rw [eq]
  case kept =>
    rw [refreshed]
    exact (h.forward_beat_iff hx _).2 (le_later ..)
  case back =>
    rw [beaten]
    exact h.forward_beat_iff hx _

/-- After whatever was done to a table, for each of its records and at any clock reading: the two
    ways a heartbeat comes in are one iff the stored heartbeat is not ahead of the clock, and only
    the registration never moves it back. -/
theorem ways_of_beating (past : List (Int64 × Operation)) (now : Int64) (x y : Instance)
    (stored : x ∈ (run past {}).all) (beats : y.Beats x) : TwoWays now x y (run past {}) :=
  (coherent_empty.run past).twoWays stored beats now

/-- A follower took over a record, and then a heartbeat from a clock ahead of its own.  It beats
    with its id alone, once before its own clock is there and once after it. -/
theorem ways_of_beating_ahead :
    let stored : Instance :=
      { id := "i", identity := ⟨"s", "h", 80⟩, registered := .ofSecs 5, heartbeat := .ofSecs 90 }
    let past : List (Int64 × Operation) :=
      [(7, .merge { stored with heartbeat := .ofSecs 6 }), (8, .touch "i" 90 "")]
    let bare : Instance := { id := "i" }
    stored ∈ (run past {}).all ∧ bare.Beats stored
      ∧ TwoWays 20 stored bare (run past {}) ∧ TwoWays 95 stored bare (run past {}) := by
  intro stored past bare
  have there : stored ∈ (run past {}).all := by decide
  have beats : bare.Beats stored := ⟨rfl, .inl ⟨rfl, rfl, rfl⟩, by decide⟩
  exact ⟨there, beats, ways_of_beating past 20 stored bare there beats,
    ways_of_beating past 95 stored bare there beats⟩

/-- There the two ways part: the heartbeat takes the record back to the clock, the registration does
    not. -/
theorem heartbeat_moves_back :
    let stored : Instance :=
      { id := "i", identity := ⟨"s", "h", 80⟩, registered := .ofSecs 5, heartbeat := .ofSecs 90 }
    let s : Store := run [(7, .merge stored)] {}
    let again : Instance := { stored with heartbeat := .unset }
    s.all = [stored] ∧ again.claim = stored.claim
      ∧ (s.register 20 again).1 = .ok (.refreshed stored) ∧ (s.register 20 again).2 = s
      ∧ (s.heartbeat 20 stored.claim).1 = .ok { stored with heartbeat := .ofSecs 20 }
      ∧ (s.heartbeat 20 stored.claim).2 ≠ (s.register 20 again).2 := by
  intro stored s again
  refine ⟨by decide, rfl, rfl, ?_, rfl, ?_⟩ <;> decide

end Store

end ServiceRegistry
