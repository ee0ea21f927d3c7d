/-
  A sweeper at work.

  A sweeper's loop looks for a tick of its timer and for an event of the cluster.  If one is there
  it takes it up, sweeps or does not, and looks again; if none is, it waits.  Time passes, events
  are sent, their channel is closed and the service changes at any moment, also while the loop is at
  work.

  1. **One answer.**  A sweep is all that a wakeup can call for, and at the same clock a second one
     has nothing left to do (`answerWakeups_eq`).  After a sweep of the master no record is expired
     (`Rousing.lawful`).
  2. **The loop.**  `Watch.Takes` is what the loop may take up, in any order; `Watch.Aside` is what
     happens beside it.  It waits until its next tick and for the next event (`waits_iff`).
  3. **What is answered** is answered lawfully at any time (`Sound`).
  4. **The timer.**  A tick is taken up when its time has come, not before (`Punctual`), and when
     the loop waits none that is due is left (`Punctual.lt_ticks`).
-/
import ServiceRegistry.Proofs.Service.Sweeping
import ServiceRegistry.Service.Sweeper

namespace ServiceRegistry

/-! ## One answer -/

/-- The two wakeups that call for a sweep. -/
theorem Wakeup.sweeps_iff {w : Wakeup} :
    w.sweeps = true ↔ w = .tick ∨ w = .event .becameMaster := by
  constructor
  · intro sweeps
    cases w with
    | tick => exact .inl rfl
    | event e =>
      cases e with
      | becameMaster => exact .inr rfl
      | masterChanged master => cases sweeps
    | lagged | closed => cases sweeps
  · rintro (rfl | rfl) <;> rfl

/-- The event of a wakeup. -/
def Wakeup.event? : Wakeup → Option ClusterEvent
  | .event e => some e
  | _ => none

/-- Only an event brings an event. -/
theorem Wakeup.event?_eq_some_iff {w : Wakeup} {e : ClusterEvent} :
    w.event? = some e ↔ w = .event e := by
  cases w <;> simp [event?]

namespace Service

variable {s : Service} {now : Int64}

/-- A sweep leaves nothing for another one at the same clock, whatever the role. -/
theorem sweep_sweep (h : s.store.Coherent) (clock : 0 ≤ now) (isMaster : Bool) (timeout : UInt64) :
    ((s.sweep isMaster now timeout).2.1.sweep isMaster now timeout).2
      = ((s.sweep isMaster now timeout).2.1, []) := by
  cases isMaster with
  | true => exact congrArg Prod.snd (sweepsExactly h clock timeout).again
  | false => rfl

/-- After a sweep of the master no record is expired. -/
theorem expired_sweep (h : s.store.Coherent) (clock : 0 ≤ now) (timeout : UInt64) :
    (s.sweep true now timeout).2.1.store.expired now timeout = [] := by
  rw [sweep_of_overdue h clock timeout, Store.expired_eq_overdue clock]
  exact h.overdue_removes_overdue now.toInt timeout.toNat

/-- A wakeup that calls for a sweep: the rest is answered by the service the sweep has left. -/
theorem answerWakeups_sweep {w : Wakeup} (sweeps : w.sweeps = true) (isMaster : Bool) (now : Int64)
    (timeout : UInt64) (ws : List Wakeup) (s : Service) :
    s.answerWakeups isMaster now timeout (w :: ws)
      = let (_, s', orders) := s.sweep isMaster now timeout
        let (s'', more) := s'.answerWakeups isMaster now timeout ws
        (s'', orders ++ more) := by
  rw [answerWakeups, if_pos sweeps]

/-- One that does not is passed over. -/
theorem answerWakeups_idle {w : Wakeup} (idle : w.sweeps = false) (isMaster : Bool) (now : Int64)
    (timeout : UInt64) (ws : List Wakeup) (s : Service) :
    s.answerWakeups isMaster now timeout (w :: ws) = s.answerWakeups isMaster now timeout ws := by
  rw [answerWakeups, idle]
  rfl

/-- Wakeups that are answered at one clock come to one sweep, or to nothing. -/
theorem answerWakeups_eq (h : s.store.Coherent) (clock : 0 ≤ now) (isMaster : Bool)
    (timeout : UInt64) (ws : List Wakeup) :
    s.answerWakeups isMaster now timeout ws
      = if ws.any Wakeup.sweeps then (s.sweep isMaster now timeout).2 else (s, []) := by
  induction ws generalizing s with
  | nil => rfl
  | cons w ws ih =>
    cases sweeps : w.sweeps with
    | false =>
      rw [answerWakeups_idle sweeps, ih h, List.any_cons, sweeps, Bool.false_or]
    | true =>
      -- whatever the rest calls for, this sweep leaves it nothing to do
      have coherent := (accounted_sweep h isMaster now timeout).coherent
      rw [answerWakeups_sweep sweeps, List.any_cons, sweeps, Bool.true_or]
      dsimp only
      rw [ih coherent, sweep_sweep h clock, ite_self]
      dsimp only
      rw [List.append_nil]
      rfl

/-- The last wakeup is answered by the service the others have left. -/
theorem answerWakeups_concat (isMaster : Bool) (now : Int64) (timeout : UInt64) (ws : List Wakeup)
    (w : Wakeup) (s : Service) :
    s.answerWakeups isMaster now timeout (ws ++ [w])
      = let (s', orders) := s.answerWakeups isMaster now timeout ws
        let (s'', more) := s'.answerWakeups isMaster now timeout [w]
        (s'', orders ++ more) := by
  induction ws generalizing s with
  | nil => rfl
  | cons v ws ih =>
    rw [List.cons_append]
    cases sweeps : v.sweeps with
    | false =>
      rw [answerWakeups_idle sweeps, answerWakeups_idle sweeps]
      exact ih s
    | true =>
      rw [answerWakeups_sweep sweeps, answerWakeups_sweep sweeps]
      dsimp only
      rw [ih]
      dsimp only
      rw [List.append_assoc]

end Service

namespace Sweeper

/-- The ticks due at a timer reading: the first at `next`, then one in every period. -/
theorem lt_ticksDue {s : Sweeper} (period : 0 < s.period) {timer k : Nat} :
    k < s.ticksDue timer ↔ s.next + k * s.period ≤ timer := by
  unfold ticksDue
  split
  · rename_i early
    have later : s.next ≤ s.next + k * s.period := Nat.le_add_right _ _
    omega
  · rename_i due
    rw [Nat.lt_succ_iff, Nat.le_div_iff_mul_le period]
    omega

end Sweeper

/-- A wakeup that a sweeper has answered: the service as it stood then, and the role and the clock
    that were read. -/
structure Rousing where
  wakeup : Wakeup
  service : Service
  isMaster : Bool
  now : Int64

namespace Rousing

/-- The service after it, and what is asked of the cluster. -/
def outcome (timeout : UInt64) (r : Rousing) : Service × List Order :=
  r.service.answerWakeups r.isMaster r.now timeout [r.wakeup]

/-- How a wakeup is answered. -/
structure Lawful (timeout : UInt64) (r : Rousing) : Prop where
  /-- A tick and the news of becoming master are answered with a sweep. -/
  sweeps : r.wakeup = .tick ∨ r.wakeup = .event .becameMaster →
    r.outcome timeout = (r.service.sweep r.isMaster r.now timeout).2
  /-- If the node is master no expired record is left. -/
  clears : r.wakeup = .tick ∨ r.wakeup = .event .becameMaster → r.isMaster = true →
    (r.outcome timeout).1.store.expired r.now timeout = []
  /-- Nothing is done about anything else. -/
  idles : r.wakeup ≠ .tick → r.wakeup ≠ .event .becameMaster → r.outcome timeout = (r.service, [])

/-- A single wakeup comes to a sweep, or to nothing. -/
theorem outcome_eq (r : Rousing) (h : r.service.store.Coherent) (clock : 0 ≤ r.now)
    (timeout : UInt64) :
    r.outcome timeout
      = if r.wakeup.sweeps then (r.service.sweep r.isMaster r.now timeout).2
        else (r.service, []) := by
  rw [outcome, Service.answerWakeups_eq h clock, List.any_cons, List.any_nil, Bool.or_false]

/-- So it is answered lawfully, in any role and at any clock that is not negative. -/
theorem lawful (r : Rousing) (h : r.service.store.Coherent) (clock : 0 ≤ r.now)
    (timeout : UInt64) : r.Lawful timeout := by
  have eq := r.outcome_eq h clock timeout
  refine ⟨?_, ?_, ?_⟩
  · intro called
    rw [eq, if_pos (Wakeup.sweeps_iff.2 called)]
  · intro called master
    rw [eq, if_pos (Wakeup.sweeps_iff.2 called), master]
    exact Service.expired_sweep h clock timeout
  · intro other other'
    rw [eq, if_neg fun called => (Wakeup.sweeps_iff.1 called).elim other other']

/-- Whatever the answer, the table stays coherent. -/
theorem coherent_outcome (r : Rousing) (h : r.service.store.Coherent) (clock : 0 ≤ r.now)
    (timeout : UInt64) : (r.outcome timeout).1.store.Coherent := by
  rw [r.outcome_eq h clock]
  split
  · exact (Service.accounted_sweep h r.isMaster r.now timeout).coherent
  · exact h

end Rousing

/-! ## The loop -/

/-- A sweeper's loop as it looks for something to do: what its timer reads, the events sent to it
    that it has not looked for yet, whether their channel is closed, and the service. -/
structure Watch where
  sweeper : Sweeper
  timer : Nat
  unread : List ClusterEvent := []
  closed : Bool := false
  service : Service := {}

/-- What happens to a sweeper's loop, and what it does itself. -/
inductive Happening
  | passes (ms : Nat)
  | sends (e : ClusterEvent)
  | closes
  | drifts
  | answers (r : Rousing)

namespace Happening

/-- The event that is sent. -/
def event? : Happening → Option ClusterEvent
  | .sends e => some e
  | _ => none

/-- The wakeup that is answered. -/
def rousing? : Happening → Option Rousing
  | .answers r => some r
  | _ => none

/-- The loop answers something. -/
def IsAnswer (h : Happening) : Prop := ∃ r, h = .answers r

/-- The loop answers something in this role and at this clock reading. -/
def AnswersAs (isMaster : Bool) (now : Int64) (h : Happening) : Prop :=
  ∃ r, h = .answers r ∧ r.isMaster = isMaster ∧ r.now = now

end Happening

namespace Watch

/-- What the loop may take up.  The channel keeps the newest events, as many as its capacity: a
    listener that has fallen behind is told how many it has missed, and goes on with the oldest that
    is kept.  One that is told of the end stops listening. -/
inductive Takes (capacity : Nat) (w : Watch) : Wakeup → Watch → Prop
  | tick (due : w.sweeper.next ≤ w.timer) :
      Takes capacity w .tick { w with sweeper.next := w.sweeper.next + w.sweeper.period }
  | event {e : ClusterEvent} {es : List ClusterEvent} (listening : w.sweeper.listening = true)
      (unread : w.unread = e :: es) (kept : w.unread.length ≤ capacity) :
      Takes capacity w (.event e) { w with unread := es }
  | lagged (listening : w.sweeper.listening = true) (behind : capacity < w.unread.length) :
      Takes capacity w (.lagged (w.unread.length - capacity))
        { w with unread := w.unread.drop (w.unread.length - capacity) }
  | closed (listening : w.sweeper.listening = true) (unread : w.unread = [])
      (shut : w.closed = true) :
      Takes capacity w .closed { w with sweeper.listening := false }

/-- The loop waits: there is nothing to take up. -/
def Waits (capacity : Nat) (w : Watch) : Prop := ∀ x w', ¬ w.Takes capacity x w'

/-- What happens beside the loop.  Nothing is sent after the channel is closed; the service may
    become any other one whose table is coherent. -/
inductive Aside (w : Watch) : Happening → Watch → Prop
  | pass (ms : Nat) : Aside w (.passes ms) { w with timer := w.timer + ms }
  | send (e : ClusterEvent) (unclosed : w.closed = false) :
      Aside w (.sends e) { w with unread := w.unread ++ [e] }
  | close : Aside w .closes { w with closed := true }
  | drift (service : Service) (coherent : service.store.Coherent) :
      Aside w .drifts { w with service }

/-- What happens next.  The loop answers what it takes up, in any role and at any clock reading. -/
inductive Step (capacity : Nat) (w : Watch) : Happening → Watch → Prop
  | aside {h : Happening} {w' : Watch} (aside : w.Aside h w') : Step capacity w h w'
  | answer {x : Wakeup} {w' : Watch} (takes : w.Takes capacity x w') (isMaster : Bool) (now : Int64)
      (clock : 0 ≤ now) :
      Step capacity w (.answers ⟨x, w.service, isMaster, now⟩)
        { w' with
          service := (Rousing.outcome w.sweeper.timeout ⟨x, w.service, isMaster, now⟩).1 }

/-- What happens in the course of time. -/
inductive Runs (capacity : Nat) (w : Watch) : List Happening → Watch → Prop
  | rest : Runs capacity w [] w
  | step {hs : List Happening} {h : Happening} {w' w'' : Watch} (before : Runs capacity w hs w')
      (step : w'.Step capacity h w'') : Runs capacity w (hs ++ [h]) w''

/-- The events sent in the course of time. -/
def sent (hs : List Happening) : List ClusterEvent := hs.filterMap Happening.event?

/-- The wakeups answered, each with what was found then. -/
def answered (hs : List Happening) : List Rousing := hs.filterMap Happening.rousing?

/-- The wakeups answered. -/
def wakeups (hs : List Happening) : List Wakeup := (answered hs).map (·.wakeup)

/-- The events received. -/
def heard (hs : List Happening) : List ClusterEvent := (wakeups hs).filterMap Wakeup.event?

/-- How many ticks were answered. -/
def ticks (hs : List Happening) : Nat := (wakeups hs).count .tick

variable {capacity : Nat} {w w' w'' : Watch} {x : Wakeup} {h : Happening} {hs : List Happening}

namespace Aside

/-- What happens beside the loop is no answer of it; -/
theorem silent (aside : w.Aside h w') : h.rousing? = none := by
  cases aside <;> rfl

/-- leaves its timer and its settings alone; -/
theorem sweeper (aside : w.Aside h w') : w'.sweeper = w.sweeper := by
  cases aside <;> rfl

/-- never turns the clock back; -/
theorem timer (aside : w.Aside h w') : w.timer ≤ w'.timer := by
  cases aside with
  | pass ms => exact Nat.le_add_right w.timer ms
  | send | close | drift => exact Nat.le_refl w.timer

/-- and adds to what it has not read just the event that is sent. -/
theorem unread (aside : w.Aside h w') : w'.unread = w.unread ++ h.event?.toList := by
  cases aside with
  | send e unclosed => rfl
  | pass | close | drift => exact (List.append_nil w.unread).symm

/-- After the channel is closed nothing more is sent. -/
theorem closed (aside : w.Aside h w') (shut : w.closed = true) :
    w'.closed = true ∧ w'.unread = w.unread := by
  cases aside with
  | send e unclosed =>
    rw [unclosed] at shut
    cases shut
  | close => exact ⟨rfl, rfl⟩
  | pass | drift => exact ⟨shut, rfl⟩

/-- Nor does it harm the table. -/
theorem coherent (aside : w.Aside h w') (coherent : w.service.store.Coherent) :
    w'.service.store.Coherent := by
  cases aside with
  | drift service coherent' => exact coherent'
  | pass | send | close => exact coherent

end Aside

/-- What is taken up changes neither the timeout nor the clock nor the end of the events. -/
theorem Takes.keeps (takes : w.Takes capacity x w') :
    w'.sweeper.timeout = w.sweeper.timeout ∧ w'.timer = w.timer ∧ w'.closed = w.closed := by
  cases takes <;> exact ⟨rfl, rfl, rfl⟩

/-- What is no answer adds nothing to the answers, -/
theorem answered_silent (silent : h.rousing? = none) : answered (hs ++ [h]) = answered hs := by
  simp [answered, silent]

/-- nor to the wakeups. -/
theorem wakeups_silent (silent : h.rousing? = none) : wakeups (hs ++ [h]) = wakeups hs := by
  rw [wakeups, answered_silent silent, wakeups]

/-- An answer is the last of the answers, -/
@[simp] theorem answered_answers (r : Rousing) :
    answered (hs ++ [.answers r]) = answered hs ++ [r] := by
  simp [answered, Happening.rousing?]

/-- and its wakeup the last of the wakeups. -/
@[simp] theorem wakeups_answers (r : Rousing) :
    wakeups (hs ++ [.answers r]) = wakeups hs ++ [r.wakeup] := by
  simp [wakeups, answered_answers]

/-- The events sent, when one more thing has happened. -/
theorem sent_concat : sent (hs ++ [h]) = sent hs ++ h.event?.toList := by
  cases event : h.event? <;> simp [sent, event]

/-- The loop waits until its next tick, and for the next event or the end of the events. -/
theorem waits_iff : w.Waits capacity
    ↔ w.timer < w.sweeper.next
      ∧ (w.sweeper.listening = true → w.unread = [] ∧ w.closed = false) := by
  constructor
  · intro waits
    -- anything else would be taken up
    refine ⟨?_, ?_⟩
    · rcases Nat.lt_or_ge w.timer w.sweeper.next with early | due
      · exact early
      · exact absurd (.tick due) (waits _ _)
    · intro listening
      cases unread : w.unread with
      | nil =>
        refine ⟨rfl, ?_⟩
        cases shut : w.closed with
        | false => rfl
        | true => exact absurd (.closed listening unread shut) (waits _ _)
      | cons e es =>
        rcases Nat.lt_or_ge capacity w.unread.length with behind | kept
        · exact absurd (.lagged listening behind) (waits _ _)
        · exact absurd (.event listening unread kept) (waits _ _)
  · rintro ⟨early, quiet⟩ x w' takes
    cases takes with
    | tick due => omega
    | event listening unread kept =>
      rw [(quiet listening).1] at unread
      cases unread
    | lagged listening behind =>
      rw [(quiet listening).1] at behind
      cases behind
    | closed listening unread shut =>
      rw [(quiet listening).2] at shut
      cases shut

/-! ## What is answered -/

/-- What goes for the answers at any time.  Each was given by a service with a coherent table, for
    whatever happens beside the loop keeps tables coherent. -/
structure Sound (w : Watch) (hs : List Happening) (w' : Watch) : Prop where
  timeout : w'.sweeper.timeout = w.sweeper.timeout
  coherent : w'.service.store.Coherent
  lawful : ∀ r ∈ answered hs, r.Lawful w.sweeper.timeout

/-- One more step keeps the answers lawful: at each the table was coherent. -/
theorem Sound.step (sound : w.Sound hs w') (step : w'.Step capacity h w'') :
    w.Sound (hs ++ [h]) w'' := by
  obtain ⟨timeout, coherent, lawful⟩ := sound
  cases step with
  | aside aside =>
    refine ⟨?_, aside.coherent coherent, ?_⟩
    · rw [aside.sweeper, timeout]
    · rwa [answered_silent aside.silent]
  | @answer x _ takes isMaster now clock =>
    let r : Rousing := ⟨x, w'.service, isMaster, now⟩
    have kept : (r.outcome w'.sweeper.timeout).1.store.Coherent :=
      r.coherent_outcome coherent clock _
    refine ⟨takes.keeps.1.trans timeout, kept, ?_⟩
    rw [answered_answers]
    refine List.forall_mem_append.2 ⟨lawful, List.forall_mem_singleton.2 ?_⟩
    exact timeout ▸ r.lawful coherent clock _

/-- Every answer of a run is lawful. -/
theorem Runs.sound (runs : w.Runs capacity hs w') (coherent : w.service.store.Coherent) :
    w.Sound hs w' := by
  induction runs with
  | rest => exact ⟨rfl, coherent, List.forall_mem_nil _⟩
  | step before step ih => exact ih.step step

/-! ## The timer -/

/-- What goes for the ticks at any time.  They are counted, not remembered: the next one is due as
    many periods after the first as were answered, so none is lost when the loop is late and none
    comes early. -/
structure Punctual (w : Watch) (hs : List Happening) (w' : Watch) : Prop where
  period : w'.sweeper.period = w.sweeper.period
  next : w'.sweeper.next = w.sweeper.next + ticks hs * w.sweeper.period
  due : ∀ k, k < ticks hs → w.sweeper.next + k * w.sweeper.period ≤ w'.timer

/-- What is no answer leaves the count of the ticks. -/
theorem ticks_silent (silent : h.rousing? = none) : ticks (hs ++ [h]) = ticks hs := by
  rw [ticks, wakeups_silent silent, ticks]

/-- An answer is counted if it is to a tick. -/
theorem ticks_answers (hs : List Happening) (r : Rousing) :
    ticks (hs ++ [.answers r]) = ticks hs + if r.wakeup = .tick then 1 else 0 := by
  rw [ticks, wakeups_answers, List.count_append, ticks, List.count_singleton]
  simp

/-- One more step: only a tick moves the timer on, and only when its time has come. -/
theorem Punctual.step (punctual : w.Punctual hs w') (step : w'.Step capacity h w'') :
    w.Punctual (hs ++ [h]) w'' := by
  obtain ⟨period, next, due⟩ := punctual
  cases step with
  | aside aside =>
    have same : ticks (hs ++ [h]) = ticks hs := ticks_silent aside.silent
    refine ⟨?_, ?_, ?_⟩
    · rw [aside.sweeper, period]
    · rw [aside.sweeper, same, next]
    · intro k hk
      exact Nat.le_trans (due k (same ▸ hk)) aside.timer
  | @answer x _ takes isMaster now clock =>
    have count := ticks_answers hs ⟨x, w'.service, isMaster, now⟩
    cases takes with
    | tick now_due =>
      replace count : _ = ticks hs + 1 := count
      refine ⟨period, ?_, ?_⟩
      · show w'.sweeper.next + w'.sweeper.period = _
        rw [count, next, period, Nat.succ_mul, Nat.add_assoc]
      · intro k hk
        -- the last tick has come due where the timer stands now, those before it had done so
        rcases Nat.lt_succ_iff_lt_or_eq.1 (count ▸ hk) with earlier | rfl
        · exact due k earlier
        · exact next ▸ now_due
    | event | lagged | closed =>
      replace count : _ = ticks hs := count
      exact ⟨period, count ▸ next, count ▸ due⟩

/-- A run keeps to its timer. -/
theorem Runs.punctual (runs : w.Runs capacity hs w') : w.Punctual hs w' := by
  induction runs with
  | rest => exact ⟨rfl, (Nat.zero_mul _).symm ▸ rfl, fun k hk => absurd hk (Nat.not_lt_zero k)⟩
  | step before step ih => exact ih.step step

/-- So when the loop waits again it has answered each tick that is due. -/
theorem Punctual.lt_ticks (punctual : w.Punctual hs w') (waits : w'.Waits capacity) {k : Nat} :
    k < ticks hs ↔ w.sweeper.next + k * w.sweeper.period ≤ w'.timer := by
  constructor
  · intro hk
    exact punctual.due k hk
  · intro due
    have early := (waits_iff.1 waits).1
    rw [punctual.next] at early
    by_cases answered : k < ticks hs
    · exact answered
    · -- the next tick comes no later than this one would, and it is not due
      have later : ticks hs * w.sweeper.period ≤ k * w.sweeper.period :=
        Nat.mul_le_mul_right _ (Nat.le_of_not_lt answered)
      omega

end Watch

end ServiceRegistry
