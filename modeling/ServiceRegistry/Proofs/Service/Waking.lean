/-
  When a sweeper sweeps.

  Whatever happens, a sweeper that waits again has swept since it last waited just when it had to.

  1. **The events.**  They are received in order; who falls behind is told so, and the newest never
     fail to be received (`Follows`); of what was sent at once only they are (`Runs.batch`).  So the
     news of becoming master is heeded when it is the last that was sent (`Runs.heeded`).
  2. **Answers alone.**  While nothing else happens the loop takes up what it finds (`Works`).  In
     one role and at one clock reading this comes to the answer to what was due, all at once, and
     leaves the sweeper at rest (`Runs.settled`).
  3. `sweeps_when_due`: the loop goes on, and has done what it must whenever it waits.
-/
import ServiceRegistry.Proofs.Service.Watch

namespace ServiceRegistry

namespace Watch

variable {capacity : Nat} {w w' w'' : Watch} {x : Wakeup} {h : Happening} {hs : List Happening}

/-! ## The events -/

/-- The newest events, as many as a channel keeps. -/
def newest (capacity : Nat) (es : List ClusterEvent) : List ClusterEvent :=
  es.drop (es.length - capacity)

/-- More events push out older ones, and never a newer one. -/
theorem newest_append (capacity : Nat) (es es' : List ClusterEvent) :
    newest capacity (es ++ es') <:+ newest capacity es ++ es' := by
  rw [newest, newest, ← List.drop_append_of_le_length (Nat.sub_le _ _)]
  refine List.drop_suffix_drop_left _ ?_
  rw [List.length_append]
  omega

/-- A channel that is not full keeps them all; -/
theorem newest_of_le {es : List ClusterEvent} (kept : es.length ≤ capacity) :
    newest capacity es = es := by
  rw [newest, Nat.sub_eq_zero_of_le kept, List.drop_zero]

/-- a full one keeps as many as its capacity. -/
theorem length_newest_le (capacity : Nat) (es : List ClusterEvent) :
    (newest capacity es).length ≤ capacity := by
  rw [newest, List.length_drop]
  omega

/-- What goes for the events at any time.  A channel that is too full loses the oldest events, so
    what was received is in order and ends like what was sent, and it is all of it unless the
    listener was told otherwise. -/
structure Follows (capacity : Nat) (w : Watch) (hs : List Happening) (w' : Watch) : Prop where
  /-- They are received in the order in which they were sent. -/
  order : (heard hs ++ w'.unread).Sublist (w.unread ++ sent hs)
  /-- The newest have been received or are still to be. -/
  kept : newest capacity (w.unread ++ sent hs) <:+ heard hs ++ w'.unread
  /-- So are all, unless the listener was told that it has missed some. -/
  all : (∀ n, .lagged n ∉ wakeups hs) → heard hs ++ w'.unread = w.unread ++ sent hs
  /-- Who stops listening has received what was to be received. -/
  ended : w.sweeper.listening = true → w'.sweeper.listening = false →
    w'.unread = [] ∧ w'.closed = true

/-- What is no answer is not heard. -/
theorem heard_silent (silent : h.rousing? = none) : heard (hs ++ [h]) = heard hs := by
  rw [heard, wakeups_silent silent, heard]

/-- An answer adds the event of its wakeup, if that is one. -/
theorem heard_answers (hs : List Happening) (r : Rousing) :
    heard (hs ++ [.answers r]) = heard hs ++ r.wakeup.event?.toList := by
  cases event : r.wakeup.event? <;> simp [heard, wakeups_answers, event]

/-- What is heard in two stretches of time. -/
@[simp] theorem heard_append (l r : List Happening) : heard (l ++ r) = heard l ++ heard r := by
  simp [heard, wakeups, answered]

/-- What is sent in two stretches of time. -/
@[simp] theorem sent_append (l r : List Happening) : sent (l ++ r) = sent l ++ sent r := by
  simp [sent]

/-- What was answered stays answered. -/
theorem mem_wakeups_concat (hx : x ∈ wakeups hs) : x ∈ wakeups (hs ++ [h]) := by
  rw [wakeups, answered, List.filterMap_append, List.map_append]
  exact List.mem_append_left _ hx

/-- What becomes of the order, the newest and all of them while nothing is sent or missed. -/
theorem Follows.shift (follows : w.Follows capacity hs w') (silent : h.event? = none)
    (hears : heard (hs ++ [h]) ++ w''.unread = heard hs ++ w'.unread)
    (ended : w.sweeper.listening = true → w''.sweeper.listening = false →
      w''.unread = [] ∧ w''.closed = true) : w.Follows capacity (hs ++ [h]) w'' := by
  have sends : sent (hs ++ [h]) = sent hs := by
    rw [sent_concat, silent]
    exact List.append_nil _
  refine ⟨?_, ?_, ?_, ended⟩
  · rw [hears, sends]
    exact follows.order
  · rw [hears, sends]
    exact follows.kept
  · intro none
    rw [hears, sends, follows.all fun n hn => none n (mem_wakeups_concat hn)]

/-- What happens beside the loop: an event that is sent comes last. -/
theorem Follows.aside (follows : w.Follows capacity hs w') (aside : w'.Aside h w'') :
    w.Follows capacity (hs ++ [h]) w'' := by
  obtain ⟨order, kept, all, ended⟩ := follows
  have hears : heard (hs ++ [h]) ++ w''.unread = heard hs ++ w'.unread ++ h.event?.toList := by
    rw [heard_silent aside.silent, aside.unread, List.append_assoc]
  have sends : w.unread ++ sent (hs ++ [h]) = w.unread ++ sent hs ++ h.event?.toList := by
    rw [sent_concat, List.append_assoc]
  refine ⟨?_, ?_, ?_, ?_⟩
  · rw [hears, sends]
    exact order.append_right _
  · rw [hears, sends]
    -- what is sent is the newest, and lets go of as many of those before as there is no room for
    obtain ⟨older, split⟩ := kept
    refine (newest_append capacity _ _).trans ⟨older, ?_⟩
    rw [← List.append_assoc, split]
  · intro none
    rw [wakeups_silent aside.silent] at none
    rw [hears, sends, all none]
  · intro listening deaf
    obtain ⟨unread, closed⟩ := ended listening (aside.sweeper ▸ deaf)
    obtain ⟨closed', same⟩ := aside.closed closed
    exact ⟨same.trans unread, closed'⟩

/-- A lag passes over events that are not among the newest. -/
theorem Follows.lagged (follows : w.Follows capacity hs w')
    (listening : w'.sweeper.listening = true) (behind : capacity < w'.unread.length) {r : Rousing}
    (told : r.wakeup = .lagged (w'.unread.length - capacity)) :
    w.Follows capacity (hs ++ [.answers r])
      { w'' with
        sweeper := w'.sweeper
        unread := w'.unread.drop (w'.unread.length - capacity) } := by
  obtain ⟨order, kept, all, -⟩ := follows
  have hears : heard (hs ++ [.answers r]) = heard hs := by
    rw [heard_answers, told]
    exact List.append_nil _
  have sends : sent (hs ++ [.answers r]) = sent hs := by
    rw [sent_concat]
    exact List.append_nil _
  refine ⟨?_, ?_, ?_, ?_⟩
  · rw [hears, sends]
    exact ((List.drop_sublist _ _).append_left _).trans order
  · rw [hears, sends]
    have left := List.drop_suffix (w'.unread.length - capacity) w'.unread
    have length : (w'.unread.drop (w'.unread.length - capacity)).length = capacity := by
      rw [List.length_drop]
      omega
    -- both are ends of what was to be received, and the newest are no more than what is left
    refine (List.suffix_of_suffix_length_le kept (left.trans (List.suffix_append _ _)) ?_).trans
      (List.suffix_append _ _)
    rw [length]
    exact length_newest_le capacity _
  · intro none
    refine absurd ?_ (none (w'.unread.length - capacity))
    rw [wakeups_answers, told]
    exact List.mem_append_right _ List.mem_cons_self
  · intro _ deaf
    exact absurd (listening.symm.trans deaf) (by decide)

/-- One more step.  A tick and the end of the events take nothing from what is unread, an event its
    first, and a lag what is not among the newest. -/
theorem Follows.step (follows : w.Follows capacity hs w') (step : w'.Step capacity h w'') :
    w.Follows capacity (hs ++ [h]) w'' := by
  cases step with
  | aside aside => exact follows.aside aside
  | @answer x _ takes isMaster now clock =>
    have hears := heard_answers hs ⟨x, w'.service, isMaster, now⟩
    cases takes with
    | tick due =>
      refine follows.shift rfl ?_ follows.ended
      rw [hears, List.append_assoc]
      rfl
    | @event e es listening unread kept =>
      refine follows.shift rfl ?_ fun _ deaf => ?_
      · rw [hears, unread, List.append_assoc]
        rfl
      · exact absurd (listening.symm.trans deaf) (by decide)
    | closed listening unread shut =>
      refine follows.shift rfl ?_ fun _ _ => ⟨unread, shut⟩
      rw [hears, List.append_assoc]
      rfl
    | lagged listening behind => exact follows.lagged listening behind rfl

/-- A run receives the events in order, and the newest in any case. -/
theorem Runs.follows (runs : w.Runs capacity hs w') : w.Follows capacity hs w' := by
  induction runs with
  | rest =>
    have none : w.unread ++ sent [] = w.unread := List.append_nil _
    refine ⟨?_, ?_, ?_, ?_⟩
    · rw [none]
      exact .refl _
    · rw [none]
      exact List.drop_suffix _ _
    · intro _
      exact none.symm
    · intro listening deaf
      exact absurd (listening.symm.trans deaf) (by decide)
  | step before step ih => exact ih.step step

/-- While nothing is sent it is the newest that are received. -/
theorem Runs.keeps_newest (runs : w.Runs capacity hs w') (silent : sent hs = []) :
    heard hs ++ newest capacity w'.unread = newest capacity w.unread := by
  induction runs with
  | rest => rfl
  | @step hs h w' w'' before step ih =>
    rw [sent_concat, List.append_eq_nil_iff] at silent
    obtain ⟨silent, none⟩ := silent
    rw [← ih silent]
    cases step with
    | aside aside => rw [heard_silent aside.silent, aside.unread, none, List.append_nil]
    | @answer x _ takes isMaster now clock =>
      rw [heard_answers, List.append_assoc]
      cases takes with
      | tick | closed => rfl
      | @event e es listening unread kept =>
        have later : es.length ≤ capacity := by
          rw [unread, List.length_cons] at kept
          omega
        rw [newest_of_le kept, newest_of_le later, unread]
        rfl
      | lagged listening behind =>
        have later : (w'.unread.drop (w'.unread.length - capacity)).length ≤ capacity :=
          length_newest_le capacity w'.unread
        rw [newest_of_le later]
        rfl

/-- A run may be parted at any moment. -/
theorem Runs.split {l r : List Happening} (runs : w.Runs capacity (l ++ r) w') :
    ∃ v, w.Runs capacity l v ∧ v.Runs capacity r w' := by
  generalize whole : l ++ r = hs at runs
  induction runs generalizing r with
  | rest =>
    obtain ⟨rfl, rfl⟩ := List.append_eq_nil_iff.1 whole
    exact ⟨w, .rest, .rest⟩
  | step before step ih =>
    rcases List.eq_nil_or_concat r with rfl | ⟨r, h, rfl⟩
    · rw [List.append_nil] at whole
      subst whole
      exact ⟨_, .step before step, .rest⟩
    · rw [List.concat_eq_append, ← List.append_assoc] at whole
      obtain ⟨front, last⟩ := List.append_inj' whole rfl
      cases last
      obtain ⟨v, first, later⟩ := ih front
      rw [List.concat_eq_append]
      exact ⟨v, first, later.step step⟩

/-- So when all was sent before anything was answered, the newest have been received or are still
    to be. -/
theorem Runs.batch {before after : List Happening} (runs : w.Runs capacity (before ++ after) w')
    (idle : answered before = []) (silent : sent after = []) :
    heard (before ++ after) ++ newest capacity w'.unread
      = newest capacity (w.unread ++ sent (before ++ after)) := by
  obtain ⟨v, first, later⟩ := runs.split
  have none : wakeups before = [] := by rw [wakeups, idle, List.map_nil]
  have deaf : heard before = [] := by rw [heard, none, List.filterMap_nil]
  have unread : v.unread = w.unread ++ sent before := by
    have all := first.follows.all fun n hn => by
      rw [none] at hn
      cases hn
    rwa [deaf] at all
  rw [heard_append, sent_append, deaf, silent, List.append_nil, ← unread]
  exact later.keeps_newest silent

/-- A sweeper that does not listen receives nothing. -/
theorem Runs.deaf (runs : w.Runs capacity hs w') (deaf : w.sweeper.listening = false) :
    w'.sweeper.listening = false ∧ ∀ x ∈ wakeups hs, x = .tick := by
  induction runs with
  | rest => exact ⟨deaf, List.forall_mem_nil _⟩
  | step before step ih =>
    obtain ⟨deaf, none⟩ := ih
    cases step with
    | aside aside =>
      rw [aside.sweeper, wakeups_silent aside.silent]
      exact ⟨deaf, none⟩
    | answer takes isMaster now clock =>
      rw [wakeups_answers]
      cases takes with
      | tick due =>
        refine ⟨deaf, List.forall_mem_append.2 ⟨none, ?_⟩⟩
        exact List.forall_mem_singleton.2 rfl
      | event listening | lagged listening | closed listening =>
        exact absurd (listening.symm.trans deaf) (by decide)

/-- The news of becoming master was answered after the last event had been sent. -/
def Heeded (hs : List Happening) : Prop :=
  ∃ before r after, hs = before ++ .answers r :: after ∧ sent after = []
    ∧ r.wakeup = .event .becameMaster

/-- What was heeded stays so until an event is sent. -/
theorem Heeded.concat (heeded : Heeded hs) (silent : h.event? = none) : Heeded (hs ++ [h]) := by
  obtain ⟨before, r, after, rfl, none, news⟩ := heeded
  refine ⟨before, r, after ++ [h], by simp, ?_, news⟩
  rw [sent_concat, none, silent]
  rfl

/-- When it is the last event to be received it is taken up now or stays the last: a channel always
    keeps the last event. -/
theorem Takes.news (room : 0 < capacity) (takes : w.Takes capacity x w')
    (last : w.unread.getLast? = some .becameMaster) :
    w'.unread.getLast? = some .becameMaster ∨ x = .event .becameMaster := by
  cases takes with
  | tick | closed => exact .inl last
  | @event e es listening unread kept =>
    rw [unread] at last
    cases es with
    | nil =>
      obtain rfl : e = .becameMaster := Option.some.inj last
      exact .inr rfl
    | cons e' es => exact .inl last
  | lagged listening behind =>
    refine .inl ?_
    show (w.unread.drop _).getLast? = _
    rw [List.getLast?_drop, if_neg (by omega)]
    exact last

/-- So when it is the last event that was sent, it was answered or is still to be received. -/
theorem Runs.heeded (room : 0 < capacity) (runs : w.Runs capacity hs w')
    (last : (w.unread ++ sent hs).getLast? = some .becameMaster) :
    w'.unread.getLast? = some .becameMaster ∨ Heeded hs := by
  induction runs with
  | rest => exact .inl (List.append_nil w.unread ▸ last)
  | @step hs h w' w'' before step ih =>
    rw [sent_concat, ← List.append_assoc] at last
    cases step with
    | aside aside =>
      rw [aside.unread]
      -- an event that is sent now is the last; otherwise the last remains what it was
      cases event : h.event? with
      | some e =>
        rw [event, Option.toList_some, List.getLast?_concat] at last
        rw [Option.toList_some, List.getLast?_concat]
        exact .inl last
      | none =>
        rw [event, Option.toList_none, List.append_nil] at last
        rw [Option.toList_none, List.append_nil]
        exact (ih last).imp_right fun heeded => heeded.concat event
    | answer takes isMaster now clock =>
      replace last := List.append_nil _ ▸ last
      rcases ih last with waiting | heeded
      · rcases takes.news room waiting with waiting | rfl
        · exact .inl waiting
        · exact .inr ⟨hs, _, [], rfl, rfl, rfl⟩
      · exact .inr (heeded.concat rfl)

/-! ## Answers alone -/

/-- What there is to receive, when nothing more is sent. -/
def backlog (capacity : Nat) (w : Watch) : List Wakeup :=
  if w.sweeper.listening then
    received capacity w.unread ++ (if w.closed then [.closed] else [])
  else []

/-- Who is not behind receives every event; -/
theorem received_of_le {es : List ClusterEvent} (kept : es.length ≤ capacity) :
    received capacity es = es.map .event := by
  rw [received, Nat.sub_eq_zero_of_le kept]
  rfl

/-- who is, a lag and then those that are kept. -/
theorem received_of_lt {es : List ClusterEvent} (behind : capacity < es.length) :
    received capacity es
      = .lagged (es.length - capacity) :: received capacity (es.drop (es.length - capacity)) := by
  have kept : (es.drop (es.length - capacity)).length ≤ capacity := length_newest_le capacity es
  rw [received_of_le kept, received, if_neg (by omega)]
  rfl

/-- The loop takes up a tick, or what it is to receive next. -/
theorem Takes.backlog (takes : w.Takes capacity x w') :
    w.backlog capacity = [x].filter (· ≠ .tick) ++ w'.backlog capacity := by
  cases takes with
  | tick due => rfl
  | @event e es listening unread kept =>
    have now := received_of_le kept
    have later : received capacity es = es.map .event := by
      rw [unread, List.length_cons] at kept
      exact received_of_le (by omega)
    rw [unread] at now
    simp only [Watch.backlog, listening, unread, now, later]
    rfl
  | lagged listening behind =>
    simp only [Watch.backlog, listening, received_of_lt behind]
    rfl
  | closed listening unread shut =>
    have none : received capacity [] = [] := received_of_le (Nat.zero_le capacity)
    simp only [Watch.backlog, listening, shut, unread, none]
    rfl

/-- What goes for the loop while nothing else happens: each answer takes one wakeup off what there
    was to do, so it stops after as many. -/
structure Works (capacity : Nat) (w : Watch) (hs : List Happening) (w' : Watch) : Prop where
  timer : w'.timer = w.timer
  closed : w'.closed = w.closed
  length : hs.length = (wakeups hs).length
  backlog : w.backlog capacity = (wakeups hs).filter (· ≠ .tick) ++ w'.backlog capacity

/-- Answers alone: each takes one wakeup off what was there. -/
theorem Runs.works (runs : w.Runs capacity hs w') (alone : ∀ h ∈ hs, h.IsAnswer) :
    w.Works capacity hs w' := by
  induction runs with
  | rest => exact ⟨rfl, rfl, rfl, rfl⟩
  | step before step ih =>
    obtain ⟨earlier, answer⟩ := List.forall_mem_append.1 alone
    obtain ⟨timer, closed, length, backlog⟩ := ih earlier
    obtain ⟨r, rfl⟩ := List.forall_mem_singleton.1 answer
    cases step with
    | aside aside => cases aside
    | answer takes isMaster now clock =>
      obtain ⟨-, timer', closed'⟩ := takes.keeps
      refine ⟨timer'.trans timer, closed'.trans closed, ?_, ?_⟩
      · rw [wakeups_answers, List.length_append, List.length_append, length]
        rfl
      · rw [wakeups_answers, List.filter_append, backlog, takes.backlog, List.append_assoc]
        rfl

/-- What is asked of the cluster. -/
def orders (timeout : UInt64) (hs : List Happening) : List Order :=
  (answered hs).flatMap fun r => (r.outcome timeout).2

/-- Each answer adds its own orders. -/
theorem orders_answers (timeout : UInt64) (r : Rousing) :
    orders timeout (hs ++ [.answers r]) = orders timeout hs ++ (r.outcome timeout).2 := by
  rw [orders, answered_answers, List.flatMap_append, List.flatMap_singleton, orders]

/-- Answers in one role and at one clock reading are those of `answerWakeups`, wakeup by wakeup. -/
theorem Runs.served {isMaster : Bool} {now : Int64} (runs : w.Runs capacity hs w')
    (coherent : w.service.store.Coherent) (alone : ∀ h ∈ hs, h.AnswersAs isMaster now) :
    w.service.answerWakeups isMaster now w.sweeper.timeout (wakeups hs)
      = (w'.service, orders w.sweeper.timeout hs) := by
  induction runs with
  | rest => rfl
  | @step hs h w' w'' before step ih =>
    obtain ⟨earlier, answer⟩ := List.forall_mem_append.1 alone
    have timeout := (before.sound coherent).timeout
    obtain ⟨r, rfl, rfl, rfl⟩ := List.forall_mem_singleton.1 answer
    cases step with
    | aside aside => cases aside
    | answer takes isMaster now clock =>
      rw [wakeups_answers, Service.answerWakeups_concat, ih earlier, timeout, orders_answers]
      rfl

/-- To tell all ticks as one loses no kind of wakeup. -/
theorem mem_split_ticks {ws : List Wakeup} :
    x ∈ (if ws.count .tick = 0 then [] else [.tick]) ++ ws.filter (· ≠ .tick) ↔ x ∈ ws := by
  rw [List.mem_append, List.mem_filter, decide_eq_true_eq]
  by_cases tick : x = .tick
  · subst tick
    by_cases none : ws.count .tick = 0
    · simp [none, List.count_eq_zero.1 none]
    · rw [if_neg none]
      refine iff_of_true (.inl List.mem_cons_self) (List.count_pos_iff.1 ?_)
      omega
  · split <;> simp [tick]

/-- What is due is the ticks, told as one, and what there is to receive. -/
theorem due_eq (w : Watch) (capacity : Nat) :
    w.sweeper.due w.timer capacity w.unread w.closed
      = (if w.sweeper.ticksDue w.timer = 0 then [] else [.tick]) ++ w.backlog capacity := rfl

/-- A loop that waits has nothing to receive. -/
theorem backlog_of_waits (waits : w.Waits capacity) : w.backlog capacity = [] := by
  cases listening : w.sweeper.listening with
  | false =>
    rw [backlog, listening]
    rfl
  | true =>
    obtain ⟨unread, unclosed⟩ := (waits_iff.1 waits).2 listening
    rw [backlog, listening, unread, unclosed, received_of_le (Nat.zero_le _)]
    rfl

/-- When it waits, it listens if it did and the channel is open. -/
theorem Runs.listening (runs : w.Runs capacity hs w') (waits : w'.Waits capacity)
    (kept : w'.closed = w.closed) :
    w'.sweeper.listening = (w.sweeper.listening && !w.closed) := by
  cases listening : w.sweeper.listening with
  | false => exact (runs.deaf listening).1
  | true =>
    cases listening' : w'.sweeper.listening with
    | false =>
      rw [← kept, (runs.follows.ended listening listening').2]
      rfl
    | true =>
      rw [← kept, ((waits_iff.1 waits).2 listening').2]
      rfl

/-- Answers in one role and at one clock reading come to what is due, in whatever order they are
    given, and leave the sweeper at rest. -/
theorem Runs.settled {isMaster : Bool} {now : Int64} (runs : w.Runs capacity hs w')
    (period : 0 < w.sweeper.period) (coherent : w.service.store.Coherent) (clock : 0 ≤ now)
    (alone : ∀ h ∈ hs, h.AnswersAs isMaster now) (waits : w'.Waits capacity) :
    w'.sweeper = w.sweeper.rest w.timer w.closed
      ∧ (w'.service, orders w.sweeper.timeout hs)
        = w.service.answerWakeups isMaster now w.sweeper.timeout
            (w.sweeper.due w.timer capacity w.unread w.closed) := by
  obtain ⟨timer, closed, -, backlog⟩ := runs.works fun h hh =>
    (alone h hh).imp fun r both => both.1
  have punctual := runs.punctual
  -- the ticks were answered one by one, though they are due as one
  have count : ticks hs = w.sweeper.ticksDue w.timer := by
    have same (k : Nat) : k < ticks hs ↔ k < w.sweeper.ticksDue w.timer := by
      rw [punctual.lt_ticks waits, timer, Sweeper.lt_ticksDue period]
    have := same (ticks hs)
    have := same (w.sweeper.ticksDue w.timer)
    omega
  rw [backlog_of_waits waits, List.append_nil] at backlog
  constructor
  · have timeout := (runs.sound coherent).timeout
    have next := punctual.next
    have listening := runs.listening waits closed
    rw [count] at next
    cases rest : w'.sweeper with
    | mk timeout' period' next' listening' =>
      rw [rest] at timeout next listening
      have period := rest ▸ punctual.period
      subst timeout next listening period
      rfl
  · -- so both call for a sweep or neither does, and one is as good as many
    have any : (wakeups hs).any Wakeup.sweeps
        = (w.sweeper.due w.timer capacity w.unread w.closed).any Wakeup.sweeps := by
      rw [due_eq, backlog, ← count, ticks, Bool.eq_iff_iff, List.any_eq_true, List.any_eq_true]
      simp only [mem_split_ticks]
    rw [← runs.served coherent alone, Service.answerWakeups_eq coherent clock, any,
      Service.answerWakeups_eq coherent clock]

/-! ## When it sweeps -/

/-- The loop never ends and never works for ever. -/
structure GoesOn (capacity : Nat) (w : Watch) : Prop where
  /-- Unless it waits there is something that it answers, in any role and at any clock reading. -/
  answers : ¬ w.Waits capacity → ∀ isMaster now, 0 ≤ now →
    ∃ h w', w.Step capacity h w' ∧ h.AnswersAs isMaster now
  /-- What it answers before anything else happens is no more than was there. -/
  returns : ∀ hs w', w.Runs capacity hs w' → (∀ h ∈ hs, h.IsAnswer) →
    hs.length ≤ w.sweeper.ticksDue w.timer + (w.backlog capacity).length

/-- What a listener has received of the events that were sent. -/
structure Receives (capacity : Nat) (es : List ClusterEvent) (hs : List Happening) : Prop where
  /-- It has received them in the order in which they were sent. -/
  order : (heard hs).Sublist es
  /-- It has received all, unless it was told that it has missed some. -/
  all : (∀ n, .lagged n ∉ wakeups hs) → heard hs = es
  /-- It has received the newest in any case; -/
  newest : newest capacity es <:+ heard hs
  /-- and these alone, if all were sent before it began to answer. -/
  batch : ∀ before after, hs = before ++ after → answered before = [] → sent after = [] →
    heard hs = Watch.newest capacity es

/-- What a loop has done when it waits. -/
structure Attends (capacity : Nat) (w : Watch) (hs : List Happening) (w' : Watch) : Prop where
  /-- It has answered every tick whose time has come, and no other; whether the channel was closed
      plays no part. -/
  ticks : ∀ k, k < ticks hs ↔ w.sweeper.next + k * w.sweeper.period ≤ w'.timer
  /-- It has received what was sent; -/
  listens : w.sweeper.listening = true → Receives capacity (w.unread ++ sent hs) hs
  /-- or nothing at all, if it does not listen. -/
  deaf : w.sweeper.listening = false → ∀ x ∈ wakeups hs, x = .tick
  /-- What was there before it began to receive it has received as `received` tells. -/
  backlog : (∀ h ∈ hs, h.IsAnswer) → (wakeups hs).filter (· ≠ .tick) = w.backlog capacity
  /-- It has swept just when a tick has come due or it has received that the node became master. -/
  sweeps : (∃ r ∈ answered hs, r.wakeup.sweeps = true)
    ↔ w.sweeper.next ≤ w'.timer ∨ .becameMaster ∈ heard hs
  /-- Each sweep has cleared the table of the master; nothing was done about anything else. -/
  lawful : ∀ r ∈ answered hs, r.Lawful w.sweeper.timeout
  /-- If this was the last event sent it has swept after that, so that on the master no expired
      record was left. -/
  heeds : w.sweeper.listening = true → (w.unread ++ sent hs).getLast? = some .becameMaster →
    ∃ before r after, hs = before ++ .answers r :: after ∧ sent after = []
      ∧ r.wakeup.sweeps = true
      ∧ (r.isMaster = true →
        (r.outcome w.sweeper.timeout).1.store.expired r.now w.sweeper.timeout = [])
  /-- In one role and at one clock reading it has done as if all that was due were answered at
      once. -/
  settles : ∀ isMaster now, 0 ≤ now → (∀ h ∈ hs, h.AnswersAs isMaster now) →
    w'.sweeper = w.sweeper.rest w.timer w.closed
      ∧ (w'.service, orders w.sweeper.timeout hs)
        = w.service.answerWakeups isMaster now w.sweeper.timeout
            (w.sweeper.due w.timer capacity w.unread w.closed)

/-- A loop with a period goes on: it answers what there is, and each answer uses something up. -/
theorem goesOn (w : Watch) (capacity : Nat) (period : 0 < w.sweeper.period) :
    w.GoesOn capacity := by
  constructor
  · intro busy isMaster now clock
    obtain ⟨x, busy⟩ := Classical.not_forall.1 busy
    obtain ⟨w', takes⟩ := Classical.not_forall_not.1 busy
    exact ⟨_, _, .answer takes isMaster now clock, _, rfl, rfl, rfl⟩
  · intro hs w' runs alone
    -- each answer is to a tick that was due or to the next of the backlog
    obtain ⟨timer, -, length, backlog⟩ := runs.works alone
    have due : ticks hs ≤ w.sweeper.ticksDue w.timer := by
      rcases Nat.lt_or_ge (w.sweeper.ticksDue w.timer) (ticks hs) with more | most
      · have last := runs.punctual.due (w.sweeper.ticksDue w.timer) more
        rw [timer, ← Sweeper.lt_ticksDue period] at last
        omega
      · exact most
    have split : (wakeups hs).length
        = ticks hs + ((wakeups hs).filter (· ≠ .tick)).length := by
      rw [ticks, List.count_eq_countP, ← List.countP_eq_length_filter,
        List.length_eq_countP_add_countP (· == Wakeup.tick)]
      simp
    have rest : ((wakeups hs).filter (· ≠ .tick)).length ≤ (w.backlog capacity).length := by
      rw [backlog, List.length_append]
      omega
    omega

/-- Who listens, and waits, has received what there was. -/
theorem Runs.unread (runs : w.Runs capacity hs w') (waits : w'.Waits capacity)
    (listening : w.sweeper.listening = true) : w'.unread = [] := by
  cases listening' : w'.sweeper.listening with
  | true => exact ((waits_iff.1 waits).2 listening').1
  | false => exact (runs.follows.ended listening listening').1

/-- Who listens, and waits, has received what was sent. -/
theorem Runs.receives (runs : w.Runs capacity hs w') (waits : w'.Waits capacity)
    (listening : w.sweeper.listening = true) : Receives capacity (w.unread ++ sent hs) hs := by
  have none := runs.unread waits listening
  obtain ⟨order, kept, all, -⟩ := runs.follows
  rw [none, List.append_nil] at order kept all
  refine ⟨order, all, kept, ?_⟩
  rintro before after rfl idle silent
  have batch := runs.batch idle silent
  rwa [none, newest_of_le (Nat.zero_le capacity), List.append_nil] at batch

/-- An event is heard when it is taken up. -/
theorem mem_heard_iff {e : ClusterEvent} : e ∈ heard hs ↔ .event e ∈ wakeups hs := by
  simp only [heard, List.mem_filterMap, Wakeup.event?_eq_some_iff]
  constructor
  · rintro ⟨x, hx, rfl⟩
    exact hx
  · intro hx
    exact ⟨_, hx, rfl⟩

/-- A sweep was made for a tick, or for the news of becoming master. -/
theorem sweeps_iff : (∃ r ∈ answered hs, r.wakeup.sweeps = true)
    ↔ 0 < ticks hs ∨ .becameMaster ∈ heard hs := by
  rw [ticks, List.count_pos_iff, mem_heard_iff]
  constructor
  · rintro ⟨r, hr, sweeps⟩
    have hx : r.wakeup ∈ wakeups hs := List.mem_map_of_mem hr
    rcases Wakeup.sweeps_iff.1 sweeps with tick | news
    · exact .inl (tick ▸ hx)
    · exact .inr (news ▸ hx)
  · rintro (hx | hx)
    · obtain ⟨r, hr, tick⟩ := List.mem_map.1 hx
      exact ⟨r, hr, Wakeup.sweeps_iff.2 (.inl tick)⟩
    · obtain ⟨r, hr, news⟩ := List.mem_map.1 hx
      exact ⟨r, hr, Wakeup.sweeps_iff.2 (.inr news)⟩

/-- A sweeper acts on what it must and on nothing else.  However time passes, events are sent, their
    channel is closed and the service changes, also while it is at work: its loop goes on, and when
    it waits again it has swept just when a tick had come due or it had received that the node
    became master. -/
theorem sweeps_when_due (room : 0 < capacity) (period : 0 < w.sweeper.period)
    (coherent : w.service.store.Coherent) (runs : w.Runs capacity hs w') :
    w'.GoesOn capacity ∧ (w'.Waits capacity → w.Attends capacity hs w') := by
  have punctual := runs.punctual
  have sound := runs.sound coherent
  refine ⟨w'.goesOn capacity (punctual.period ▸ period), fun waits => ?_⟩
  have due (k : Nat) := punctual.lt_ticks waits (k := k)
  refine ⟨due, runs.receives waits, fun deaf => (runs.deaf deaf).2, ?_, ?_, sound.lawful, ?_, ?_⟩
  · intro alone
    have backlog := (runs.works alone).backlog
    rw [backlog_of_waits waits, List.append_nil] at backlog
    exact backlog.symm
  · rw [sweeps_iff, due 0, Nat.zero_mul, Nat.add_zero]
  · intro listening last
    rcases runs.heeded room last with waiting | ⟨before, r, after, rfl, none, news⟩
    · rw [runs.unread waits listening] at waiting
      cases waiting
    · refine ⟨before, r, after, rfl, none, Wakeup.sweeps_iff.2 (.inr news), ?_⟩
      have answered : r ∈ answered (before ++ .answers r :: after) := by
        simp [answered, Happening.rousing?]
      exact (sound.lawful r answered).clears (.inr news)
  · intro isMaster now clock alone
    exact runs.settled period coherent clock alone waits

/-- A channel keeps two events and three are sent, the last when the node has become master.  The
    listener sweeps at once, and takes a record out; then the channel is closed, and it goes on
    ticking. -/
theorem sweeps_when_due_after_lag :
    let record : Instance :=
      { id := "a", identity := ⟨"s", "h", 1⟩, registered := .ofSecs 1, heartbeat := .ofSecs 1 }
    let w : Watch := { sweeper := .spawn 50 10 0 true, timer := 0 }
    0 < 2 ∧ 0 < w.sweeper.period ∧ w.service.store.Coherent
      ∧ ∃ hs w', w.Runs 2 hs w' ∧ w'.Waits 2 ∧ w.Attends 2 hs w'
        ∧ wakeups hs
          = [.tick, .lagged 1, .event (.masterChanged "n"), .event .becameMaster, .closed, .tick,
            .tick]
        ∧ orders 50 hs = [.replicate ⟨.unregister, record⟩] := by
  intro record w
  let held : Service := { store := Store.run [(1, .merge record)] {} }
  have coherent : held.store.Coherent := Store.coherent_empty.run [(1, .merge record)]
  have start : w.Runs 2 [] w := .rest
  have sent := (((start.step (.answer (.tick (by decide)) false 100 (by decide))).step
    (.aside (.drift held coherent))).step (.aside (.send (.masterChanged "m") rfl))).step
    (.aside (.send (.masterChanged "n") rfl)) |>.step (.aside (.send .becameMaster rfl))
  have read := ((sent.step (.answer (.lagged rfl (by decide)) false 100 (by decide))).step
    (.answer (.event rfl rfl (by decide)) false 100 (by decide))).step
    (.answer (.event rfl rfl (by decide)) true 100 (by decide))
  have shut := (read.step (.aside .close)).step
    (.answer (.closed rfl rfl rfl) true 100 (by decide))
  have runs := ((shut.step (.aside (.pass 25))).step
    (.answer (.tick (by decide)) true 101 (by decide))).step
    (.answer (.tick (by decide)) true 101 (by decide))
  have attends := (sweeps_when_due (by decide) (by decide) Store.coherent_empty runs).2
  refine ⟨by decide, by decide, Store.coherent_empty, _, _, runs, ?waits, attends ?waits, ?_, ?_⟩
  · exact waits_iff.2 ⟨by decide, fun listening => by cases listening⟩
  · decide
  · decide

end Watch

end ServiceRegistry
