/-
  Who succeeds a failed master.

  1. `Membership.turned`: the order of a failover is the list of candidates, turned to begin behind
     the first place of the failed one, without it.  Nothing is asked of the list: candidates may
     stand in it more than once, the failed one may be missing, and there may be none.
  2. `Failover.Asks`: how a failover goes on.  Each turn hears the reply to the last probe; between
     two turns anything may happen to the node, as long as it knows the same candidates.
  3. `Stands` is the invariant: the search stands at a candidate that all others before it were
     passed for, or it is over.  `stands_scan` is the load-bearing step: it goes through the cases
     of a scan once, for the first turn and for all later ones.
  4. So the failover ends, whatever it is answered, and `Outcome` says whom it has asked and where
     the pointer is then.
-/
import ServiceRegistry.Coordinator.Task
import ServiceRegistry.Proofs.Cluster.Ring

namespace ServiceRegistry

/-! ## The order -/

namespace Membership

variable {c : Membership} {failed : String}

/-- The order of a failover from an address in normal form. -/
structure Turned (c : Membership) (failed : String) : Prop where
  /-- From the one behind the first place of the failed one around the list, without it. -/
  behind : failed ∈ c.candidates → c.failoverOrder failed
    = (c.candidates.rotate (c.candidates.idxOf failed + 1)).filter (· ≠ failed)
  /-- From the front when it has no place. -/
  whole : failed ∉ c.candidates → c.failoverOrder failed = c.candidates
  without : failed ∉ c.failoverOrder failed
  /-- All others are as often in the order as in the list. -/
  others : ∀ a, a ≠ failed → (c.failoverOrder failed).count a = c.candidates.count a

/-- A search that starts behind an address looks up no place beyond the list. -/
def InRange (c : Membership) (failed : String) : Prop :=
  ∀ k < c.candidates.length, 0 < c.candidates.length
    ∧ c.searchStart failed + k < 2 * c.candidates.length
    ∧ (c.searchStart failed + k) % c.candidates.length < c.candidates.length

/-- The search starts behind the failed one; -/
theorem searchStart_of_mem (listed : failed ∈ c.candidates) :
    c.searchStart failed = c.candidates.idxOf failed + 1 := by
  obtain ⟨i, place⟩ := Option.isSome_iff_exists.1 (List.isSome_idxOf?.2 listed)
  rw [searchStart, List.idxOf_eq_getD_idxOf?, place]
  rfl

/-- at the front, if that is not listed; -/
theorem searchStart_of_not_mem (unlisted : failed ∉ c.candidates) : c.searchStart failed = 0 := by
  rw [searchStart, List.idxOf?_eq_none_iff.2 unlisted]

/-- and never beyond the end. -/
theorem searchStart_le (c : Membership) (failed : String) :
    c.searchStart failed ≤ c.candidates.length := by
  by_cases listed : failed ∈ c.candidates
  · have inside : c.candidates.idxOf failed < c.candidates.length :=
      List.idxOf_lt_length_iff.2 listed
    rw [searchStart_of_mem listed]
    omega
  · rw [searchStart_of_not_mem listed]
    omega

/-- So every place that it looks up is one of the list. -/
theorem inRange (c : Membership) (failed : String) : c.InRange failed := by
  intro k inside
  have start := c.searchStart_le failed
  have pos : 0 < c.candidates.length := Nat.zero_lt_of_lt inside
  exact ⟨pos, by omega, Nat.mod_lt _ pos⟩

/-- The order of a failover is the list, turned, without the failed one. -/
theorem failoverOrder_of_normal (normal : normalizeAddress failed = failed) :
    c.failoverOrder failed
      = (c.candidates.rotate (c.searchStart failed)).filter (· ≠ failed) := by
  unfold failoverOrder
  simp only [normal]
  rw [filterMap_range_eq_rotate]

/-- It has the four properties of such an order. -/
theorem turned (normal : normalizeAddress failed = failed) : c.Turned failed := by
  refine ⟨?behind, ?whole, ?without, ?others⟩
  case behind =>
    intro listed
    rw [failoverOrder_of_normal normal, searchStart_of_mem listed]
  case whole =>
    intro unlisted
    rw [failoverOrder_of_normal normal, searchStart_of_not_mem unlisted, List.rotate_zero]
    refine List.filter_eq_self.2 fun a ha => ?_
    have other : a ≠ failed := fun eq => unlisted (eq ▸ ha)
    simpa using other
  case without =>
    rw [failoverOrder_of_normal normal]
    simp
  case others =>
    intro a other
    rw [failoverOrder_of_normal normal, List.count_filter (by simpa using other)]
    exact (List.rotate_perm c.candidates _).count_eq a

end Membership

/-! ## The search -/

namespace Failover

/-- How a failover goes on from its first turn: the addresses probed so far, and what the last turn
    has left.  The `k`-th probe is answered by `answers k`. -/
inductive Asks (answers : Nat → Option Relayed) (first : Progress) : List String → Progress → Prop
  | first : Asks answers first [] first
  | next {asked : List String} {p : Progress} {e : Task} {a : String}
      (so_far : Asks answers first asked p) (waits : p.next = some e)
      (call : e.call = some (.probe a)) (m : Member) (now : Int64)
      (same : m.coordinator.membership = p.member.coordinator.membership) :
      Asks answers first (asked ++ [a]) (m.hear now e (answers asked.length))

/-- The `k`-th entry of an order ends a search: it is the node itself, or its answer is healthy. -/
def Halts (c : Membership) (answers : Nat → Option Relayed) (order : List String) (k : Nat) :
    Prop :=
  ∃ a, order[k]? = some a ∧ (c.isSelf a = true ∨ healthy (answers k) = true)

/-- None of the first `n` entries ends the search. -/
def Passes (c : Membership) (answers : Nat → Option Relayed) (order : List String) (n : Nat) :
    Prop := ∀ k < n, ¬ Halts c answers order k

/-- Where a failover stands after a turn.  The addresses that it has asked are always a beginning of
    the order, so whoever ends the search is the first one who could. -/
inductive Stands (c : Membership) (failed : Option String) (answers : Nat → Option Relayed)
    (order asked : List String) (p : Progress) : Prop
  /-- It waits for the reply of a candidate, and has passed everyone before it. -/
  | waits {a : String} {rest : List String} (whole : order = asked ++ a :: rest)
      (passed : Passes c answers order asked.length) (other : c.isSelf a = false)
      (same : p.member.coordinator.membership = c) (next : p.next = some (.scan failed a rest))
  /-- It has come to one that ends it, and has probed it, unless it is the node itself. -/
  | takes {before rest : List String} {a : String} (whole : order = before ++ a :: rest)
      (passed : Passes c answers order before.length) (halts : Halts c answers order before.length)
      (probed : asked = if c.isSelf a then before else before ++ [a])
      (points : p.member.coordinator.master = some a)
      (released : p.member.coordinator.failingOver = false) (next : p.next = none)
  /-- Nobody was left. -/
  | lost (passed : Passes c answers order order.length) (probed : asked = order)
      (points : p.member.coordinator.master = none)
      (released : p.member.coordinator.failingOver = false) (next : p.next = none)

variable {c : Membership} {failed : Option String} {order asked before rest : List String}
  {answers : Nat → Option Relayed} {first p : Progress} {a : String} {m : Member}

/-- Where an entry stands in the order. -/
theorem entry_at (whole : order = before ++ a :: rest) : order[before.length]? = some a := by
  rw [whole]
  simp

/-- An entry whose place is known ends the search by what it is and answers. -/
theorem halts_at (whole : order = before ++ a :: rest) :
    Halts c answers order before.length
      ↔ c.isSelf a = true ∨ healthy (answers before.length) = true := by
  have there := entry_at whole
  constructor
  · rintro ⟨b, here, halts⟩
    obtain rfl : a = b := Option.some.inj (there.symm.trans here)
    exact halts
  · intro halts
    exact ⟨a, there, halts⟩

/-- One more that does not end the search has been passed. -/
theorem Passes.succ {n : Nat} (passed : Passes c answers order n)
    (goes_on : ¬ Halts c answers order n) : Passes c answers order (n + 1) := by
  intro k below
  rcases Nat.lt_succ_iff_lt_or_eq.1 below with below | rfl
  · exact passed k below
  · exact goes_on

/-- Only one entry is the first that ends the search. -/
theorem eq_of_first {k n : Nat} (halts : Halts c answers order k)
    (passed : Passes c answers order k)
    (halts' : Halts c answers order n) (passed' : Passes c answers order n) : k = n := by
  rcases Nat.lt_trichotomy k n with below | same | above
  · exact absurd halts (passed' k below)
  · exact same
  · exact absurd halts' (passed n above)

/-! ## One turn -/

/-- A scan of those who are left stops at once, or waits for the first of them. -/
theorem stands_scan (normal : ∀ a ∈ order, normalizeAddress a = a)
    (same : m.coordinator.membership = c) (whole : order = asked ++ rest)
    (passed : Passes c answers order asked.length) :
    Stands c failed answers order asked (m.scan failed rest) := by
  cases rest with
  | nil =>
    obtain rfl : order = asked := by rw [whole, List.append_nil]
    exact .lost passed rfl rfl rfl rfl
  | cons a rest =>
    have scan : m.scan failed (a :: rest)
        = if c.isSelf a then m.promote failed
          else { member := m, next := some (.scan failed a rest) } := by
      rw [← same]
      rfl
    rw [scan]
    by_cases own : c.isSelf a = true
    · rw [if_pos own]
      have there : a ∈ order := by rw [whole]; simp
      -- the node points at its own address, and this is the candidate
      have here : c.self = a := by
        have eq : normalizeAddress a = c.self := by simpa [Membership.isSelf] using own
        rw [← eq, normal a there]
      have points : (m.promote failed).member.coordinator.master = some a := by
        show some m.coordinator.membership.self = some a
        rw [same, here]
      exact .takes whole passed ((halts_at whole).2 (.inl own)) (by rw [if_pos own]) points rfl rfl
    · rw [if_neg own]
      exact .waits whole passed (by simpa using own) same rfl

/-- After a reply the candidate is taken, or passed as well. -/
theorem stands_hear (normal : ∀ a ∈ order, normalizeAddress a = a)
    (same : m.coordinator.membership = c) (whole : order = asked ++ a :: rest)
    (passed : Passes c answers order asked.length) (other : c.isSelf a = false) (now : Int64) :
    Stands c failed answers order (asked ++ [a])
      (m.hear now (.scan failed a rest) (answers asked.length)) := by
  unfold Member.hear
  by_cases up : healthy (answers asked.length) = true
  · simp only [up, if_true]
    have probed : asked ++ [a] = if c.isSelf a then asked else asked ++ [a] := by
      rw [other]
      rfl
    exact .takes whole passed ((halts_at whole).2 (.inr up)) probed rfl rfl rfl
  · simp only [up, Bool.false_eq_true, if_false]
    have goes_on : ¬ Halts c answers order asked.length := by
      rw [halts_at whole]
      simp [other, up]
    have passed_too : Passes c answers order (asked ++ [a]).length := by
      rw [List.length_append]
      exact passed.succ goes_on
    exact stands_scan normal same (by simp [whole]) passed_too

/-! ## All turns -/

/-- Whatever the probes are answered, and whatever happens in between, the failover stands where it
    should. -/
theorem Asks.stands (run : Asks answers first asked p)
    (normal : ∀ a ∈ order, normalizeAddress a = a)
    (begins : Stands c failed answers order [] first) :
    Stands c failed answers order asked p := by
  induction run with
  | first => exact begins
  | next so_far waits call m now same ih =>
    cases ih with
    | waits whole passed other known next =>
      obtain rfl := Option.some.inj (next.symm.trans waits)
      cases call
      exact stands_hear normal (same.trans known) whole passed other now
    | takes whole passed halts probed points released next => cases next.symm.trans waits
    | lost passed probed points released next => cases next.symm.trans waits

/-- What a failover that is over has asked, and where it leaves the pointer. -/
structure Outcome (c : Membership) (answers : Nat → Option Relayed) (order asked : List String)
    (master : Option String) : Prop where
  /-- The first entry that is the node itself or answers is the master.  Everyone before it has been
      probed, and so has it, unless it is the node itself. -/
  takes : ∀ k a, order[k]? = some a → Halts c answers order k → Passes c answers order k →
    master = some a ∧ asked = order.take (if c.isSelf a then k else k + 1)
  /-- Without such an entry all have been probed. -/
  lost : (∀ k, ¬ Halts c answers order k) → asked = order
  unresolved : master = none ↔ ∀ k, ¬ Halts c answers order k

namespace Stands

/-- A failover that is not over waits for the next one of the order to be probed. -/
theorem waits_or_over (s : Stands c failed answers order asked p) :
    p.next = none ∨ ∃ e a, p.next = some e ∧ e.call = some (.probe a)
      ∧ order[asked.length]? = some a := by
  cases s with
  | waits whole passed other same next =>
    exact .inr ⟨_, _, next, rfl, entry_at whole⟩
  | takes whole passed halts probed points released next => exact .inl next
  | lost passed probed points released next => exact .inl next

/-- The addresses probed so far are the beginning of the order. -/
theorem asked_initial (s : Stands c failed answers order asked p) : asked <+: order := by
  cases s with
  | waits whole passed other same next => exact ⟨_, whole.symm⟩
  | takes whole passed halts probed points released next =>
    rw [probed, whole]
    split
    · exact List.prefix_append ..
    · exact ⟨_, List.append_assoc ..⟩
  | lost passed probed points released next =>
    rw [probed]

/-- Of a failover that is over the order and the answers tell everything. -/
theorem outcome (s : Stands c failed answers order asked p) (finished : p.next = none) :
    Outcome c answers order asked p.member.coordinator.master
      ∧ p.member.coordinator.failingOver = false := by
  cases s with
  | waits whole passed other same next => cases next.symm.trans finished
  | @takes before rest b whole passed halts probed points released next =>
    refine ⟨⟨?taken, ?unanswered, ?unresolved⟩, released⟩
    case taken =>
      intro k a there halts' passed'
      obtain rfl : k = before.length := eq_of_first halts' passed' halts passed
      obtain rfl : a = b := Option.some.inj (there.symm.trans (entry_at whole))
      refine ⟨points, ?_⟩
      rw [probed, whole]
      split
      -- the node itself is not probed, any other one is
      · exact List.take_left.symm
      · rw [show before ++ a :: rest = (before ++ [a]) ++ rest by simp]
        exact (List.take_left' (by simp)).symm
    case unanswered =>
      intro none_halts
      exact absurd halts (none_halts before.length)
    case unresolved =>
      rw [points]
      constructor
      · intro nowhere
        cases nowhere
      · intro none_halts
        exact absurd halts (none_halts before.length)
  | lost passed probed points released next =>
    -- every entry was passed, so none ends the search
    have none_halts : ∀ k, ¬ Halts c answers order k := by
      intro k halts
      have inside : k < order.length := by
        obtain ⟨a, there, -⟩ := halts
        exact (List.getElem?_eq_some_iff.1 there).1
      exact passed k inside halts
    refine ⟨⟨?taken, ?unanswered, ?unresolved⟩, released⟩
    case taken =>
      intro k a there halts passed'
      exact absurd halts (none_halts k)
    case unanswered =>
      intro _
      exact probed
    case unresolved =>
      rw [points]
      exact ⟨fun _ => none_halts, fun _ => rfl⟩

end Stands

/-- Every failover that has begun can be brought to its end. -/
theorem Asks.finishes (run : Asks answers first asked p)
    (stands : ∀ asked p, Asks answers first asked p → Stands c failed answers order asked p) :
    ∃ asked' p', Asks answers first asked' p' ∧ asked <+: asked' ∧ p'.next = none := by
  -- by induction on the entries that have not been probed
  induction left : order.length - asked.length generalizing asked p with
  | zero =>
    rcases (stands asked p run).waits_or_over with finished | ⟨e, a, -, -, there⟩
    · exact ⟨asked, p, run, List.prefix_refl _, finished⟩
    · have inside : asked.length < order.length := (List.getElem?_eq_some_iff.1 there).1
      omega
  | succ n ih =>
    rcases (stands asked p run).waits_or_over with finished | ⟨e, a, waits, call, there⟩
    · exact ⟨asked, p, run, List.prefix_refl _, finished⟩
    · have further := run.next waits call p.member 0 rfl
      have one_less : order.length - (asked ++ [a]).length = n := by
        rw [List.length_append, List.length_singleton]
        omega
      obtain ⟨asked', p', run', longer, finished⟩ := ih further one_less
      exact ⟨asked', p', run', (List.prefix_append ..).trans longer, finished⟩

/-- What a failover comes to, after its first turn. -/
structure Succeeds (c : Membership) (answers : Nat → Option Relayed) (order : List String)
    (first : Progress) : Prop where
  /-- As long as it is not over it waits for the next one of the order to be probed, -/
  goes_on : ∀ asked p, Asks answers first asked p → asked <+: order ∧ (p.next = none
    ∨ ∃ e a, p.next = some e ∧ e.call = some (.probe a) ∧ order[asked.length]? = some a)
  /-- so that it ends, -/
  ends : ∀ asked p, Asks answers first asked p →
    ∃ asked' p', Asks answers first asked' p' ∧ asked <+: asked' ∧ p'.next = none
  /-- and then it has done what it should, and lets others begin. -/
  finished : ∀ asked p, Asks answers first asked p → p.next = none →
    Outcome c answers order asked p.member.coordinator.master
      ∧ p.member.coordinator.failingOver = false

/-- A failover that begins in an order of normal addresses comes to what it should. -/
theorem succeeds (normal : ∀ a ∈ order, normalizeAddress a = a)
    (begins : Stands c failed answers order [] first) : Succeeds c answers order first := by
  have stands : ∀ asked p, Asks answers first asked p → Stands c failed answers order asked p :=
    fun asked p run => run.stands normal begins
  refine ⟨?goes_on, ?ends, ?finished⟩
  case goes_on =>
    intro asked p run
    exact ⟨(stands asked p run).asked_initial, (stands asked p run).waits_or_over⟩
  case ends =>
    intro asked p run
    exact run.finishes stands
  case finished =>
    intro asked p run finished
    exact (stands asked p run).outcome finished

end Failover

/-- A failover from the master that the node points at, or from none: the order of the candidates is
    the list turned behind the failed one, without it, and the first of them that is the node itself
    or answers becomes the master. -/
theorem failover_succession (m : Member) (failed : Option String)
    (answers : Nat → Option Relayed) :
    let c := m.coordinator.membership
    let address := failed.getD ""
    c.InRange address
      ∧ ((∀ a ∈ c.candidates, normalizeAddress a = a) → normalizeAddress address = address →
          c.Turned address
            ∧ (m.coordinator.master = failed → m.coordinator.failingOver = false →
                ∃ first, m.run (.awaitTurn failed) = some first
                  ∧ Failover.Succeeds c answers (c.failoverOrder address) first)) := by
  intro c address
  refine ⟨c.inRange address, fun normal plain => ⟨Membership.turned plain, fun points free => ?_⟩⟩
  have ordered : ∀ a ∈ c.failoverOrder address, normalizeAddress a = a :=
    fun a ha => normal a (Membership.mem_candidates_of_mem_failoverOrder ha)
  have turn : m.run (.awaitTurn failed) = some (m.enter failed) := by
    simp [Member.run, free]
  have begins : Failover.Stands c failed answers (c.failoverOrder address) [] (m.enter failed) := by
    unfold Member.enter
    rw [if_neg (by simp [points])]
    exact Failover.stands_scan ordered rfl rfl fun k below => absurd below (Nat.not_lt_zero k)
  exact ⟨m.enter failed, turn, Failover.succeeds ordered begins⟩

/-- A candidate that is in the list twice is passed the first time and taken the second time, by a
    node that is no candidate itself. -/
theorem failover_succession_of_twin :
    let c : Membership := ⟨"z", ["a", "b", "a", "c"], "a"⟩
    let m : Member := { coordinator := { membership := c, master := some "b", started := true } }
    let answers : Nat → Option Relayed := fun k => if k = 2 then some ⟨200, []⟩ else none
    (∀ a ∈ c.candidates, normalizeAddress a = a) ∧ normalizeAddress "b" = "b"
      ∧ m.coordinator.master = some "b" ∧ m.coordinator.failingOver = false
      ∧ c.Turned "b" ∧ c.failoverOrder "b" = ["a", "c", "a"]
      ∧ ∃ first p, m.run (.awaitTurn (some "b")) = some first
        ∧ Failover.Asks answers first ["a", "c", "a"] p ∧ p.next = none
        ∧ p.member.coordinator.master = some "a" := by
  intro c m answers
  have normal : ∀ a ∈ c.candidates, normalizeAddress a = a := by decide
  have plain : normalizeAddress "b" = "b" := by decide
  have order : c.failoverOrder "b" = ["a", "c", "a"] := by decide
  obtain ⟨-, rest⟩ := failover_succession m (some "b") answers
  obtain ⟨turned, goes⟩ := rest normal plain
  obtain ⟨first, turn, succeeds⟩ := goes rfl rfl
  obtain ⟨asked, p, run, -, finished⟩ := succeeds.ends [] first .first
  obtain ⟨outcome, -⟩ := succeeds.finished asked p run finished
  have halts : Failover.Halts c answers (c.failoverOrder "b") 2 :=
    ⟨"a", by decide, .inr (by decide)⟩
  have passed : Failover.Passes c answers (c.failoverOrder "b") 2 := by
    rw [order]
    intro k below halts
    have first_two : k = 0 ∨ k = 1 := by omega
    rcases first_two with rfl | rfl
    · obtain ⟨a, there, stops⟩ := halts
      obtain rfl : "a" = a := Option.some.inj there
      exact absurd stops (by decide)
    · obtain ⟨a, there, stops⟩ := halts
      obtain rfl : "c" = a := Option.some.inj there
      exact absurd stops (by decide)
  obtain ⟨points, probed⟩ := outcome.takes 2 "a" (by decide) halts passed
  refine ⟨normal, plain, rfl, rfl, turned, order, first, p, turn, ?_, finished, points⟩
  have all : asked = ["a", "c", "a"] := by rw [probed]; decide
  rwa [all] at run

end ServiceRegistry
