/-
  How a query finds the master.

  A query reads the role, puts itself to the master when the node is not master, and after a reply
  that fails has the master checked, rests, and begins again, a bounded number of times.  The role
  may change at any time, also because of the checks that the query itself has ordered.

  1. `Seeking.History`: a query from its first turn on, with all that it has asked and been told, in
     order.  Every turn finds any service, any role and any reply.
  2. `Seeking.Stands` is the invariant: so far there were a number of attempts that failed, all of
     one shape (`attempts`), and what has come after them is one of five things.  `Stands.seek` is
     the load-bearing step: the turns that read the role, the first and the later ones, differ only
     in the attempts behind them.
  3. `Seeking.Tail` is what these five have in common; the bounds and the order of the checks are
     read off it.  `Seeking.Ended` says what the result is, by what was read and replied, and what
     becomes of the table.  `query_history` puts them together.
-/
import ServiceRegistry.Proofs.Service.Turns

namespace ServiceRegistry

namespace Seeking

/-! ## The history of a query -/

/-- What a query asks of its cluster, and what it is told. -/
inductive Event
  /-- The role is read. -/
  | read (isMaster : Bool)
  /-- The query is put to the master. -/
  | asked (name : String)
  /-- The master's reply, or why there is none. -/
  | answered (reply : Except RegistryError Relayed)
  | ordered (o : Order)

/-- The role, where it is read. -/
def Event.role? : Event → Option Bool
  | .read isMaster => some isMaster
  | _ => none

/-- The name, where the query is put to the master. -/
def Event.name? : Event → Option String
  | .asked name => some name
  | _ => none

/-- The failure, where an attempt fails. -/
def Event.failure? : Event → Option RegistryError
  | .answered (.error e) => some e
  | _ => none

/-- What a turn gives out: its orders, and the query when it is put to the master. -/
def given (t : Turn) : List Event :=
  t.orders.map .ordered ++ match t.stage with
    | .asking name _ => [.asked name]
    | _ => []

/-- How a query for a service goes on: the events so far, the turns before the last one, each with
    the service that it has found, and the last turn. -/
inductive History (name : String) :
    List Event → List (Service × Turn) → Service → Turn → Prop
  | begins (s : Service) (isMaster : Bool) (now : Int64) :
      History name (.read isMaster :: given (s.begin isMaster now (.discover name))) [] s
        (s.begin isMaster now (.discover name))
  | hears {events : List Event} {before : List (Service × Turn)} {s : Service} {t : Turn}
      {asked : String} {left : Nat} (so_far : History name events before s t)
      (asks : t.stage = .asking asked left) (found : Service)
      (reply : Except RegistryError Relayed) :
      History name (events ++ .answered reply :: given (found.hear t.stage reply))
        (before ++ [(s, t)]) found (found.hear t.stage reply)
  | wakes {events : List Event} {before : List (Service × Turn)} {s : Service} {t : Turn}
      {asked : String} {left : Nat} (so_far : History name events before s t)
      (rests : t.stage = .resting asked left) (found : Service) (isMaster : Bool) :
      History name (events ++ .read isMaster :: given (found.wake isMaster t.stage))
        (before ++ [(s, t)]) found (found.wake isMaster t.stage)

/-! ## Attempts -/

/-- The events of attempts that have failed with these errors. -/
def attempts (name : String) (errors : List RegistryError) : List Event :=
  errors.flatMap fun e =>
    [.read false, .asked name, .answered (.error e), .ordered .checkMaster]

variable {name : String} {errors : List RegistryError} {e : RegistryError} {tail : List Event}

/-- One more attempt that has failed, behind the others, -/
theorem attempts_concat (name : String) (errors : List RegistryError) (e : RegistryError) :
    attempts name (errors ++ [e]) = attempts name errors
      ++ [.read false, .asked name, .answered (.error e), .ordered .checkMaster] := by
  simp [attempts]

/-- or ahead of them. -/
theorem attempts_cons (name : String) (e : RegistryError) (errors : List RegistryError) :
    attempts name (e :: errors)
      = [.read false, .asked name, .answered (.error e), .ordered .checkMaster]
        ++ attempts name errors := by
  simp [attempts]

/-- Each has read the role once, and not as master; -/
theorem roles_attempts (name : String) (errors : List RegistryError) :
    (attempts name errors).filterMap Event.role? = List.replicate errors.length false := by
  induction errors with
  | nil => rfl
  | cons e errors ih =>
    rw [attempts_cons, List.filterMap_append, ih]
    rfl

/-- each has put the query to the master once; -/
theorem names_attempts (name : String) (errors : List RegistryError) :
    (attempts name errors).filterMap Event.name? = List.replicate errors.length name := by
  induction errors with
  | nil => rfl
  | cons e errors ih =>
    rw [attempts_cons, List.filterMap_append, ih]
    rfl

/-- and each has brought its error. -/
theorem failures_attempts (name : String) (errors : List RegistryError) :
    (attempts name errors).filterMap Event.failure? = errors := by
  induction errors with
  | nil => rfl
  | cons e errors ih =>
    rw [attempts_cons, List.filterMap_append, ih]
    rfl

/-- Neither a master nor a reply that succeeds is in them. -/
theorem mem_attempts {v : Event} (h : v ∈ attempts name errors) :
    v ≠ .read true ∧ ∀ r, v ≠ .answered (.ok r) := by
  obtain ⟨e, -, here⟩ := List.mem_flatMap.1 h
  simp only [List.mem_cons, List.not_mem_nil, or_false] at here
  rcases here with rfl | rfl | rfl | rfl <;> simp

/-- Behind each attempt that fails the master is checked once, before the role is read again if it
    is, and nothing else is ordered. -/
structure Checked (events : List Event) : Prop where
  failed : ∀ k e, events[k]? = some (.answered (.error e)) →
    events[k + 1]? = some (.ordered .checkMaster)
      ∧ ∀ v, events[k + 2]? = some v → ∃ isMaster, v = .read isMaster
  only : ∀ k o, events[k]? = some (.ordered o) →
    o = .checkMaster ∧ ∃ j e, k = j + 1 ∧ events[j]? = some (.answered (.error e))

/-- The events begin with a reading of the role, if there are any. -/
def Opens (events : List Event) : Prop :=
  ∀ v, events[0]? = some v → ∃ isMaster, v = .read isMaster

/-- A reading of the role opens what follows. -/
theorem opens_read (isMaster : Bool) (rest : List Event) : Opens (.read isMaster :: rest) := by
  intro v here
  exact ⟨isMaster, (Option.some.inj here).symm⟩

/-- So does nothing at all. -/
theorem opens_nil : Opens [] := by
  intro v here
  cases here

/-- An attempt that has failed may be put ahead of anything that opens with a reading of the role:
    that is what follows its check. -/
theorem Checked.cons (ends : Checked tail) (opens : Opens tail) :
    Checked ([.read false, .asked name, .answered (.error e), .ordered .checkMaster] ++ tail) where
  failed k e' here := by
    -- of the four events of the attempt only the third is a failure, and its check is the fourth
    rcases k with _ | _ | _ | _ | k
    · cases here
    · cases here
    · exact ⟨rfl, fun v there => opens v there⟩
    · cases here
    · exact ends.failed k e' here
  only k o here := by
    -- and only the fourth is an order
    rcases k with _ | _ | _ | _ | k
    · cases here
    · cases here
    · cases here
    · cases here
      exact ⟨rfl, 2, e, rfl, rfl⟩
    · obtain ⟨check, j, e', rfl, there⟩ := ends.only k o here
      exact ⟨check, j + 4, e', rfl, there⟩

/-- Attempts that have failed open with a reading of the role, like what follows them. -/
theorem opens_attempts (errors : List RegistryError) (opens : Opens tail) :
    Opens (attempts name errors ++ tail) := by
  cases errors with
  | nil => exact opens
  | cons e errors => exact opens_read false _

/-- Any number of attempts that have failed may be put ahead of it. -/
theorem checked_attempts (errors : List RegistryError) (ends : Checked tail) (opens : Opens tail) :
    Checked (attempts name errors ++ tail) := by
  induction errors with
  | nil => exact ends
  | cons e errors ih =>
    rw [attempts_cons, List.append_assoc]
    exact ih.cons (opens_attempts errors opens)

/-! ## Where a query stands -/

/-- Where a query stands after a turn.  Behind it there are attempts that failed, all of the same
    shape; what has come after them is one of five things, and the number of attempts left goes with
    the number that has failed. -/
inductive Stands (name : String) (events : List Event) (s : Service) (t : Turn) : Prop
  /-- It waits for the master's reply. -/
  | asks {errors : List RegistryError} {left : Nat}
      (log : events = attempts name errors ++ [.read false, .asked name])
      (count : errors.length + (left + 1) = discoveryAttempts) (stage : t.stage = .asking name left)
      (kept : t.service.store = s.store)
  /-- It rests after a failure. -/
  | rests {errors : List RegistryError} {left : Nat} (log : events = attempts name errors)
      (count : errors.length + left = discoveryAttempts) (stage : t.stage = .resting name left)
      (kept : t.service.store = s.store)
  /-- It has found the node to be master. -/
  | here {errors : List RegistryError} (log : events = attempts name errors ++ [.read true])
      (count : errors.length ≤ discoveryAttempts) (local_ : t = s.discoverHere name)
  /-- It has been answered by the master. -/
  | relayed {errors : List RegistryError} {r : Relayed}
      (log : events = attempts name errors ++ [.read false, .asked name, .answered (.ok r)])
      (count : errors.length < discoveryAttempts) (stage : t.stage = .done (.ok (.relayed r)))
      (kept : t.service.store = s.store)
  /-- It has been given up. -/
  | nobody {errors : List RegistryError} (log : events = attempts name errors ++ [.read false])
      (count : errors.length = discoveryAttempts)
      (stage : t.stage = .done (.error (.unavailable "no reachable master")))
      (kept : t.service.store = s.store)

/-- A query that the node answers itself gives the outside nothing to do. -/
@[simp] theorem given_discoverHere (s : Service) (name : String) :
    given (s.discoverHere name) = [] := by
  unfold Service.discoverHere
  split <;> rfl

/-- A turn that reads the role, after some attempts that have failed. -/
theorem Stands.seek {left : Nat} (count : errors.length + left = discoveryAttempts) (s : Service)
    (isMaster : Bool) :
    Stands name (attempts name errors ++ .read isMaster :: given (s.seek isMaster name left)) s
      (s.seek isMaster name left) := by
  cases isMaster with
  | true =>
    have local_ : s.seek true name left = s.discoverHere name := rfl
    rw [local_, given_discoverHere]
    exact .here rfl (by omega) rfl
  | false =>
    cases left with
    | zero => exact .nobody rfl count rfl rfl
    | succ left => exact .asks rfl count rfl rfl

section Turns

variable {events : List Event} {before : List (Service × Turn)} {s : Service} {t : Turn}

/-- A turn that waits for a reply is behind some attempts that have failed, and one that goes on. -/
theorem Stands.of_asking {asked : String} {left : Nat} (stands : Stands name events s t)
    (asks : t.stage = .asking asked left) :
    asked = name ∧ ∃ errors, events = attempts name errors ++ [.read false, .asked name]
      ∧ errors.length + (left + 1) = discoveryAttempts := by
  cases stands with
  | asks log count stage kept =>
    cases stage.symm.trans asks
    exact ⟨rfl, _, log, count⟩
  | rests log count stage kept => cases stage.symm.trans asks
  | here log count local_ =>
    obtain ⟨result, done, -⟩ := s.discoverHere_local name
    rw [local_, done] at asks
    cases asks
  | relayed log count stage kept => cases stage.symm.trans asks
  | nobody log count stage kept => cases stage.symm.trans asks

/-- A turn that rests is behind some attempts that have failed. -/
theorem Stands.of_resting {asked : String} {left : Nat} (stands : Stands name events s t)
    (rests : t.stage = .resting asked left) :
    asked = name ∧ ∃ errors, events = attempts name errors
      ∧ errors.length + left = discoveryAttempts := by
  cases stands with
  | asks log count stage kept => cases stage.symm.trans rests
  | rests log count stage kept =>
    cases stage.symm.trans rests
    exact ⟨rfl, _, log, count⟩
  | here log count local_ =>
    obtain ⟨result, done, -⟩ := s.discoverHere_local name
    rw [local_, done] at rests
    cases rests
  | relayed log count stage kept => cases stage.symm.trans rests
  | nobody log count stage kept => cases stage.symm.trans rests

/-- A reply ends the query, or the attempt has failed like those before it. -/
theorem Stands.hear {left : Nat} (count : errors.length + (left + 1) = discoveryAttempts)
    (found : Service) (reply : Except RegistryError Relayed) :
    Stands name (attempts name errors ++ [.read false, .asked name]
        ++ .answered reply :: given (found.hear (.asking name left) reply)) found
      (found.hear (.asking name left) reply) := by
  cases reply with
  | ok r =>
    have log : attempts name errors ++ [.read false, .asked name]
          ++ .answered (.ok r) :: given (found.hear (.asking name left) (.ok r))
        = attempts name errors ++ [.read false, .asked name, .answered (.ok r)] := by
      simp [given, Service.hear]
    exact .relayed log (by omega) rfl rfl
  | error e =>
    have log : attempts name errors ++ [.read false, .asked name]
          ++ .answered (.error e) :: given (found.hear (.asking name left) (.error e))
        = attempts name (errors ++ [e]) := by
      rw [attempts_concat]
      simp [given, Service.hear]
    have count : (errors ++ [e]).length + left = discoveryAttempts := by
      rw [List.length_append, List.length_singleton]
      omega
    exact .rests log count rfl rfl

/-- After every turn a query stands in one of these places. -/
theorem History.stands (history : History name events before s t) : Stands name events s t := by
  induction history with
  | begins s isMaster now =>
    have nothing_failed :
        ([] : List RegistryError).length + discoveryAttempts = discoveryAttempts :=
      Nat.zero_add _
    exact Stands.seek nothing_failed s isMaster
  | hears so_far asks found reply ih =>
    obtain ⟨rfl, errors, log, count⟩ := ih.of_asking asks
    rw [asks, log]
    exact Stands.hear count found reply
  | wakes so_far rests found isMaster ih =>
    obtain ⟨rfl, errors, log, count⟩ := ih.of_resting rests
    rw [rests, log]
    exact Stands.seek count found isMaster

/-! ## Turns -/

/-- What the node itself finds for a query. -/
def own (name : String) (s : Service) : Except RegistryError (Routed Outcome) :=
  (s.store.discover name).1.map fun xs => .here (.found xs)

/-- The turn in which the node answers itself ends with what it finds. -/
theorem discoverHere_own (s : Service) (name : String) :
    (s.discoverHere name).stage = .done (own name s)
      ∧ (s.discoverHere name).service.store = (s.store.discover name).2 := by
  unfold Service.discoverHere own
  split
  · rename_i e store failed
    rw [failed]
    exact ⟨rfl, rfl⟩
  · rename_i xs store found
    rw [found]
    exact ⟨rfl, rfl⟩

/-- A turn that leaves the query waiting leaves the table as it was. -/
theorem Stands.kept_of_open (stands : Stands name events s t)
    (waits : ∀ result, t.stage ≠ .done result) : t.service.store = s.store := by
  cases stands with
  | asks log count stage kept => exact kept
  | rests log count stage kept => exact kept
  | here log count local_ =>
    rw [local_] at waits
    exact absurd (discoverHere_own s name).1 (waits _)
  | relayed log count stage kept => exact kept
  | nobody log count stage kept => exact kept

/-- Every turn but the last has left the table as it was, for each left the query waiting. -/
theorem History.earlier (history : History name events before s t) :
    ∀ p ∈ before, p.2.service.store = p.1.store := by
  have extend : ∀ {before : List (Service × Turn)} {s : Service} {t : Turn},
      (∀ p ∈ before, p.2.service.store = p.1.store) → t.service.store = s.store →
      ∀ p ∈ before ++ [(s, t)], p.2.service.store = p.1.store := by
    intro before s t all kept p hp
    rcases List.mem_append.1 hp with hp | hp
    · exact all p hp
    · rw [List.mem_singleton.1 hp]
      exact kept
  induction history with
  | begins s isMaster now => exact fun p hp => absurd hp List.not_mem_nil
  | hears so_far asks found reply ih =>
    refine extend ih (so_far.stands.kept_of_open fun result done => ?_)
    cases asks.symm.trans done
  | wakes so_far rests found isMaster ih =>
    refine extend ih (so_far.stands.kept_of_open fun result done => ?_)
    cases rests.symm.trans done

/-- Every turn uses up one of those that are left. -/
theorem History.bounded (history : History name events before s t) :
    before.length + 1 + t.stage.turnsLeft ≤ 2 * discoveryAttempts + 1 := by
  induction history with
  | begins s isMaster now =>
    have left := s.turnsLeft_wake_resting isMaster name discoveryAttempts
    change 0 + 1 + (s.wake isMaster (.resting name discoveryAttempts)).stage.turnsLeft ≤ _
    omega
  | @hears events before s t asked left so_far asks found reply ih =>
    have fewer := found.turnsLeft_hear_asking asked left reply
    rw [asks] at ih ⊢
    rw [List.length_append, List.length_singleton]
    simp only [Stage.turnsLeft] at ih
    omega
  | @wakes events before s t asked left so_far rests found isMaster ih =>
    have fewer := found.turnsLeft_wake_resting isMaster asked left
    rw [rests] at ih ⊢
    rw [List.length_append, List.length_singleton]
    simp only [Stage.turnsLeft] at ih
    omega

/-- A query that is not over can go on, whatever it is told, -/
theorem Stands.goes_on (stands : Stands name events s t) : (∃ result, t.stage = .done result)
    ∨ ∃ left, t.stage = .asking name left ∨ t.stage = .resting name left := by
  cases stands with
  | asks log count stage kept => exact .inr ⟨_, .inl stage⟩
  | rests log count stage kept => exact .inr ⟨_, .inr stage⟩
  | here log count local_ => exact .inl ⟨_, local_ ▸ (discoverHere_own s name).1⟩
  | relayed log count stage kept => exact .inl ⟨_, stage⟩
  | nobody log count stage kept => exact .inl ⟨_, stage⟩

/-- and comes to its end. -/
theorem History.finishes (history : History name events before s t) :
    ∃ more before' s' t' result, History name (events ++ more) before' s' t'
      ∧ t'.stage = .done result := by
  have bounded := history.bounded
  -- by induction on the turns that are left; a query that is not over takes one of them
  induction left : 2 * discoveryAttempts + 1 - before.length generalizing events before s t with
  | zero => omega
  | succ n ih =>
    rcases history.stands.goes_on with ⟨result, finished⟩ | ⟨k, asks | rests⟩
    · exact ⟨[], before, s, t, result, by rwa [List.append_nil], finished⟩
    · have further := history.hears asks s (.error (.unavailable ""))
      obtain ⟨more, rest⟩ := ih further further.bounded (by
        rw [List.length_append, List.length_singleton]
        omega)
      rw [List.append_assoc] at rest
      exact ⟨_, rest⟩
    · have further := history.wakes rests s false
      obtain ⟨more, rest⟩ := ih further further.bounded (by
        rw [List.length_append, List.length_singleton]
        omega)
      rw [List.append_assoc] at rest
      exact ⟨_, rest⟩

/-! ## Bounds -/

/-- What has come after the attempts that have failed: the role is read once at most, and the query
    put to the master if there is an attempt left for it. -/
structure Tail (name : String) (failed : Nat) (tail : List Event) : Prop where
  opens : Opens tail
  no_failure : ∀ e, .answered (.error e) ∉ tail
  no_order : ∀ o, .ordered o ∉ tail
  read : (tail.filterMap Event.role?).length ≤ 1
  asked : ∃ k, failed + k ≤ discoveryAttempts ∧ tail.filterMap Event.name? = List.replicate k name

/-- No failure is in it, and no order. -/
theorem Tail.checked {failed : Nat} (ends : Tail name failed tail) : Checked tail where
  failed _ e here := absurd (List.mem_of_getElem? here) (ends.no_failure e)
  only _ o here := absurd (List.mem_of_getElem? here) (ends.no_order o)

/-- Wherever a query stands, its events are some attempts that have failed and what has come after
    them. -/
theorem Stands.exists_tail (stands : Stands name events s t) :
    ∃ errors tail, events = attempts name errors ++ tail ∧ Tail name errors.length tail
      ∧ errors.length ≤ discoveryAttempts := by
  cases stands with
  | @asks errors left log count stage kept =>
    refine ⟨errors, _, log, ⟨opens_read _ _, by simp, by simp, ?_, 1, by omega, rfl⟩, by omega⟩
    exact Nat.le_refl 1
  | @rests errors left log count stage kept =>
    refine ⟨errors, [], by rw [log, List.append_nil], ?_, by omega⟩
    exact ⟨opens_nil, by simp, by simp, Nat.zero_le 1, 0, by omega, rfl⟩
  | @here errors log count local_ =>
    refine ⟨errors, _, log, ⟨opens_read _ _, by simp, by simp, ?_, 0, count, rfl⟩, count⟩
    exact Nat.le_refl 1
  | @relayed errors r log count stage kept =>
    refine ⟨errors, _, log, ⟨opens_read _ _, by simp, by simp, ?_, 1, count, rfl⟩, by omega⟩
    exact Nat.le_refl 1
  | @nobody errors log count stage kept =>
    refine ⟨errors, _, log, ⟨opens_read _ _, by simp, by simp, ?_, 0, by omega, rfl⟩, by omega⟩
    exact Nat.le_refl 1

/-- So behind each failure the master was checked. -/
theorem Stands.checked (stands : Stands name events s t) : Checked events := by
  obtain ⟨errors, tail, log, ends, -⟩ := stands.exists_tail
  rw [log]
  exact checked_attempts errors ends.checked ends.opens

/-- The query is put to the master no more often than that, and always for the same service. -/
theorem Stands.asked (stands : Stands name events s t) :
    ∃ k ≤ discoveryAttempts, events.filterMap Event.name? = List.replicate k name := by
  obtain ⟨errors, tail, log, ends, -⟩ := stands.exists_tail
  obtain ⟨k, few, names⟩ := ends.asked
  refine ⟨errors.length + k, few, ?_⟩
  rw [log, List.filterMap_append, names_attempts, names, List.replicate_append_replicate]

/-- The role is read once in each attempt and once more. -/
theorem Stands.read (stands : Stands name events s t) :
    (events.filterMap Event.role?).length ≤ discoveryAttempts + 1 := by
  obtain ⟨errors, tail, log, ends, few⟩ := stands.exists_tail
  rw [log, List.filterMap_append, roles_attempts, List.length_append, List.length_replicate]
  exact Nat.add_le_add few ends.read

/-! ## Results -/

/-- The result of a query that is over, and what becomes of the table.  The last turn has found the
    service `s`. -/
structure Ended (name : String) (events : List Event) (s : Service) (t : Turn)
    (result : Except RegistryError (Routed Outcome)) : Prop where
  /-- The node's own result when the role is read as master before the master has replied. -/
  here : result = own name s
    ↔ ∃ l r, events = l ++ .read true :: r ∧ ∀ reply, .answered (.ok reply) ∉ l
  /-- Else the first reply that succeeds. -/
  relayed : ∀ reply, result = .ok (.relayed reply)
    ↔ ∃ l r, events = l ++ .answered (.ok reply) :: r
      ∧ (∀ other, .answered (.ok other) ∉ l) ∧ .read true ∉ l
  /-- Unavailable when all attempts have failed and the role, read once more, is still another. -/
  unavailable : (∃ reason, result = .error (.unavailable reason))
    ↔ (events.filterMap Event.failure?).length = discoveryAttempts
      ∧ (events.filterMap Event.role?).getLast? = some false
  complete : result = own name s ∨ (∃ reply, result = .ok (.relayed reply))
    ∨ result = .error (.unavailable "no reachable master")
  /-- What the node has found itself is one step of the round robin, -/
  stepped : ∀ xs, result = .ok (.here (.found xs)) →
    s.store.discover name = (.ok xs, t.service.store)
  /-- and nothing else changes the table. -/
  kept : (∀ xs, result ≠ .ok (.here (.found xs))) → t.service.store = s.store

/-- What the node finds itself is relayed from nobody. -/
theorem own_ne_relayed (name : String) (s : Service) (reply : Relayed) :
    own name s ≠ .ok (.relayed reply) := by
  unfold own
  cases (s.store.discover name).1 with
  | error e => simp [Except.map]
  | ok xs => simp [Except.map]

/-- The table knows nothing of masters. -/
theorem own_ne_unavailable (name : String) (s : Service) (reason : String) :
    own name s ≠ .error (.unavailable reason) := by
  unfold own Store.discover
  split
  · simp [Except.map]
  · dsimp only
    split <;> simp [Except.map, RegistryError.unknownService]

/-- What decides a query is not in the attempts that have failed. -/
theorem mem_of_decisive {v : Event} (h : v ∈ attempts name errors ++ tail)
    (decisive : v = .read true ∨ ∃ reply, v = .answered (.ok reply)) : v ∈ tail := by
  rcases List.mem_append.1 h with failed | later
  · obtain ⟨no_master, no_reply⟩ := mem_attempts failed
    rcases decisive with eq | ⟨reply, eq⟩
    · exact absurd eq no_master
    · exact absurd eq (no_reply reply)
  · exact later

/-- So wherever it stands among the events, it has come after them. -/
theorem mem_of_split {v : Event} {l r : List Event} (log : events = attempts name errors ++ tail)
    (split : events = l ++ v :: r)
    (decisive : v = .read true ∨ ∃ reply, v = .answered (.ok reply)) : v ∈ tail := by
  have there : v ∈ attempts name errors ++ tail := by
    rw [← log, split]
    simp
  exact mem_of_decisive there decisive

/-- A query that has found the node to be master ends with the own result. -/
theorem ended_here (log : events = attempts name errors ++ [.read true])
    (local_ : t = s.discoverHere name) : Ended name events s t (own name s) := by
  obtain ⟨-, store⟩ := discoverHere_own s name
  refine ⟨?here, ?relayed, ?unavailable, .inl rfl, ?stepped, ?kept⟩
  case here =>
    refine ⟨fun _ => ⟨_, [], log, fun reply h => (mem_attempts h).2 reply rfl⟩, fun _ => rfl⟩
  case relayed =>
    intro reply
    constructor
    · intro eq
      exact absurd eq (own_ne_relayed name s reply)
    · -- the last event is a reading of the role, and no reply
      rintro ⟨l, r, split, -⟩
      have last := mem_of_split log split (.inr ⟨reply, rfl⟩)
      cases List.mem_singleton.1 last
  case unavailable =>
    constructor
    · rintro ⟨reason, eq⟩
      exact absurd eq (own_ne_unavailable name s reason)
    · -- the role was read as master last
      rintro ⟨-, last⟩
      rw [log, List.filterMap_append] at last
      simp [Event.role?] at last
  case stepped =>
    intro xs found
    rw [local_, store]
    unfold own at found
    cases result : (s.store.discover name).1 with
    | error e => rw [result] at found; cases found
    | ok ys =>
      rw [result] at found
      cases found
      rw [← result]
  case kept =>
    intro failed
    rw [local_, store]
    cases result : (s.store.discover name).1 with
    | error e => exact Store.snd_discover_of_error result
    | ok ys =>
      have found : own name s = .ok (.here (.found ys)) := by
        rw [own, result]
        rfl
      exact absurd found (failed ys)

/-- One that the master has answered ends with its reply. -/
theorem ended_relayed {reply : Relayed}
    (log : events = attempts name errors ++ [.read false, .asked name, .answered (.ok reply)])
    (count : errors.length < discoveryAttempts) (kept : t.service.store = s.store) :
    Ended name events s t (.ok (.relayed reply)) := by
  refine ⟨?here, ?relayed, ?unavailable, .inr (.inl ⟨reply, rfl⟩), ?stepped, fun _ => kept⟩
  case here =>
    constructor
    · intro eq
      exact absurd eq.symm (own_ne_relayed name s reply)
    · rintro ⟨l, r, split, -⟩
      have last := mem_of_split log split (.inl rfl)
      simp at last
  case relayed =>
    intro other
    constructor
    · intro eq
      cases eq
      refine ⟨attempts name errors ++ [.read false, .asked name], [], by simp [log], ?_, ?_⟩
      · intro other h
        have last := mem_of_decisive h (.inr ⟨other, rfl⟩)
        simp at last
      · intro h
        have last := mem_of_decisive h (.inl rfl)
        simp at last
    · rintro ⟨l, r, split, -⟩
      have last := mem_of_split log split (.inr ⟨other, rfl⟩)
      have same : other = reply := by simpa using last
      rw [same]
  case unavailable =>
    constructor
    · rintro ⟨reason, eq⟩
      cases eq
    · -- fewer attempts have failed than there are
      rintro ⟨all, -⟩
      have no_more : [Event.read false, .asked name, .answered (.ok reply)].filterMap
          Event.failure? = [] := rfl
      rw [log, List.filterMap_append, failures_attempts, no_more, List.append_nil] at all
      omega
  case stepped =>
    intro xs found
    cases found

/-- One that has been given up ends unavailable. -/
theorem ended_nobody (log : events = attempts name errors ++ [.read false])
    (count : errors.length = discoveryAttempts) (kept : t.service.store = s.store) :
    Ended name events s t (.error (.unavailable "no reachable master")) := by
  refine ⟨?here, ?relayed, ?unavailable, .inr (.inr rfl), ?stepped, fun _ => kept⟩
  case here =>
    constructor
    · intro eq
      exact absurd eq.symm (own_ne_unavailable name s _)
    · rintro ⟨l, r, split, -⟩
      have last := mem_of_split log split (.inl rfl)
      simp at last
  case relayed =>
    intro reply
    constructor
    · intro eq
      cases eq
    · rintro ⟨l, r, split, -⟩
      have last := mem_of_split log split (.inr ⟨reply, rfl⟩)
      cases List.mem_singleton.1 last
  case unavailable =>
    refine ⟨fun _ => ⟨?_, ?_⟩, fun _ => ⟨_, rfl⟩⟩
    · have no_more : [Event.read false].filterMap Event.failure? = [] := rfl
      rw [log, List.filterMap_append, failures_attempts, no_more, List.append_nil]
      exact count
    · rw [log, List.filterMap_append]
      simp [Event.role?]
  case stepped =>
    intro xs found
    cases found

/-- However a query has ended, the events tell its result. -/
theorem Stands.ended {result : Except RegistryError (Routed Outcome)}
    (stands : Stands name events s t) (finished : t.stage = .done result) :
    Ended name events s t result := by
  cases stands with
  | asks log count stage kept => cases stage.symm.trans finished
  | rests log count stage kept => cases stage.symm.trans finished
  | here log count local_ =>
    have done := (discoverHere_own s name).1
    rw [← local_] at done
    cases done.symm.trans finished
    exact ended_here log local_
  | relayed log count stage kept =>
    cases stage.symm.trans finished
    exact ended_relayed log count kept
  | nobody log count stage kept =>
    cases stage.symm.trans finished
    exact ended_nobody log count kept

/-- What holds of a query after each of its turns, and when it is over. -/
structure Sought (name : String) (events : List Event) (before : List (Service × Turn))
    (s : Service) (t : Turn) : Prop where
  /-- It has been put to the master twice at most, always for the same service. -/
  asked : ∃ k ≤ 2, events.filterMap Event.name? = List.replicate k name
  read : (events.filterMap Event.role?).length ≤ 3
  turns : before.length + 1 ≤ 5
  /-- Until it is over it waits for a reply, or rests. -/
  goes_on : (∃ result, t.stage = .done result)
    ∨ ∃ left, t.stage = .asking name left ∨ t.stage = .resting name left
  finishes : ∃ more before' s' t' result,
    History name (events ++ more) before' s' t' ∧ t'.stage = .done result
  checked : Checked events
  /-- No turn but the last one has changed the table. -/
  earlier : ∀ p ∈ before, p.2.service.store = p.1.store
  finished : ∀ result, t.stage = .done result → Ended name events s t result

end Turns

/-- Whatever services, roles and replies a query finds in its turns: it asks the master twice and
    reads the role three times at most, and comes to an end.  Behind each attempt that fails it has
    the master checked, once.  Its result follows from what it has read and been told, and the table
    changes only when the node itself has found something. -/
theorem query_history {name : String} {events : List Event} {before : List (Service × Turn)}
    {s : Service} {t : Turn} (history : History name events before s t) :
    Sought name events before s t := by
  have stands := history.stands
  have bounded : before.length + 1 ≤ 5 := Nat.le_trans (Nat.le_add_right _ _) history.bounded
  exact ⟨stands.asked, stands.read, bounded, stands.goes_on, history.finishes, stands.checked,
    history.earlier, fun result finished => stands.ended finished⟩

/-- Both attempts fail, and the second check makes the node master: the late promotion counts. -/
theorem query_history_of_late_promotion :
    let x : Instance := ⟨"i", ⟨"s", "h", 80⟩, .ofSecs 5, .ofSecs 5⟩
    let held : Service := { store := ({} : Store).insert x }
    let lost : Except RegistryError Relayed := .error (.peer "b" "connection refused")
    let events : List Event :=
      [.read false, .asked "s", .answered lost, .ordered .checkMaster, .read false, .asked "s",
        .answered lost, .ordered .checkMaster, .read true]
    let last : Turn := held.wake true (.resting "s" 0)
    ∃ before, History "s" events before held last ∧ Sought "s" events before held last
      ∧ last.stage = .done (.ok (.here (.found [x])))
      ∧ held.store.discover "s" = (.ok [x], last.service.store) := by
  intro x held lost events last
  have first : History "s" _ [] held _ := .begins held false 7
  have second := (first.hears rfl held lost).wakes rfl held false
  have third := (second.hears rfl held lost).wakes rfl held true
  have history : History "s" events _ held last := third
  have sought := query_history history
  have found : last.stage = .done (.ok (.here (.found [x]))) := rfl
  exact ⟨_, history, sought, found, (sought.finished _ found).stepped [x] rfl⟩

end Seeking

end ServiceRegistry
