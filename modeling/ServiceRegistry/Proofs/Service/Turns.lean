/-
  What a turn of a call comes to.

  A turn that reads the role does one of four things (`Turn.Came`): it fails, it puts the call to
  the master, it writes, or it finds.  The last two happen on the master alone, and end the call.  A
  turn that hears the master's reply touches nothing but a counter.

    * `Write.Carried`   how a write that succeeds changes the table;
    * `Service.came_begin`, `came_wake`   the turns that read the role;
    * `Service.hear_answered`, `hear_failed`   the turns that hear a reply;
    * `Service.evict_cases`   the other thing that changes the table of a master.
-/
import ServiceRegistry.Proofs.Handling
import ServiceRegistry.Proofs.Store.Operations

namespace ServiceRegistry

/-! ## Writes -/

/-- A write that succeeds on a table: what it did, and the table after it. -/
inductive Write.Carried (s : Store) : Write → Outcome → Store → Prop
  | add {x : Instance} (unknown : s.find? x.id = none) (valid : x.checkRegistration = .ok ())
      (free : s.owner? x.endpoint = none) (t : Stamp) :
      Carried s (.register x) (.registered { x with registered := t, heartbeat := t })
        (s.insert { x with registered := t, heartbeat := t })
  | refresh {x old : Instance} (found : s.find? x.id = some old) (t : Stamp) :
      Carried s (.register x) (.refreshed { old with heartbeat := t }) (s.beat old t)
  | beat {c : Claim} {x : Instance} (found : s.find? c.id = some x) (t : Stamp) :
      Carried s (.heartbeat c) (.beaten { x with heartbeat := t }) (s.beat x t)
  | remove {c : Claim} {x : Instance} (found : s.find? c.id = some x) :
      Carried s (.unregister c) (.removed x) (s.remove c.id).2

/-- What a turn comes to that reads whether the node is master. -/
inductive Turn.Came (isMaster : Bool) (s : Service) : Turn → Prop
  | failed (e : RegistryError) : Came isMaster s (s.fail e)
  | forwarded {stage : Stage} (slave : isMaster = false) (relays : stage.Relays) :
      Came isMaster s ⟨s.count .forwardedRequests, [], stage⟩
  | wrote {w : Write} {o : Outcome} {store : Store} {k : Counter} {x : Instance}
      (master : isMaster = true) (carried : w.Carried s.store o store)
      (credited : Service.credit o = some (k, x)) :
      Came isMaster s
        ⟨({ s with store }).count k, [.replicate ⟨w.kind, x⟩], .done (.ok (.here o))⟩
  | found {xs : List Instance} (master : isMaster = true) (name : String) :
      Came isMaster s
        ⟨({ s with store := (s.store.discover name).2 }).count .discoveries, [],
          .done (.ok (.here (.found xs)))⟩

namespace Service

variable (s : Service)

/-- A write of the master is carried out, counted and replicated, or fails. -/
theorem came_writeHere (now : Int64) (w : Write) : Turn.Came true s (s.writeHere now w) := by
  cases w with
  | register x =>
    rcases s.store.register_cases now x with
      ⟨e, eq⟩ | ⟨old, found, -, eq⟩ | ⟨unknown, valid, free, eq⟩
    · simp only [writeHere, writeStore, eq]
      exact .failed e
    · simp only [writeHere, writeStore, eq, credit]
      exact .wrote rfl (.refresh found _) rfl
    · simp only [writeHere, writeStore, eq, credit]
      exact .wrote rfl (.add unknown valid free _) rfl
  | heartbeat c =>
    rcases s.store.heartbeat_cases now c with ⟨e, eq⟩ | ⟨x, found, -, eq⟩
    · simp only [writeHere, writeStore, eq]
      exact .failed e
    · simp only [writeHere, writeStore, eq, credit]
      exact .wrote rfl (.beat found _) rfl
  | unregister c =>
    rcases s.store.unregister_cases c with ⟨e, eq⟩ | ⟨x, found, -, eq⟩
    · simp only [writeHere, writeStore, eq]
      exact .failed e
    · simp only [writeHere, writeStore, eq, credit]
      exact .wrote rfl (.remove found) rfl

/-- A query of the master is answered and counted, or fails. -/
theorem came_discoverHere (name : String) : Turn.Came true s (s.discoverHere name) := by
  unfold discoverHere
  split
  · rename_i e store eq
    have kept : store = s.store :=
      (congrArg Prod.snd eq).symm.trans (Store.snd_discover_of_error (congrArg Prod.fst eq))
    rw [kept]
    exact .failed e
  · rename_i xs store eq
    obtain rfl : (s.store.discover name).2 = store := congrArg Prod.snd eq
    exact .found rfl name

/-- A turn of a query that reads the role. -/
theorem came_seek (isMaster : Bool) (name : String) (left : Nat) :
    Turn.Came isMaster s (s.seek isMaster name left) := by
  unfold seek
  cases isMaster with
  | true => exact s.came_discoverHere name
  | false =>
    cases left with
    | zero => exact .failed _
    | succ left => exact .forwarded rfl (.asking name left)

/-- The turn in which a call begins. -/
theorem came_begin (isMaster : Bool) (now : Int64) (c : Call) :
    Turn.Came isMaster s (s.begin isMaster now c) := by
  cases c with
  | write w =>
    cases check : w.check with
    | error e => exact begin_of_unfit check s isMaster ▸ .failed e
    | ok =>
      rw [begin_of_fit check]
      cases isMaster with
      | true => exact s.came_writeHere now w
      | false => exact .forwarded rfl (.forwarding _)
  | discover name => exact s.came_seek isMaster name discoveryAttempts

/-- The turn in which a query goes on after its rest. -/
theorem came_wake (isMaster : Bool) (name : String) (left : Nat) :
    Turn.Came isMaster s (s.wake isMaster (.resting name left)) := s.came_seek isMaster name left

variable {stage : Stage}

/-- The reply of the master ends the call. -/
theorem hear_answered (relays : stage.Relays) (r : Relayed) :
    s.hear stage (.ok r) = ⟨s, [], .done (.ok (.relayed r))⟩ := by
  cases relays <;> rfl

/-- Where a call stands after the master could not be reached. -/
inductive Lost : Stage → Stage → Prop
  | write (c : Change) (reason : String) :
      Lost (.forwarding c) (.done (.error (.unavailable reason)))
  | query (name : String) (left : Nat) : Lost (.asking name left) (.resting name left)

/-- When there is none, the failure is counted and the master checked. -/
theorem hear_failed (relays : stage.Relays) (e : RegistryError) :
    ∃ next, Lost stage next
      ∧ s.hear stage (.error e) = ⟨s.count .forwardFailures, [.checkMaster], next⟩ := by
  cases relays with
  | forwarding c => exact ⟨_, .write c _, rfl⟩
  | asking name left => exact ⟨_, .query name left, rfl⟩

/-! ## Evictions -/

/-- An eviction that takes a record out was the master's, and replicates the removal. -/
theorem evict_cases (isMaster : Bool) (now : Int64) (timeout : UInt64) (id : String) :
    s.evict isMaster now timeout id = (false, s, [])
    ∨ ∃ x, isMaster = true ∧ s.store.find? id = some x ∧
        s.evict isMaster now timeout id
          = (true, { s with store := (s.store.remove id).2 }.count .expiredInstances,
              [.replicate ⟨.unregister, x⟩]) := by
  unfold evict
  cases isMaster with
  | false => exact .inl rfl
  | true =>
    simp only [Bool.not_true, Bool.false_eq_true, if_false]
    rcases s.store.removeIfExpired_cases id now timeout with eq | ⟨x, found, -, eq⟩
    · rw [eq]
      exact .inl rfl
    · rcases s.store.remove_cases id with kept | ⟨y, there, gone⟩
      · rw [eq, kept]
        exact .inl rfl
      · rw [eq, gone]
        exact .inr ⟨y, trivial, there, rfl⟩

end Service

end ServiceRegistry
