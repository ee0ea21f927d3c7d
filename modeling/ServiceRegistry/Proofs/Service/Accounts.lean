/-
  The accounts of a service.

  A service works at many calls at once; it evicts and sweeps beside them.  Every turn makes an
  entry: which role it read, what the cluster was asked, whether a reply told of a failure, and what
  was reported.

  1. `Store.Commits`: what a change that is replicated tells of the table before and after it.
     Writes and evictions commit what they replicate (`Write.Carried.commits`).
  2. `Booked`: how the size of the table and the counters move with what is asked.  It composes, and
     each turn is booked: `Turn.Came.accounted`, `Service.accounted_hear`, `accounted_evict`,
     `accounted_sweep`.
  3. `ServiceState.Step`, `ServiceState.Runs`: the turns of a service one after another, whosever
     they are.
  4. `accounts_balance`: so the accounts balance after every run, and every turn replicates just
     what it reports and has done.

  Sizes and counts are compared as the counters are kept, in words of 64 bits.
-/
import ServiceRegistry.Proofs.Replication
import ServiceRegistry.Proofs.Service.Turns
import ServiceRegistry.Proofs.Store.Records
import ServiceRegistry.Service.Script

namespace ServiceRegistry

/-! ## Changes and tables -/

namespace Store

/-- A change tells what became of the table: the record of a removal was in it and is gone, any
    other record is in it as it was stored.  All other records stay. -/
def Commits (s : Store) (c : Change) (s' : Store) : Prop :=
  match c.kind with
  | .unregister =>
    c.record ∈ s.all ∧ ∀ y, y ∈ s'.all ↔ y ∈ s.all ∧ y.id ≠ c.record.id
  | .register | .heartbeat =>
    ∀ y, y ∈ s'.all ↔ y = c.record ∨ (y ∈ s.all ∧ y.id ≠ c.record.id)

/-- Changes tell, one after another, how a table became another one; without a change the records
    stay as they are. -/
inductive Committed : Store → List Change → Store → Prop
  | none {s s' : Store} (same : s'.SameRecords s) : Committed s [] s'
  | next {s s' s'' : Store} {c : Change} {cs : List Change} (first : s.Commits c s')
      (rest : Committed s' cs s'') : Committed s (c :: cs) s''

/-- No change, and nothing has become of the table. -/
theorem Committed.refl (s : Store) : Committed s [] s := .none (.refl s)

/-- One change alone. -/
theorem Commits.committed {s s' : Store} {c : Change} (h : s.Commits c s') : Committed s [c] s' :=
  .next h (.refl s')

/-- A table with the same records may be put ahead: a change is told by the records alone. -/
theorem Committed.cons_of_same {s s' s'' : Store} {cs : List Change} (same : s'.SameRecords s)
    (h : Committed s' cs s'') : Committed s cs s'' := by
  cases h with
  | none same' => exact .none (same'.trans same)
  | @next _ t _ c cs first rest =>
    refine .next ?_ rest
    unfold Commits at first ⊢
    rwa [same.all] at first

/-- Two stretches of changes. -/
theorem Committed.trans {s s' s'' : Store} {cs ds : List Change} (h : Committed s cs s')
    (h' : Committed s' ds s'') : Committed s (cs ++ ds) s'' := by
  induction h with
  | none same => exact h'.cons_of_same same
  | next first rest ih => exact .next first (ih h')

namespace Coherent

variable {s s' : Store} {x : Instance} {id : String}

/-- No record is listed twice, for no two share an id. -/
theorem nodup_all (h : s.Coherent) : s.all.Nodup :=
  h.pairwise_ids.imp fun apart same => apart (congrArg Instance.id same)

/-- A table with one more record is larger by one. -/
theorem size_of_one_more (h : s.Coherent) (h' : s'.Coherent) (new : x ∉ s.all)
    (members : ∀ y, y ∈ s'.all ↔ y = x ∨ y ∈ s.all) : s'.size = s.size + 1 := by
  have perm : s'.all.Perm (x :: s.all) :=
    (List.perm_ext_iff_of_nodup h'.nodup_all (List.nodup_cons.2 ⟨new, h.nodup_all⟩)).2 fun y => by
      rw [members, List.mem_cons]
  rw [size, size, ← ServiceMap.length_all, ← ServiceMap.length_all]
  exact perm.length_eq

/-- A new record makes the table larger by one; -/
theorem size_insert (h : s.Coherent) (h' : (s.insert x).Coherent) (unknown : s.find? x.id = none) :
    (s.insert x).size = s.size + 1 := by
  refine h.size_of_one_more h' (fun hx => h.find?_eq_none_iff.1 unknown x hx rfl) fun y => ?_
  rw [mem_all_insert, or_comm]

/-- one that is removed makes it smaller by one. -/
theorem size_remove (h : s.Coherent) (found : s.find? id = some x) :
    s.size = (s.remove id).2.size + 1 := by
  obtain ⟨hx, rfl⟩ := h.find?_eq_some_iff.1 found
  refine (h.remove x.id).size_of_one_more h (x := x) (fun left => ?_) fun y => ?_
  · exact (h.mem_all_remove.1 left).2 rfl
  · rw [h.mem_all_remove]
    constructor
    · intro hy
      by_cases same : y.id = x.id
      · exact .inl (h.eq_of_id hy hx same)
      · exact .inr ⟨hy, same⟩
    · rintro (rfl | ⟨hy, -⟩)
      · exact hx
      · exact hy

/-- Another heartbeat keeps the size: both tables have one record more than the others. -/
theorem size_beat (h : s.Coherent) (found : s.find? id = some x) (t : Stamp) :
    (s.beat x t).size = s.size := by
  rw [h.size_remove found]
  obtain ⟨hx, rfl⟩ := h.find?_eq_some_iff.1 found
  refine (h.remove x.id).size_of_one_more (h.beat found t) (x := { x with heartbeat := t })
    (fun left => (h.mem_all_remove.1 left).2 rfl) fun y => ?_
  rw [h.mem_all_beat found, h.mem_all_remove]

end Coherent

end Store

/-! ## Writes and evictions -/

/-- How the size of a table moves when a counter counts. -/
def Counter.Resizes (before after : Nat) : Counter → Prop
  | .registrations => after = before + 1
  | .unregistrations | .expiredInstances => before = after + 1
  | _ => after = before

/-- The counters that count what is replicated. -/
def Counter.ofWrites : List Counter :=
  [.registrations, .heartbeats, .unregistrations, .expiredInstances]

namespace Write.Carried

variable {s s' : Store} {w : Write} {o : Outcome} {k : Counter} {x : Instance}

/-- A write that is carried out keeps the table coherent. -/
theorem coherent (carried : w.Carried s o s') (h : s.Coherent) : s'.Coherent := by
  cases carried with
  | add unknown valid free t =>
    exact h.insert (Instance.id_ne_of_checkRegistration valid) unknown free
  | refresh found t => exact h.beat found t
  | beat found t => exact h.beat found t
  | remove found => exact h.remove _

/-- It has become of the table what the replicated change tells. -/
theorem commits (carried : w.Carried s o s') (h : s.Coherent)
    (credited : Service.credit o = some (k, x)) : s.Commits ⟨w.kind, x⟩ s' := by
  cases carried with
  | @add new unknown valid free t =>
    cases credited
    intro y
    have apart : y ∈ s.all → y.id ≠ new.id := h.find?_eq_none_iff.1 unknown y
    rw [Store.mem_all_insert, or_comm, and_iff_left_of_imp apart]
  | refresh found t =>
    cases credited
    exact h.mem_all_beat found t
  | beat found t =>
    cases credited
    exact h.mem_all_beat found t
  | remove found =>
    cases credited
    obtain ⟨hx, hid⟩ := h.find?_eq_some_iff.1 found
    exact ⟨hx, fun y => by rw [h.mem_all_remove, ← hid]⟩

/-- The size has moved as the counter has it that counts it. -/
theorem resizes (carried : w.Carried s o s') (h : s.Coherent)
    (credited : Service.credit o = some (k, x)) : k.Resizes s.size s'.size := by
  have coherent := carried.coherent h
  cases carried with
  | add unknown valid free t =>
    cases credited
    exact h.size_insert coherent unknown
  | refresh found t =>
    cases credited
    exact h.size_beat found t
  | beat found t =>
    cases credited
    exact h.size_beat found t
  | remove found =>
    cases credited
    exact h.size_remove found

end Write.Carried

/-! ## Booking -/

namespace Asked

/-- Whether the cluster is asked to replicate. -/
def isReplicate : Asked → Bool
  | .replicate _ => true
  | _ => false

/-- Whether the cluster is asked to forward. -/
def isForward : Asked → Bool
  | .forwardWrite _ | .forwardDiscovery _ => true
  | _ => false

/-- The changes that the cluster is asked to replicate. -/
def changes (asked : List Asked) : List Change :=
  asked.filterMap fun
    | .replicate c => some c
    | _ => none

end Asked

namespace Service

/-- What a counter of a service shows. -/
def reading (s : Service) (k : Counter) : UInt64 := s.counters.get k

/-- The records that a service has had to do with: those it holds, and those that have left. -/
def seen (s : Service) : UInt64 :=
  .ofNat s.store.size + s.reading .unregistrations + s.reading .expiredInstances

/-- The writes that a service has carried out. -/
def writes (s : Service) : UInt64 :=
  s.reading .registrations + s.reading .heartbeats + s.reading .unregistrations
    + s.reading .expiredInstances

/-- To count is to move one counter on by one. -/
theorem reading_count (s : Service) (k j : Counter) :
    (s.count k).reading j = if j = k then s.reading j + 1 else s.reading j :=
  s.counters.get_bump k j

end Service

/-- What has been asked between two states of a service, and how many replies told of a failure, is
    what the size and the counters have moved by.  Only differences are booked, so that turns add
    up. -/
structure Booked (s s' : Service) (asked : List Asked) (failures : Nat) : Prop where
  size : s'.seen - s'.reading .registrations = s.seen - s.reading .registrations
  replicated : s'.writes = s.writes + .ofNat (asked.countP Asked.isReplicate)
  forwarded : s'.reading .forwardedRequests
    = s.reading .forwardedRequests + .ofNat (asked.countP Asked.isForward)
  failed : s'.reading .forwardFailures = s.reading .forwardFailures + .ofNat failures
  checked : asked.count .check = failures

namespace Booked

variable {s s' s'' : Service} {asked more : List Asked} {m n : Nat}

/-- Nothing asked, nothing moved. -/
theorem refl (s : Service) : Booked s s [] 0 where
  size := rfl
  replicated := (UInt64.add_zero _).symm
  forwarded := (UInt64.add_zero _).symm
  failed := (UInt64.add_zero _).symm
  checked := rfl

/-- Two stretches are booked together. -/
theorem trans (h : Booked s s' asked m) (h' : Booked s' s'' more n) :
    Booked s s'' (asked ++ more) (m + n) where
  size := h'.size.trans h.size
  replicated := by
    rw [h'.replicated, h.replicated, List.countP_append, UInt64.ofNat_add, UInt64.add_assoc]
  forwarded := by
    rw [h'.forwarded, h.forwarded, List.countP_append, UInt64.ofNat_add, UInt64.add_assoc]
  failed := by rw [h'.failed, h.failed, UInt64.ofNat_add, UInt64.add_assoc]
  checked := by rw [List.count_append, h.checked, h'.checked]

/-- A turn that counts once is booked when it asks and fails as the counter has it. -/
theorem of_count {s : Service} {store : Store} {k : Counter} {asked : List Asked} {failures : Nat}
    (resizes : k.Resizes s.store.size store.size)
    (replicated : asked.countP Asked.isReplicate = if k ∈ Counter.ofWrites then 1 else 0)
    (forwarded : asked.countP Asked.isForward = if k = .forwardedRequests then 1 else 0)
    (failed : failures = if k = .forwardFailures then 1 else 0)
    (checked : asked.count .check = failures) :
    Booked s ({ s with store }.count k) asked failures := by
  have reading (j : Counter) : ({ s with store }.count k).reading j
      = if j = k then s.reading j + 1 else s.reading j := Service.reading_count _ k j
  have held : ({ s with store }.count k).store = store := rfl
  refine ⟨?_, ?_, ?_, ?_, checked⟩
  · cases k
    all_goals
      simp only [Counter.Resizes] at resizes
      simp [Service.seen, reading, held, resizes]
    all_goals grind
  · rw [replicated]
    cases k
    all_goals simp [Service.writes, reading, Counter.ofWrites]
    all_goals grind
  · rw [forwarded, reading]
    cases k <;> simp
  · rw [failed, reading]
    cases k <;> simp

end Booked

/-! ## Entries -/

/-- What a turn reports. -/
inductive Report
  | call (stage : Stage)
  | evicted (gone : Bool)
  | swept (n : Nat)

/-- The change that a call made here commits, if it is a write. -/
def Outcome.change : Outcome → Option Change
  | .registered x | .refreshed x => some ⟨.register, x⟩
  | .beaten x => some ⟨.heartbeat, x⟩
  | .removed x => some ⟨.unregister, x⟩
  | .found _ => none

/-- The changes that belong to a report: that of a call which has just ended here, or a removal for
    each record that was evicted. -/
def Report.Tells : Report → List Change → Prop
  | .call (.done (.ok (.here o))), cs => cs = o.change.toList
  | .call _, cs => cs = []
  | .evicted gone, cs => cs.length = gone.toNat ∧ ∀ c ∈ cs, c.kind = .unregister
  | .swept n, cs => cs.length = n ∧ ∀ c ∈ cs, c.kind = .unregister

/-- What a turn leaves in the books: the role it read, if it read one, what the cluster was asked,
    whether a reply told of a failure, and what was reported. -/
structure Entry where
  role : Option Bool
  asked : List Asked
  failed : Bool
  report : Report

/-- What the master is asked when a call has come to a stage. -/
def Stage.asks : Stage → List Asked
  | .forwarding c => [.forwardWrite c]
  | .asking name _ => [.forwardDiscovery name]
  | .resting _ _ | .done _ => []

/-- The entry of a turn of a call. -/
def Turn.entry (role : Option Bool) (failed : Bool) (t : Turn) : Entry where
  role
  asked := t.orders.map Order.asked ++ t.stage.asks
  failed
  report := .call t.stage

/-- A turn is accounted for: only the master changes the table, what is replicated is what is
    reported and what has become of the table, and everything is booked. -/
structure Entry.Accounts (e : Entry) (s s' : Service) : Prop where
  master : e.role ≠ some true → s'.store = s.store
  told : e.report.Tells (Asked.changes e.asked)
  committed : s.store.Committed (Asked.changes e.asked) s'.store
  coherent : s'.store.Coherent
  booked : Booked s s' e.asked e.failed.toNat

/-- The changes of two stretches. -/
@[simp] theorem Asked.changes_append (asked more : List Asked) :
    changes (asked ++ more) = changes asked ++ changes more := List.filterMap_append ..

namespace Turn

variable {isMaster : Bool} {s : Service} {t : Turn} {stage : Stage}

/-- A turn that reads the role is accounted for. -/
theorem Came.accounted (came : t.Came isMaster s) (h : s.store.Coherent) :
    (t.entry (some isMaster) false).Accounts s t.service := by
  cases came with
  | failed e => exact ⟨fun _ => rfl, rfl, .refl _, h, .refl s⟩
  | forwarded slave relays =>
    refine ⟨fun _ => rfl, ?_, ?_, h, ?_⟩
    all_goals cases relays
    · rfl
    · rfl
    · exact .refl _
    · exact .refl _
    · exact .of_count rfl rfl rfl rfl rfl
    · exact .of_count rfl rfl rfl rfl rfl
  | @wrote w o store k x master carried credited =>
    refine ⟨fun slave => absurd (congrArg some master) slave, ?_,
      (carried.commits h credited).committed, carried.coherent h,
      .of_count (carried.resizes h credited) ?_ ?_ ?_ rfl⟩
    all_goals
      cases carried
      all_goals
        cases credited
        rfl
  | found master name =>
    have same := Store.SameRecords.discover s.store name
    have size : (s.store.discover name).2.size = s.store.size :=
      congrArg ServiceMap.size same.services
    exact ⟨fun slave => absurd (congrArg some master) slave, rfl, .none same, h.discover name,
      .of_count size rfl rfl rfl rfl⟩

end Turn

namespace Service

variable {s : Service} {stage : Stage}

/-- A turn that hears a reply is accounted for. -/
theorem accounted_hear (h : s.store.Coherent) (relays : stage.Relays)
    (reply : Except RegistryError Relayed) :
    ((s.hear stage reply).entry none !reply.isOk).Accounts s (s.hear stage reply).service := by
  cases reply with
  | ok r =>
    rw [s.hear_answered relays]
    exact ⟨fun _ => rfl, rfl, .refl _, h, .refl s⟩
  | error e =>
    obtain ⟨next, lost, eq⟩ := s.hear_failed relays e
    rw [eq]
    cases lost
    all_goals exact ⟨fun _ => rfl, rfl, .refl _, h, .of_count rfl rfl rfl rfl rfl⟩

/-- An eviction is accounted for. -/
theorem accounted_evict (h : s.store.Coherent) (isMaster : Bool) (now : Int64) (timeout : UInt64)
    (id : String) :
    Entry.Accounts
      ⟨some isMaster, (s.evict isMaster now timeout id).2.2.map Order.asked, false,
        .evicted (s.evict isMaster now timeout id).1⟩
      s (s.evict isMaster now timeout id).2.1 := by
  rcases s.evict_cases isMaster now timeout id with eq | ⟨x, master, found, eq⟩
  · rw [eq]
    exact ⟨fun _ => rfl, ⟨rfl, by simp [Asked.changes]⟩, .refl _, h, .refl s⟩
  · rw [eq]
    obtain ⟨hx, hid⟩ := h.find?_eq_some_iff.1 found
    have gone : s.store.Commits ⟨.unregister, x⟩ (s.store.remove id).2 :=
      ⟨hx, fun y => by rw [h.mem_all_remove, ← hid]⟩
    exact ⟨fun slave => absurd (congrArg some master) slave,
      ⟨rfl, by simp [Asked.changes, Order.asked]⟩, gone.committed, h.remove id,
      .of_count (h.size_remove found) rfl rfl rfl rfl⟩

/-- So are evictions one after another, as one turn. -/
theorem accounted_evictAll (h : s.store.Coherent) (isMaster : Bool) (now : Int64) (timeout : UInt64)
    (xs : List Instance) :
    Entry.Accounts
      ⟨some isMaster, (evictAll isMaster now timeout xs s).2.2.map Order.asked, false,
        .swept (evictAll isMaster now timeout xs s).1⟩
      s (evictAll isMaster now timeout xs s).2.1 := by
  induction xs generalizing s with
  | nil => exact ⟨fun _ => rfl, ⟨rfl, by simp [evictAll, Asked.changes]⟩, .refl _, h, .refl s⟩
  | cons x xs ih =>
    have first := accounted_evict h isMaster now timeout x.id
    have rest := ih first.coherent
    unfold evictAll
    simp only [List.map_append]
    refine ⟨fun slave => (rest.master slave).trans (first.master slave), ?_, ?_, rest.coherent,
      first.booked.trans rest.booked⟩
    · obtain ⟨one, kind⟩ := first.told
      obtain ⟨many, kinds⟩ := rest.told
      simp only [Asked.changes_append]
      refine ⟨by rw [List.length_append, one, many, Nat.add_comm], fun c hc => ?_⟩
      rcases List.mem_append.1 hc with hc | hc
      · exact kind c hc
      · exact kinds c hc
    · simp only [Asked.changes_append]
      exact first.committed.trans rest.committed

/-- A sweep is accounted for: one removal for each record that it evicted. -/
theorem accounted_sweep (h : s.store.Coherent) (isMaster : Bool) (now : Int64) (timeout : UInt64) :
    Entry.Accounts
      ⟨some isMaster, (s.sweep isMaster now timeout).2.2.map Order.asked, false,
        .swept (s.sweep isMaster now timeout).1⟩
      s (s.sweep isMaster now timeout).2.1 := by
  unfold sweep
  cases isMaster with
  | false => exact ⟨fun _ => rfl, ⟨rfl, by simp [Asked.changes]⟩, .refl _, h, .refl s⟩
  | true => exact accounted_evictAll h true now timeout _

end Service

/-! ## Runs -/

/-- A service, and where its calls stand. -/
structure ServiceState where
  service : Service := {}
  calls : List Stage := []

namespace ServiceState

/-- What can happen to a service and its calls, and its entry.  The role may be another one at each
    turn, and the master may reply what it likes. -/
inductive Step (d : ServiceState) : Entry → ServiceState → Prop
  /-- A call begins. -/
  | begin (isMaster : Bool) (now : Int64) (c : Call) :
      Step d ((d.service.begin isMaster now c).entry (some isMaster) false)
        ⟨(d.service.begin isMaster now c).service,
          d.calls ++ [(d.service.begin isMaster now c).stage]⟩
  /-- The master's reply to a call arrives, or the attempt to reach it has failed. -/
  | hear {l r : List Stage} {stage : Stage} (split : d.calls = l ++ stage :: r)
      (relays : stage.Relays) (reply : Except RegistryError Relayed) :
      Step d ((d.service.hear stage reply).entry none !reply.isOk)
        ⟨(d.service.hear stage reply).service, l ++ (d.service.hear stage reply).stage :: r⟩
  /-- The grace period of a call has passed. -/
  | wake {l r : List Stage} {name : String} {left : Nat}
      (split : d.calls = l ++ .resting name left :: r) (isMaster : Bool) :
      Step d ((d.service.wake isMaster (.resting name left)).entry (some isMaster) false)
        ⟨(d.service.wake isMaster (.resting name left)).service,
          l ++ (d.service.wake isMaster (.resting name left)).stage :: r⟩
  /-- One record is evicted if it is expired. -/
  | evict (isMaster : Bool) (now : Int64) (timeout : UInt64) (id : String) :
      Step d
        ⟨some isMaster, (d.service.evict isMaster now timeout id).2.2.map Order.asked, false,
          .evicted (d.service.evict isMaster now timeout id).1⟩
        { d with service := (d.service.evict isMaster now timeout id).2.1 }
  /-- All expired records are evicted. -/
  | sweep (isMaster : Bool) (now : Int64) (timeout : UInt64) :
      Step d
        ⟨some isMaster, (d.service.sweep isMaster now timeout).2.2.map Order.asked, false,
          .swept (d.service.sweep isMaster now timeout).1⟩
        { d with service := (d.service.sweep isMaster now timeout).2.1 }

/-- What can become of a service that begins with an empty table, and its entries. -/
inductive Runs : List Entry → ServiceState → Prop
  | nil : Runs [] {}
  | snoc {entries : List Entry} {e : Entry} {d d' : ServiceState} (run : Runs entries d)
      (step : d.Step e d') : Runs (entries ++ [e]) d'

/-- Every turn is accounted for. -/
theorem Step.accounts {d d' : ServiceState} {e : Entry} (step : d.Step e d')
    (h : d.service.store.Coherent) : e.Accounts d.service d'.service := by
  cases step with
  | begin isMaster now c => exact (d.service.came_begin isMaster now c).accounted h
  | hear split relays reply => exact Service.accounted_hear h relays reply
  | wake split isMaster => exact (d.service.came_wake isMaster _ _).accounted h
  | evict isMaster now timeout id => exact Service.accounted_evict h isMaster now timeout id
  | sweep isMaster now timeout => exact Service.accounted_sweep h isMaster now timeout

/-- So is every run. -/
theorem Runs.booked {d : ServiceState} {entries : List Entry} (run : Runs entries d) :
    d.service.store.Coherent
      ∧ Booked {} d.service (entries.flatMap Entry.asked) (entries.countP Entry.failed) := by
  induction run with
  | nil => exact ⟨Store.coherent_empty, .refl _⟩
  | @snoc entries e d d' run step ih =>
    obtain ⟨coherent, booked⟩ := ih
    have accounted := step.accounts coherent
    refine ⟨accounted.coherent, ?_⟩
    have failures : List.countP Entry.failed [e] = e.failed.toNat := by
      cases h : e.failed <;> simp [h]
    simpa [failures] using booked.trans accounted.booked

/-- The accounts of a service balance: what it holds is what was registered less what has left, it
    has had replicated what it has written and evicted, and its other two counters are the calls
    that it has put to the master and the replies that told of a failure, each of which had the
    master checked. -/
structure Balanced (entries : List Entry) (s : Service) : Prop where
  size : UInt64.ofNat s.store.size
    = s.reading .registrations - s.reading .unregistrations - s.reading .expiredInstances
  replicated : UInt64.ofNat ((entries.flatMap Entry.asked).countP Asked.isReplicate)
    = s.reading .registrations + s.reading .heartbeats + s.reading .unregistrations
      + s.reading .expiredInstances
  forwarded : UInt64.ofNat ((entries.flatMap Entry.asked).countP Asked.isForward)
    = s.reading .forwardedRequests
  failed : UInt64.ofNat (entries.countP Entry.failed) = s.reading .forwardFailures
  checked : (entries.flatMap Entry.asked).count .check = entries.countP Entry.failed

/-- What is booked from the empty service on balances, for its counters begin at zero. -/
theorem Balanced.of_booked {entries : List Entry} {s : Service}
    (h : Booked {} s (entries.flatMap Entry.asked) (entries.countP Entry.failed)) :
    Balanced entries s := by
  obtain ⟨size, replicated, forwarded, failed, checked⟩ := h
  have blank (k : Counter) : ({} : Service).reading k = 0 := by cases k <;> rfl
  have empty : ({} : Service).store.size = 0 := rfl
  simp only [Service.seen, Service.writes, blank, empty] at size replicated forwarded failed
  exact ⟨by grind, by grind, by grind, by grind, checked⟩

/-- After every run that begins with an empty table the accounts balance.  Every turn that may come
    next leaves the table alone, unless it found the node to be master; what it replicates is the
    change that it reports, or one removal for each record it evicted; and the changes tell, one
    after another, what has become of the records. -/
theorem accounts_balance {entries : List Entry} {d : ServiceState} (run : Runs entries d) :
    Balanced entries d.service
    ∧ ∀ {e : Entry} {d' : ServiceState}, d.Step e d' →
        (e.role ≠ some true → d'.service.store = d.service.store)
        ∧ e.report.Tells (Asked.changes e.asked)
        ∧ d.service.store.Committed (Asked.changes e.asked) d'.service.store := by
  obtain ⟨coherent, booked⟩ := run.booked
  refine ⟨.of_booked booked, fun step => ?_⟩
  obtain ⟨master, told, committed, -, -⟩ := step.accounts coherent
  exact ⟨master, told, committed⟩

/-- The master registers a record, loses its role, and cannot put a query to the new master. -/
theorem accounts_balance_out_of_reach :
    let x : Instance := { id := "i", identity := ⟨"s", "h", 80⟩ }
    let registered := Service.begin true 5 (.write (.register x)) {}
    let asked := registered.service.begin false 6 (.discover "s")
    let heard := asked.service.hear asked.stage (.error (.peer "b" "connection refused"))
    Balanced
      [registered.entry (some true) false, asked.entry (some false) false, heard.entry none true]
      heard.service
    ∧ Store.Committed {}
        [⟨.register, { x with registered := .ofSecs 5, heartbeat := .ofSecs 5 }⟩]
        registered.service.store := by
  intro x registered asked heard
  have run : Runs _ ⟨heard.service, [registered.stage, heard.stage]⟩ :=
    .snoc (.snoc (.snoc .nil (.begin true 5 (.write (.register x))))
        (.begin false 6 (.discover "s")))
      (.hear (l := [registered.stage]) (r := []) rfl (.asking "s" 1)
        (.error (.peer "b" "connection refused")))
  have first := (accounts_balance .nil).2 (.begin true 5 (.write (.register x)))
  exact ⟨(accounts_balance run).1, first.2.2⟩

end ServiceState

end ServiceRegistry
