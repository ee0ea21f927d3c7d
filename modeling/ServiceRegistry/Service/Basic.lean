/-
  The registry as its callers see it.

  A call is carried out here when the node is master, and otherwise put to the master, whose answer
  is passed on unread.  It runs in turns: a turn reads the role at most once, never waits, and ends
  with the call done or waiting at a stage, for the master's reply or for the grace period to pass.
  What the cluster is to do meanwhile, without being waited for, leaves the turn as orders.

    * `begin`, `hear`, `wake`   the three kinds of turns;
    * `evict`, `sweep`          what the node does on its own.
-/
import ServiceRegistry.Counters
import ServiceRegistry.Store.Client
import ServiceRegistry.Store.Expiry
import ServiceRegistry.Store.Replica

namespace ServiceRegistry

/-! ## Calls and answers -/

/-- A write as a caller asks for it. -/
inductive Write
  | register (x : Instance)
  | heartbeat (c : Claim)
  | unregister (c : Claim)
  deriving DecidableEq, Repr

namespace Write

/-- The kind of a write. -/
def kind : Write → WriteKind
  | .register _ => .register
  | .heartbeat _ => .heartbeat
  | .unregister _ => .unregister

/-- What is checked before anything else, on every node. -/
def check : Write → Except RegistryError Unit
  | .register x => if x.isBareHeartbeat then Instance.checkId x.id else x.checkRegistration
  | .heartbeat c => Instance.checkId c.id
  | .unregister c => Instance.checkId c.id

/-- The body a write is forwarded with. -/
def body : Write → Instance
  | .register x => x
  | .heartbeat c => { id := c.id, identity := c.identity }
  | .unregister c => { id := c.id, identity := c.identity }

end Write

/-- A call: a write, or a query for the instances of a service. -/
inductive Call
  | write (w : Write)
  | discover (name : String)
  deriving DecidableEq, Repr

/-- What a call did here. -/
inductive Outcome
  | registered (x : Instance)
  | refreshed (x : Instance)
  | beaten (x : Instance)
  | removed (x : Instance)
  | found (xs : List Instance)
  deriving DecidableEq, Repr

/-- The master's answer, passed on unread. -/
structure Relayed where
  status : Nat
  body : Text.Octets
  deriving DecidableEq, Repr

/-- An answer made here, or the master's. -/
inductive Routed (α : Type)
  | here (a : α)
  | relayed (r : Relayed)
  deriving DecidableEq, Repr

/-- What is asked of the cluster without waiting for it. -/
inductive Order
  | replicate (c : Change)
  | checkMaster
  deriving DecidableEq, Repr

/-- Where a call stands after a turn. -/
inductive Stage
  /-- The master is asked to carry out a write. -/
  | forwarding (c : Change)
  /-- The master is asked for instances; so many attempts remain. -/
  | asking (name : String) (left : Nat)
  /-- The grace period runs; so many attempts remain. -/
  | resting (name : String) (left : Nat)
  | done (result : Except RegistryError (Routed Outcome))

/-- The most turns a call at this stage still takes. -/
def Stage.turnsLeft : Stage → Nat
  | .done _ => 0
  | .forwarding _ => 1
  | .resting _ left => 2 * left + 1
  | .asking _ left => 2 * left + 2

/-- The table and the counters of a node. -/
structure Service where
  store : Store := {}
  counters : Counters := {}
  deriving DecidableEq, Repr

/-- What a turn leaves. -/
structure Turn where
  service : Service
  orders : List Order := []
  stage : Stage

/-- How often a query is put to the master before it is given up. -/
def discoveryAttempts : Nat := 2

namespace Service

/-- Counts. -/
def count (s : Service) (k : Counter) : Service := { s with counters := s.counters.bump k }

/-- Ends a call without having done anything. -/
def fail (s : Service) (e : RegistryError) : Turn := ⟨s, [], .done (.error e)⟩

/-! ## On the master -/

/-- A write carried out on the table: what it did, and the table after it. -/
def writeStore (now : Int64) (w : Write) (s : Store) : Except RegistryError Outcome × Store :=
  match w with
  | .register x =>
    match s.register now x with
    | (.ok (.registered y), s) => (.ok (.registered y), s)
    | (.ok (.refreshed y), s) => (.ok (.refreshed y), s)
    | (.error e, s) => (.error e, s)
  | .heartbeat c =>
    match s.heartbeat now c with
    | (.ok y, s) => (.ok (.beaten y), s)
    | (.error e, s) => (.error e, s)
  | .unregister c =>
    match s.unregister c with
    | (.ok y, s) => (.ok (.removed y), s)
    | (.error e, s) => (.error e, s)

/-- What a write that succeeded here counts as, and the record it is replicated with. -/
def credit : Outcome → Option (Counter × Instance)
  | .registered x => some (.registrations, x)
  | .refreshed x => some (.heartbeats, x)
  | .beaten x => some (.heartbeats, x)
  | .removed x => some (.unregistrations, x)
  | .found _ => none

/-- A write on the master: counted and replicated when it succeeds. -/
def writeHere (now : Int64) (w : Write) (s : Service) : Turn :=
  match writeStore now w s.store with
  | (.error e, store) => { s with store }.fail e
  | (.ok o, store) =>
    let s := { s with store }
    match credit o with
    | some (k, x) => ⟨s.count k, [.replicate ⟨w.kind, x⟩], .done (.ok (.here o))⟩
    | none => ⟨s, [], .done (.ok (.here o))⟩

/-- A query on the master: counted when it succeeds. -/
def discoverHere (name : String) (s : Service) : Turn :=
  match s.store.discover name with
  | (.error e, store) => { s with store }.fail e
  | (.ok xs, store) => ⟨{ s with store }.count .discoveries, [], .done (.ok (.here (.found xs)))⟩

/-! ## Turns -/

/-- A query with so many attempts left. -/
def seek (isMaster : Bool) (name : String) (left : Nat) (s : Service) : Turn :=
  if isMaster then s.discoverHere name
  else match left with
    | 0 => s.fail (.unavailable "no reachable master")
    | left + 1 => ⟨s.count .forwardedRequests, [], .asking name left⟩

/-- A call begins. -/
def begin (isMaster : Bool) (now : Int64) (c : Call) (s : Service) : Turn :=
  match c with
  | .write w =>
    match w.check with
    | .error e => s.fail e
    | .ok () =>
      if isMaster then s.writeHere now w
      else ⟨s.count .forwardedRequests, [], .forwarding ⟨w.kind, w.body⟩⟩
  | .discover name => s.seek isMaster name discoveryAttempts

/-- The master's reply arrives, or the attempt to reach it has failed. -/
def hear (stage : Stage) (reply : Except RegistryError Relayed) (s : Service) : Turn :=
  match stage, reply with
  | .forwarding _, .ok r => ⟨s, [], .done (.ok (.relayed r))⟩
  | .forwarding _, .error e =>
    ⟨s.count .forwardFailures, [.checkMaster],
      .done (.error (.unavailable s!"master unreachable: {e.message}"))⟩
  | .asking _ _, .ok r => ⟨s, [], .done (.ok (.relayed r))⟩
  | .asking name left, .error _ => ⟨s.count .forwardFailures, [.checkMaster], .resting name left⟩
  | stage, _ => ⟨s, [], stage⟩

/-- The grace period has passed. -/
def wake (isMaster : Bool) (stage : Stage) (s : Service) : Turn :=
  match stage with
  | .resting name left => s.seek isMaster name left
  | stage => ⟨s, [], stage⟩

@[simp] theorem turnsLeft_hear_forwarding (s : Service) (c : Change)
    (reply : Except RegistryError Relayed) :
    (s.hear (.forwarding c) reply).stage.turnsLeft = 0 := by
  cases reply <;> rfl

theorem turnsLeft_hear_asking (s : Service) (name : String) (left : Nat)
    (reply : Except RegistryError Relayed) :
    (s.hear (.asking name left) reply).stage.turnsLeft ≤ 2 * left + 1 := by
  cases reply <;> simp [hear, Stage.turnsLeft]

@[simp] theorem turnsLeft_discoverHere (s : Service) (name : String) :
    (s.discoverHere name).stage.turnsLeft = 0 := by
  unfold discoverHere; split <;> rfl

theorem turnsLeft_wake_resting (s : Service) (isMaster : Bool) (name : String) (left : Nat) :
    (s.wake isMaster (.resting name left)).stage.turnsLeft ≤ 2 * left := by
  unfold wake seek
  cases isMaster
  · cases left <;> simp [fail, Stage.turnsLeft, Nat.mul_add]
  · simp [turnsLeft_discoverHere]

/-! ## Expiry -/

/-- Takes out a record that is expired now; only the master does. -/
def evict (isMaster : Bool) (now : Int64) (timeout : UInt64) (id : String) (s : Service) :
    Bool × Service × List Order :=
  if !isMaster then (false, s, [])
  else match s.store.removeIfExpired id now timeout with
    | (some x, store) =>
      (true, { s with store }.count .expiredInstances, [.replicate ⟨.unregister, x⟩])
    | (none, store) => (false, { s with store }, [])

/-- Evicts one record after another; counts those that went. -/
def evictAll (isMaster : Bool) (now : Int64) (timeout : UInt64) :
    List Instance → Service → Nat × Service × List Order
  | [], s => (0, s, [])
  | x :: xs, s =>
    let (gone, s, orders) := s.evict isMaster now timeout x.id
    let (n, s, more) := evictAll isMaster now timeout xs s
    (n + gone.toNat, s, orders ++ more)

/-- Finds the expired records and evicts them; only the master does. -/
def sweep (isMaster : Bool) (now : Int64) (timeout : UInt64) (s : Service) :
    Nat × Service × List Order :=
  if !isMaster then (0, s, [])
  else evictAll isMaster now timeout (s.store.expired now timeout) s

end Service

end ServiceRegistry
