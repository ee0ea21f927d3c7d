/-
  Nodes on a network.

  A network holds running nodes and scripted peers by address, a wall clock that all share, a timer
  in milliseconds, and a queue of tasks.  A scripted peer has fixed answers by path.  The link may
  be down: then no call arrives anywhere.

    * `Running`           a node as it runs: its member, its timers, what it has announced;
    * `Network.progress`  what a task's turn changes;
    * `Network.onMember`  what anything else changes.
-/
import ServiceRegistry.Node
import ServiceRegistry.Service.Sweeper
import ServiceRegistry.Settings.Basic

namespace ServiceRegistry

/-! ## Nodes -/

/-- A node as it runs.  Times are in milliseconds. -/
structure Running where
  member : Member
  /-- Whether other nodes reach it. -/
  listening : Bool
  /-- The time between checks of the master, and when the next is due, once they have begun. -/
  checkPeriod : Nat
  nextCheck : Option Nat := none
  sweeper : Option Sweeper := none
  /-- The time between the start and the first full sync. -/
  settleTime : Nat := 0
  /-- Tasks that wait for the timer. -/
  sleeping : List (Nat × Task) := []
  /-- Events since the step began, and those the sweeper has not received yet. -/
  announced : List ClusterEvent := []
  unheard : List ClusterEvent := []

/-- How many events the sweeper of a node may fall behind. -/
def nodeChannelCapacity : Nat := 16

namespace Running

/-- A node with these settings that has done nothing yet.  A bare one is a member alone: nobody
    reaches it, and nothing sweeps. -/
def of (settings : NodeSettings) (timer settleTime : Nat) (bare : Bool) : Running where
  member := { coordinator := { membership := settings.membership } }
  listening := !bare
  checkPeriod := settings.heartbeat.clusterCheckInterval.toNat * 1000
  sweeper :=
    if bare then none
    else some (.spawn settings.heartbeat.timeoutSeconds
      (settings.heartbeat.cleanupInterval.toNat * 1000) timer true)
  settleTime := settleTime

/-- What the sweeper has to wake up for. -/
def wakeups (r : Running) (timer : Nat) : List Wakeup :=
  match r.sweeper with
  | some s => s.due timer nodeChannelCapacity r.unheard false
  | none => []

/-- The node with its sweeper waiting again. -/
def rested (r : Running) (timer : Nat) : Running :=
  { r with sweeper := r.sweeper.map (·.rest timer false), unheard := [] }

end Running

/-! ## The network -/

/-- Whether calls arrive. -/
inductive Link
  | up
  | down
  deriving DecidableEq, Repr

/-- The answers of a scripted peer by path. -/
abbrev Routes := List (String × Relayed)

/-- A call that arrived at an address, with the status of its answer; none when the connection was
    closed. -/
structure Arrival where
  address : String
  method : String
  target : String
  body : Option Json.Value
  status : Option Nat := none

/-- Nodes and scripted peers on a network. -/
structure Network where
  link : Link
  now : Int64
  timer : Nat := 0
  nodes : List (String × Running) := []
  peers : List (String × Routes) := []
  queue : List (String × Task) := []
  arrivals : List Arrival := []

namespace Network

/-- The node at an address. -/
def node? (n : Network) (address : String) : Option Running :=
  (n.nodes.find? (·.1 = address)).map (·.2)

/-- Changes the node at an address. -/
def modify (address : String) (f : Running → Running) (n : Network) : Network :=
  { n with nodes := n.nodes.map fun (a, r) => if a = address then (a, f r) else (a, r) }

/-- Puts a task of the node at an address at the end of the queue. -/
def enqueue (address : String) (tasks : List Task) (n : Network) : Network :=
  { n with queue := n.queue ++ tasks.map fun e => (address, e) }

/-- Lets the member at an address change, and puts its orders into the queue. -/
def onMember (address : String) (m : Member) (orders : List Order) (n : Network) : Network :=
  (n.modify address fun r => { r with member := m }).enqueue address (orders.flatMap m.tasksOf)

/-- Where a task goes that begins or goes on: to sleep for the settle time, or into the queue. -/
def begin (address : String) (e : Task) (n : Network) : Network :=
  match e, n.node? address with
  | .settle master, some r =>
    if r.settleTime = 0 then n.enqueue address [.pull master]
    else n.modify address fun r =>
      { r with sleeping := r.sleeping ++ [(n.timer + r.settleTime, e)] }
  | _, _ => n.enqueue address [e]

/-- What the turn of a task changes. -/
def progress (address : String) (p : Progress) (n : Network) : Network :=
  let n := n.modify address fun r =>
    { r with
      member := p.member
      announced := r.announced ++ p.events
      unheard := r.unheard ++ if r.sweeper.isSome then p.events else [] }
  (p.begun ++ p.next.toList).foldl (fun n e => n.begin address e) n

/-- A node starts its coordinator; checks of the master begin with it. -/
def startCoordinator (address : String) (n : Network) : Network :=
  match n.node? address with
  | none => n
  | some r =>
    let n := n.modify address fun r => { r with nextCheck := some (n.timer + r.checkPeriod) }
    n.progress address r.member.start

end Network

end ServiceRegistry
