/-
  What can be done to a network.

  Every step ends with the network at rest.

    * `start`, `startBare`, `stop`, `script`, `tick`   nodes come and go, time passes;
    * `request`                                        a client asks a node;
    * `check`, `failover`, `fullSync`, `replicate`     the background work of a coordinator;
    * `sync`, `forward`, `evict`                       single operations of a node.
-/
import ServiceRegistry.Network.Run

namespace ServiceRegistry.Network

open Http

/-- Forgets what arrived and what was announced. -/
def forget (n : Network) : Network :=
  { n with arrivals := [], nodes := n.nodes.map fun (a, r) => (a, { r with announced := [] }) }

/-! ## Nodes -/

/-- Adds a node in the place of another at the same address. -/
def add (address : String) (r : Running) (n : Network) : Network :=
  { n with nodes := n.nodes.filter (·.1 ≠ address) ++ [(address, r)] }

/-- Starts a node.  Nobody is there yet to hear what it announces meanwhile. -/
def start (settings : NodeSettings) (settleTime : Nat) (n : Network) : Network :=
  let address := settings.membership.self
  let n := ((n.add address (.of settings n.timer settleTime false)).startCoordinator address).rest
  n.modify address fun r => { r with announced := [] }

/-- Makes a node without starting it. -/
def startBare (settings : NodeSettings) (settleTime : Nat) (n : Network) : Network :=
  n.add settings.membership.self (.of settings n.timer settleTime true)

/-- Stops a node. -/
def stop (address : String) (n : Network) : Network :=
  { n with nodes := n.nodes.filter (·.1 ≠ address) }

/-- Puts a scripted peer at an address. -/
def script (address : String) (routes : Routes) (n : Network) : Network :=
  { n with peers := (n.peers.filter (·.1 ≠ address)) ++ [(address, routes)] }

/-! ## Time -/

/-- What is due at a node: at most one check of the master, and the tasks that slept enough. -/
def dueAt (timer : Nat) (r : Running) : Running × List Task :=
  let checkDue := r.nextCheck.any (· ≤ timer)
  let awake := (r.sleeping.filter (·.1 ≤ timer)).map (·.2)
  ({ r with
      nextCheck := if checkDue then some (timer + r.checkPeriod) else r.nextCheck
      sleeping := r.sleeping.filter (timer < ·.1) },
    (if checkDue then [.check] else []) ++ awake.filterMap fun e => (r.member.settled e).next)

/-- The timer moves in one jump. -/
def tick (ms : Nat) (n : Network) : Network :=
  let timer := n.timer + ms
  let advance (x : String × Running) : String × Running := (x.1, (dueAt timer x.2).1)
  let due (x : String × Running) : List (String × Task) :=
    (dueAt timer x.2).2.map fun e => (x.1, e)
  { n with timer, nodes := n.nodes.map advance, queue := n.queue ++ n.nodes.flatMap due }.rest

/-! ## Requests and tasks -/

/-- A client asks a node. -/
def request (address : String) (r : Request) (n : Network) : Option Response × Network :=
  match n.node? address with
  | none => (none, n)
  | some running =>
    let (answer, n) := n.attend fuel address ((Node.member running.member).receive n.now 0 r)
    (answer, n.rest)

/-- A client calls an address over the network, if a request can be made to it. -/
def call (address : String) (r : Request) (body : Option Json.Value) (n : Network) :
    Option Relayed × Network :=
  let url := Url.parse? (address ++ r.target).toList
  let (reply, n) := if url.any (·.isRequestable) then n.send fuel address r body else (none, n)
  (reply, n.rest)

/-- A task of a node, begun and brought to its end. -/
def task (address : String) (e : Task) (n : Network) : Network := (n.enqueue address [e]).rest

/-- A node checks its master. -/
def check (address : String) (n : Network) : Network := n.task address .check

/-- A node fails over from a master. -/
def failover (address : String) (failed : Option String) (n : Network) : Network :=
  n.task address (.awaitTurn failed)

/-- A node pulls everything from a master. -/
def fullSync (address master : String) (n : Network) : Network := n.task address (.pull master)

/-- A node pushes a change to all its peers. -/
def replicate (address : String) (c : Change) (n : Network) : Network :=
  match n.node? address with
  | none => n
  | some r => (n.onMember address r.member [.replicate c]).rest

/-! ## Single operations -/

/-- A node takes over a pushed change. -/
def sync (address : String) (c : Change) (n : Network) :
    Option (Except RegistryError Unit) × Network :=
  match n.node? address with
  | none => (none, n)
  | some r =>
    let (result, m) := r.member.handleSync n.now c
    (some result, n.onMember address m [])

/-- A node forwards a call to its master. -/
def forward (address : String) (toMaster : String → PeerCall) (n : Network) :
    Option (Except RegistryError Relayed) × Network :=
  match n.node? address with
  | none => (none, n)
  | some r =>
    match r.member.forwardTo with
    | .error e => (some (.error e), n)
    | .ok master =>
      let (reply, n) := n.deliver fuel (toMaster master)
      (some ((toMaster master).relayed reply), n.rest)

/-- A node evicts a record if it is expired. -/
def evict (address : String) (timeout : UInt64) (id : String) (n : Network) :
    Option Bool × Network :=
  match n.node? address with
  | none => (none, n)
  | some r =>
    let (gone, service, orders) := r.member.service.evict r.member.isMaster n.now timeout id
    (some gone, (n.onMember address { r.member with service } orders).rest)

end ServiceRegistry.Network
