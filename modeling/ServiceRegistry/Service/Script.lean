/-
  A service in front of a scripted cluster.

  The cluster is played from a script: whether the node is master is a flag, replies to forwarded
  calls are queued in advance, and a number of master checks makes the node master.  The standalone
  node is the other kind of cluster: always master, with nobody to forward to.  Waits pass at once.

    * `Rehearsal.call`   a call from its beginning to its end;
    * `Rehearsal.evict`, `sweep`, `spawnSweeper`, `advance`, `send`, `closeEvents`   what the node
                         does on its own;
    * `Rehearsal.log`    what the cluster was asked, in order.
-/
import ServiceRegistry.Service.Sweeper

namespace ServiceRegistry

/-! ## Surroundings -/

/-- What a script is asked. -/
inductive Asked
  | replicate (c : Change)
  | forwardWrite (c : Change)
  | forwardDiscovery (name : String)
  | check
  deriving DecidableEq, Repr

/-- An order as it is asked. -/
def Order.asked : Order → Asked
  | .replicate c => .replicate c
  | .checkMaster => .check

/-- A cluster played from a script.  After `checksToPromote` master checks, if not zero, the node
    becomes master. -/
structure Script where
  isMaster : Bool := false
  replies : List (Except RegistryError Relayed) := []
  checksToPromote : Nat := 0

/-- What a service has around it. -/
inductive Surroundings
  | standalone
  | scripted (s : Script)

/-- Why a standalone node does not forward. -/
def noMaster : RegistryError := .internal "standalone node has no master to forward to"

namespace Surroundings

/-- Whether the node is master. -/
def isMaster : Surroundings → Bool
  | .standalone => true
  | .scripted s => s.isMaster

/-- The next reply to a forwarded call; a refused connection when none is queued. -/
def reply : Surroundings → Except RegistryError Relayed × Surroundings
  | .standalone => (.error noMaster, .standalone)
  | .scripted s =>
    match s.replies with
    | [] => (.error (.peer "http://master" "connection refused"), .scripted s)
    | r :: rs => (r, .scripted { s with replies := rs })

/-- What of this goes into the log: a standalone node asks nobody. -/
def told (c : Surroundings) (a : Asked) : List Asked :=
  match c with
  | .standalone => []
  | .scripted _ => [a]

/-- Carries out an order. -/
def carryOut : Order → Surroundings → Surroundings
  | .checkMaster, .scripted s =>
    .scripted { s with
      checksToPromote := s.checksToPromote - 1
      isMaster := s.isMaster || s.checksToPromote = 1 }
  | _, c => c

/-- Carries out orders one after the other, and tells what was asked. -/
def obey : List Order → Surroundings → Surroundings × List Asked
  | [], c => (c, [])
  | o :: os, c =>
    let (after, log) := obey os (c.carryOut o)
    (after, c.told o.asked ++ log)

/-- Changes the script, if there is one. -/
def withScript (f : Script → Script) : Surroundings → Surroundings
  | .standalone => .standalone
  | .scripted s => .scripted (f s)

end Surroundings

/-! ## The rehearsal -/

/-- A service with its cluster, its sweepers and the reading of the timer in milliseconds. -/
structure Rehearsal where
  service : Service := {}
  surroundings : Surroundings
  sweepers : List Sweeper := []
  timer : Nat := 0
  log : List Asked := []

namespace Rehearsal

/-- How many events a listener may fall behind. -/
def channelCapacity : Nat := 4

/-- Takes over a service, and carries out its orders. -/
def took (r : Rehearsal) (service : Service) (orders : List Order) : Rehearsal :=
  let (surroundings, log) := r.surroundings.obey orders
  { r with service, surroundings, log := r.log ++ log }

/-- Asks the cluster for a reply. -/
def ask (r : Rehearsal) (a : Asked) : Except RegistryError Relayed × Rehearsal :=
  let (reply, surroundings) := r.surroundings.reply
  (reply, { r with surroundings, log := r.log ++ r.surroundings.told a })

/-- The turn after a forwarded call. -/
def hearing (r : Rehearsal) (a : Asked) (stage : Stage) : Turn :=
  (r.ask a).2.service.hear stage (r.ask a).1

/-- Brings a call from a stage to its end. -/
def finish (stage : Stage) (r : Rehearsal) : Except RegistryError (Routed Outcome) × Rehearsal :=
  match stage with
  | .done result => (result, r)
  | .forwarding c =>
    let turn := r.hearing (.forwardWrite c) (.forwarding c)
    finish turn.stage ((r.ask (.forwardWrite c)).2.took turn.service turn.orders)
  | .asking name left =>
    let turn := r.hearing (.forwardDiscovery name) (.asking name left)
    finish turn.stage ((r.ask (.forwardDiscovery name)).2.took turn.service turn.orders)
  | .resting name left =>
    let turn := r.service.wake r.surroundings.isMaster (.resting name left)
    finish turn.stage (r.took turn.service turn.orders)
termination_by stage.turnsLeft
decreasing_by
  · rw [hearing, Service.turnsLeft_hear_forwarding]; exact Nat.one_pos
  · exact Nat.lt_succ_of_le (Service.turnsLeft_hear_asking ..)
  · exact Nat.lt_succ_of_le (Service.turnsLeft_wake_resting ..)

/-- A call from its beginning to its end. -/
def call (now : Int64) (c : Call) (r : Rehearsal) :
    Except RegistryError (Routed Outcome) × Rehearsal :=
  let turn := r.service.begin r.surroundings.isMaster now c
  finish turn.stage (r.took turn.service turn.orders)

/-- Evicts a record if it is expired now. -/
def evict (now : Int64) (timeout : UInt64) (id : String) (r : Rehearsal) : Bool × Rehearsal :=
  let (gone, service, orders) := r.service.evict r.surroundings.isMaster now timeout id
  (gone, r.took service orders)

/-- Sweeps once. -/
def sweep (now : Int64) (timeout : UInt64) (r : Rehearsal) : Nat × Rehearsal :=
  let (n, service, orders) := r.service.sweep r.surroundings.isMaster now timeout
  (n, r.took service orders)

/-! ## Sweepers -/

/-- Lets sweepers run until they wait again. -/
def runSweepers (now : Int64) (sent : List ClusterEvent) (closed : Bool) :
    List Sweeper → Rehearsal → Rehearsal
  | [], r => r
  | s :: ss, r =>
    let (service, orders) := r.service.answerWakeups r.surroundings.isMaster now s.timeout
      (s.due r.timer channelCapacity sent closed)
    let r := runSweepers now sent closed ss (r.took service orders)
    { r with sweepers := s.rest r.timer closed :: r.sweepers }

/-- Lets all sweepers run until they wait again. -/
def settle (now : Int64) (sent : List ClusterEvent) (closed : Bool) (r : Rehearsal) : Rehearsal :=
  runSweepers now sent closed r.sweepers { r with sweepers := [] }

/-- Starts a sweeper. -/
def spawnSweeper (now : Int64) (timeout : UInt64) (period : Nat) (listening : Bool)
    (r : Rehearsal) : Rehearsal :=
  let sweeper := Sweeper.spawn timeout period r.timer listening
  { r with sweepers := r.sweepers ++ [sweeper] }.settle now [] false

/-- Moves the timer in one jump. -/
def advance (now : Int64) (ms : Nat) (r : Rehearsal) : Rehearsal :=
  { r with timer := r.timer + ms }.settle now [] false

/-- Sends events, one after the other before anybody listens. -/
def send (now : Int64) (events : List ClusterEvent) (r : Rehearsal) : Rehearsal :=
  r.settle now events false

/-- Closes the channel of events. -/
def closeEvents (now : Int64) (r : Rehearsal) : Rehearsal := r.settle now [] true

end Rehearsal

end ServiceRegistry
