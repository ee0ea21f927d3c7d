/-
  What a coordinator does in the background.

  A task runs in turns.  A turn never waits; it ends with the task over or waiting: for the
  reply to a call, for the end of another failover, or for the settle time to pass.  Between two
  turns anything may happen to the node.

    * `Member.start`, `check`      how the coordinator's tasks begin;
    * `Member.enter`               a failover that has its turn;
    * `Member.hear`                the turn after a reply;
    * `Task.call`                the call whose reply a task waits for.
-/
import ServiceRegistry.Coordinator.Basic
import ServiceRegistry.Peer

namespace ServiceRegistry

/-- A task, where it stands. -/
inductive Task
  /-- At the start: is this peer up?  The others come after it. -/
  | seekPeer (peer : String) (rest : List String)
  /-- At the start: does the node itself answer? -/
  | seekSelf (self : String)
  /-- A check of the master is due. -/
  | check
  /-- Is the master up? -/
  | probeMaster (master : String)
  /-- A failover from this master waits for its turn. -/
  | awaitTurn (failed : Option String)
  /-- In a failover: is this candidate up?  The others come after it. -/
  | scan (failed : Option String) (candidate : String) (rest : List String)
  /-- After a promotion: does the previous master still answer? -/
  | greet (previous : String)
  /-- The settle time runs before everything is pulled from the master. -/
  | settle (master : String)
  /-- Pulls the instances of a master, then its cursors. -/
  | pull (master : String)
  /-- Pulls the cursors of a master. -/
  | pullCursors (master : String)
  /-- Pushes a change to a peer. -/
  | push (peer : String) (c : Change)
  deriving DecidableEq, Repr

/-- The call whose reply a task waits for. -/
def Task.call : Task → Option PeerCall
  | .seekPeer peer _ => some (.probe peer)
  | .seekSelf self => some (.probe self)
  | .probeMaster master => some (.probe master)
  | .scan _ candidate _ => some (.probe candidate)
  | .greet previous => some (.probe previous)
  | .pull master => some (.discovery master "")
  | .pullCursors master => some (.cursors master)
  | .push peer c => some (.push peer c)
  | .check | .awaitTurn _ | .settle _ => none

/-- What a turn leaves: the node, what it announces, tasks that begin, and how the task goes
    on, if it does. -/
structure Progress where
  member : Member
  events : List ClusterEvent := []
  begun : List Task := []
  next : Option Task := none

namespace Member

/-! ## Moving the pointer -/

/-- Points at a master. -/
def point (m : Member) (master : Option String) : Member :=
  { m with coordinator := { m.coordinator with master } }

/-- Ends a failover. -/
def release (m : Member) : Member :=
  { m with coordinator := { m.coordinator with failingOver := false } }

/-- The start is over: the node points at this master. -/
def settleOn (m : Member) (master : String) : Progress :=
  let m := { m with coordinator := { m.coordinator with master := some master, started := true } }
  if m.coordinator.membership.isSelf master then { member := m, events := [.becameMaster] }
  else { member := m, events := [.masterChanged master], begun := [.settle master] }

/-- The node makes itself master. -/
def promote (m : Member) (previous : Option String) : Progress where
  member := ((m.point (some m.coordinator.self)).count .failovers).release
  events := [.becameMaster]
  begun := (previous.map Task.greet).toList

/-- The node follows another master. -/
def follow (m : Member) (master : String) : Progress where
  member := ((m.point (some master)).count .failovers).release
  events := [.masterChanged master]
  begun := [.pull master]

/-! ## Start -/

/-- Asks the peers one after the other, and the node itself after them. -/
def seek (m : Member) : List String → Progress
  | [] => { member := m, next := some (.seekSelf m.coordinator.self) }
  | peer :: rest => { member := m, next := some (.seekPeer peer rest) }

/-- The coordinator starts. -/
def start (m : Member) : Progress := m.seek m.coordinator.membership.peers

/-! ## Checks and failovers -/

/-- Checks the master; a master checks nothing. -/
def check (m : Member) : Progress :=
  if !m.coordinator.started then { member := m }
  else match m.coordinator.master with
    | none => { member := m, next := some (.awaitTurn none) }
    | some master =>
      if m.coordinator.membership.isSelf master then { member := m }
      else { member := m, next := some (.probeMaster master) }

/-- Goes through the candidates after a failed master: the first one that is the node itself or
    answers is the new master. -/
def scan (m : Member) (failed : Option String) : List String → Progress
  | [] => { member := (m.point none).release }
  | candidate :: rest =>
    if m.coordinator.membership.isSelf candidate then m.promote failed
    else { member := m, next := some (.scan failed candidate rest) }

/-- A failover has its turn; nothing is left to do when the pointer has moved meanwhile. -/
def enter (m : Member) (failed : Option String) : Progress :=
  if m.coordinator.master ≠ failed then { member := m }
  else
    let order := m.coordinator.membership.failoverOrder (failed.getD "")
    { m with coordinator := { m.coordinator with failingOver := true } }.scan failed order

/-! ## Turns -/

/-- The turn of a task that waits for no reply, if it can be had now. -/
def run (m : Member) : Task → Option Progress
  | .check => some m.check
  | .awaitTurn failed => if m.coordinator.failingOver then none else some (m.enter failed)
  | _ => none

/-- The turn after the reply to a task's call. -/
def hear (now : Int64) (e : Task) (reply : Option Relayed) (m : Member) : Progress :=
  match e with
  | .seekPeer peer rest => if healthy reply then m.settleOn peer else m.seek rest
  | .seekSelf self =>
    m.settleOn (if healthy reply then self else m.coordinator.membership.fallback)
  | .probeMaster master =>
    if healthy reply then { member := m }
    else { member := m, next := some (.awaitTurn (some master)) }
  | .scan failed candidate rest =>
    if healthy reply then m.follow candidate else m.scan failed rest
  | .greet previous =>
    if healthy reply then { member := m, next := some (.pullCursors previous) } else { member := m }
  | .pull master =>
    { member := match instancesIn reply with
        | some xs => m.absorb now xs
        | none => m
      next := some (.pullCursors master) }
  | .pullCursors _ =>
    { member := match cursorsIn reply with
        | some cursors => m.adopt cursors
        | none => m }
  | .push _ _ => { member := if accepted reply then m else m.count .replicationFailures }
  | .check | .awaitTurn _ | .settle _ => { member := m, next := some e }

/-- The settle time of a task has passed. -/
def settled (m : Member) : Task → Progress
  | .settle master => { member := m, next := some (.pull master) }
  | e => { member := m, next := some e }

/-! ## Orders of the service -/

/-- The tasks that carry out an order: one push to every peer, or a check of the master. -/
def tasksOf (m : Member) : Order → List Task
  | .replicate c => m.coordinator.membership.peers.map fun peer => .push peer c
  | .checkMaster => [.check]

end Member

end ServiceRegistry
