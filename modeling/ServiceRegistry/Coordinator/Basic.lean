/-
  The coordinator of a node.

  There is no vote: each node keeps a pointer to the master, and its role is what the pointer says.
  The pointer is set when the node has started, and moves in failovers, one at a time.

    * `Coordinator.role`    the role the pointer gives;
    * `Member`              a coordinator with the service beside it;
    * `Member.handleSync`   a change pushed by another node;
    * `Member.absorb`, `adopt`   what is taken over from a pulled snapshot.
-/
import ServiceRegistry.Coordinator.Role
import ServiceRegistry.Membership
import ServiceRegistry.Service.Basic

namespace ServiceRegistry

/-- What a node knows of its cluster: the candidates, the master it points at, whether it has
    started, and whether a failover is under way. -/
structure Coordinator where
  membership : Membership
  master : Option String := none
  started : Bool := false
  failingOver : Bool := false
  deriving DecidableEq, Repr

namespace Coordinator

/-- The address of the node itself. -/
def self (c : Coordinator) : String := c.membership.self

/-- The role of the node. -/
def role (c : Coordinator) : Role :=
  if !c.started then .initializing
  else if c.master.any c.membership.isSelf then .master
  else .slave

/-- Whether the node is master. -/
def isMaster (c : Coordinator) : Bool := c.role = .master

/-- The master as a caller is told of it. -/
def masterName (c : Coordinator) : String := c.master.getD "unresolved"

end Coordinator

/-- A node of a cluster: its coordinator and its service. -/
structure Member where
  coordinator : Coordinator
  service : Service := {}
  deriving DecidableEq, Repr

namespace Member

/-- Whether the node is master. -/
def isMaster (m : Member) : Bool := m.coordinator.isMaster

/-- The table of the node. -/
def store (m : Member) : Store := m.service.store

/-- The node with another table. -/
def withStore (m : Member) (store : Store) : Member :=
  { m with service := { m.service with store } }

/-- Counts. -/
def count (m : Member) (k : Counter) : Member := { m with service := m.service.count k }

/-! ## What other nodes ask for -/

/-- Takes over a change that another node pushes; a master takes none. -/
def handleSync (now : Int64) (c : Change) (m : Member) : Except RegistryError Unit × Member :=
  if m.isMaster then
    (.error (.internal s!"{m.coordinator.self} is master and does not accept pushed syncs"), m)
  else
    let (result, store) := m.store.apply now c
    (result, m.withStore store)

/-- The cursors, which only a master gives away. -/
def cursors (m : Member) : Except RegistryError Cursors :=
  if m.isMaster then .ok m.store.cursors else .error (.notMaster m.coordinator.masterName)

/-- The master that calls are forwarded to. -/
def forwardTo (m : Member) : Except RegistryError String :=
  match m.coordinator.master with
  | some a => .ok a
  | none => .error (.unavailable "master is unresolved")

/-! ## What is pulled from the master -/

/-- Whether a pulled record has both its timestamps. -/
def isStamped (x : Instance) : Bool := 0 < x.registered.secs && 0 < x.heartbeat.secs

/-- Takes over the records of a snapshot one by one; those without timestamps, or without an id, are
    passed over. -/
def absorb (now : Int64) (xs : List Instance) (m : Member) : Member :=
  m.withStore ((xs.filter isStamped).foldl (fun s x => (s.merge now x).2) m.store)

/-- Takes over cursors. -/
def adopt (cursors : List (String × Int64)) (m : Member) : Member :=
  m.withStore (m.store.adopt cursors).2

end Member

end ServiceRegistry
