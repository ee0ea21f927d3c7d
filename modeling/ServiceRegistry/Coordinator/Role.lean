/-
  Roles, and how changes of role are announced.
-/

namespace ServiceRegistry

/-- The role of a node, as the node itself sees it. -/
inductive Role
  | initializing
  | slave
  | master
  deriving DecidableEq, Repr

/-- The name of a role. -/
def Role.name : Role → String
  | .initializing => "initializing"
  | .slave => "slave"
  | .master => "master"

/-- A change of the master, as a node announces it. -/
inductive ClusterEvent
  | becameMaster
  | masterChanged (master : String)
  deriving DecidableEq, Repr

end ServiceRegistry
