/-
  The settings of a node.

  Everything has a default.  The address of a node is the one given, or made of its name and port; a
  node without a list of candidates is a cluster of one.

    * `NodeSettings.validate`     what a node refuses to run with;
    * `NodeSettings.membership`   what the node knows of its cluster;
    * `NodeSettings.bindAddress`  where it listens.
-/
import ServiceRegistry.Error
import ServiceRegistry.Membership
import ServiceRegistry.SocketAddress

namespace ServiceRegistry

open Text

/-- Timing, in seconds. -/
structure HeartbeatSettings where
  /-- Records silent for longer than this expire. -/
  timeoutSeconds : UInt64 := 60
  /-- The time between sweeps. -/
  cleanupInterval : UInt64 := 10
  /-- The time between checks of the master. -/
  clusterCheckInterval : UInt64 := 10
  deriving DecidableEq, Repr

/-- The settings of a node. -/
structure NodeSettings where
  port : UInt16 := 8180
  bindHost : String := "0.0.0.0"
  instanceId : String := "registry-1"
  nodeAddress : Option String := none
  cluster : List String := []
  defaultMaster : Option String := none
  heartbeat : HeartbeatSettings := {}
  deriving DecidableEq, Repr

/-- All settings. -/
structure Settings where
  node : NodeSettings := {}
  logLevel : String := "info"
  deriving DecidableEq, Repr

namespace NodeSettings

/-- The first thing a node refuses to run with. -/
def validate (s : NodeSettings) : Except RegistryError Unit :=
  let positive (name : String) : RegistryError := .invalidConfig s!"heartbeat.{name} must be > 0"
  if s.heartbeat.timeoutSeconds = 0 then .error (positive "timeout_seconds")
  else if s.heartbeat.cleanupInterval = 0 then .error (positive "cleanup_interval")
  else if s.heartbeat.clusterCheckInterval = 0 then .error (positive "cluster_check_interval")
  else if s.nodeAddress.any fun a => (trim a.toList).isEmpty then
    .error (.invalidConfig "node_addr is empty")
  else .ok ()

/-- The port in decimal. -/
def portText (s : NodeSettings) : String := String.ofList (digits s.port.toNat)

/-- The node's own address. -/
def selfAddress (s : NodeSettings) : String :=
  match s.nodeAddress with
  | some a => normalizeAddress a
  | none => s!"http://{s.instanceId}:{s.portText}"

/-- The candidates in the order of their priority. -/
def candidates (s : NodeSettings) : List String :=
  if s.cluster.isEmpty then [s.selfAddress] else s.cluster.map normalizeAddress

/-- The master when nobody answers at the start: the default one, or the first candidate. -/
def fallbackMaster (s : NodeSettings) : String :=
  match s.defaultMaster with
  | some a => normalizeAddress a
  | none => s.candidates.headD s.selfAddress

/-- What the node knows of its cluster. -/
def membership (s : NodeSettings) : Membership :=
  .of s.selfAddress s.candidates s.fallbackMaster

/-- Where the node listens. -/
def bindAddress (s : NodeSettings) : Except RegistryError SocketAddress :=
  match SocketAddress.parse? s!"{s.bindHost}:{s.portText}".toList with
  | some a => .ok a
  | none => .error (.invalidConfig "bind address: invalid socket address syntax")

end NodeSettings

end ServiceRegistry
