/-
  The settings of a node as JSON.

    * `NodeSettings.value`, `NodeSettings.decoder`.
-/
import ServiceRegistry.Json.Decoder
import ServiceRegistry.Settings.Basic

namespace ServiceRegistry

open Json

/-! ## Writing -/

/-- The timing as JSON. -/
def HeartbeatSettings.value (h : HeartbeatSettings) : Value :=
  .object [("timeout_seconds", .nat h.timeoutSeconds.toNat),
    ("cleanup_interval", .nat h.cleanupInterval.toNat),
    ("cluster_check_interval", .nat h.clusterCheckInterval.toNat)]

/-- The settings as JSON. -/
def NodeSettings.value (s : NodeSettings) : Value :=
  .object [("port", .nat s.port.toNat), ("bind_host", .string s.bindHost),
    ("instance_id", .string s.instanceId), ("node_addr", .orNull (s.nodeAddress.map .string)),
    ("cluster", .array (s.cluster.map .string)),
    ("default_master", .orNull (s.defaultMaster.map .string)), ("heartbeat", s.heartbeat.value)]

/-! ## Reading -/

/-- Timing of which only some fields are known. -/
structure HeartbeatSettings.Draft where
  timeoutSeconds : Option UInt64 := none
  cleanupInterval : Option UInt64 := none
  clusterCheckInterval : Option UInt64 := none

/-- The timing, with defaults where nothing is known. -/
def HeartbeatSettings.Draft.complete (d : Draft) : HeartbeatSettings :=
  let preset : HeartbeatSettings := {}
  { timeoutSeconds := d.timeoutSeconds.getD preset.timeoutSeconds
    cleanupInterval := d.cleanupInterval.getD preset.cleanupInterval
    clusterCheckInterval := d.clusterCheckInterval.getD preset.clusterCheckInterval }

/-- Reads timing. -/
def HeartbeatSettings.decoder : Decoder HeartbeatSettings :=
  .record
    [.of "timeout_seconds" (·.timeoutSeconds) (fun d x => { d with timeoutSeconds := some x })
        Decoder.word64,
      .of "cleanup_interval" (·.cleanupInterval) (fun d x => { d with cleanupInterval := some x })
        Decoder.word64,
      .of "cluster_check_interval" (·.clusterCheckInterval)
        (fun d x => { d with clusterCheckInterval := some x }) Decoder.word64]
    0 ({} : HeartbeatSettings.Draft) fun d => some d.complete

/-- Settings of which only some fields are known. -/
structure NodeSettings.Draft where
  port : Option UInt16 := none
  bindHost : Option String := none
  instanceId : Option String := none
  nodeAddress : Option (Option String) := none
  cluster : Option (List String) := none
  defaultMaster : Option (Option String) := none
  heartbeat : Option HeartbeatSettings := none

/-- The settings, with defaults where nothing is known. -/
def NodeSettings.Draft.complete (d : Draft) : NodeSettings :=
  let preset : NodeSettings := {}
  { port := d.port.getD preset.port
    bindHost := d.bindHost.getD preset.bindHost
    instanceId := d.instanceId.getD preset.instanceId
    nodeAddress := d.nodeAddress.getD preset.nodeAddress
    cluster := d.cluster.getD preset.cluster
    defaultMaster := d.defaultMaster.getD preset.defaultMaster
    heartbeat := d.heartbeat.getD preset.heartbeat }

/-- Reads the settings of a node. -/
def NodeSettings.decoder : Decoder NodeSettings :=
  .record
    [.of "port" (·.port) (fun d x => { d with port := some x }) Decoder.word16,
      .of "bind_host" (·.bindHost) (fun d x => { d with bindHost := some x }) Decoder.text,
      .of "instance_id" (·.instanceId) (fun d x => { d with instanceId := some x }) Decoder.text,
      .of "node_addr" (·.nodeAddress) (fun d x => { d with nodeAddress := some x })
        Decoder.text.nullable,
      .of "cluster" (·.cluster) (fun d x => { d with cluster := some x }) Decoder.text.list,
      .of "default_master" (·.defaultMaster) (fun d x => { d with defaultMaster := some x })
        Decoder.text.nullable,
      .of "heartbeat" (·.heartbeat) (fun d x => { d with heartbeat := some x })
        HeartbeatSettings.decoder]
    0 ({} : NodeSettings.Draft) fun d => some d.complete

end ServiceRegistry
