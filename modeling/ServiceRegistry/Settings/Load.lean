/-
  Loading settings.

  A settings file comes first and the environment is laid over it, key by key.  Keys at the top may
  be paths.  What is not set keeps its default, unknown keys are passed over, and the result
  must be one a node can run with.

    * `SettingsFile.tree?`     the tree of a file, by its extension;
    * `NodeSettings.ofTree?`   typed settings from a tree;
    * `Settings.load`          all of it.
-/
import ServiceRegistry.Json.Decoder
import ServiceRegistry.Settings.Basic
import ServiceRegistry.Settings.Environment
import ServiceRegistry.Settings.Ini
import ServiceRegistry.Settings.Json5
import ServiceRegistry.Settings.Ron
import ServiceRegistry.Settings.Toml
import ServiceRegistry.Settings.Yaml

namespace ServiceRegistry

open Text

/-! ## Typed settings -/

/-- Reads timing. -/
def HeartbeatSettings.ofTree? : Setting → Option HeartbeatSettings :=
  Setting.fill?
    [.of "timeout_seconds" Setting.word? fun s n => { s with timeoutSeconds := UInt64.ofNat n },
      .of "cleanup_interval" Setting.word? fun s n => { s with cleanupInterval := UInt64.ofNat n },
      .of "cluster_check_interval" Setting.word?
        fun s n => { s with clusterCheckInterval := UInt64.ofNat n }]
    {}

/-- Reads the settings of a node. -/
def NodeSettings.ofTree? : Setting → Option NodeSettings :=
  Setting.fill?
    [.of "port" (Setting.unsigned? 65535) fun s n => { s with port := UInt16.ofNat n },
      .of "bind_host" Setting.text? fun s x => { s with bindHost := x },
      .of "instance_id" Setting.text? fun s x => { s with instanceId := x },
      .of "node_addr" (Setting.nullable? Setting.text?) fun s x => { s with nodeAddress := x },
      .of "cluster" Setting.texts? fun s xs => { s with cluster := xs },
      .of "default_master" (Setting.nullable? Setting.text?)
        fun s x => { s with defaultMaster := x },
      .of "heartbeat" HeartbeatSettings.ofTree? fun s h => { s with heartbeat := h }]
    {}

/-- Reads all settings. -/
def Settings.ofTree? : Setting → Option Settings :=
  Setting.fill?
    [.of "registry" NodeSettings.ofTree? fun s n => { s with node := n },
      .of "log_level" Setting.text? fun s x => { s with logLevel := x }]
    {}

/-! ## Files -/

mutual

/-- A JSON value as a tree. -/
def Setting.ofJson : Json.Value → Setting
  | .null => .null
  | .bool b => .bool b
  | .number (.int i) => .int i
  | .number (.real bits) => .real bits
  | .string s => .text s
  | .array vs => .list (itemsOfJson vs)
  | .object ms => .table (membersOfJson ms)

/-- The items of an array. -/
def Setting.itemsOfJson : List Json.Value → List Setting
  | [] => []
  | v :: vs => Setting.ofJson v :: Setting.itemsOfJson vs

/-- The members of an object. -/
def Setting.membersOfJson : List (String × Json.Value) → List (String × Setting)
  | [] => []
  | (k, v) :: ms => (k, Setting.ofJson v) :: Setting.membersOfJson ms

end

/-- A settings file: the extension of its name, and its text, if it could be read. -/
structure SettingsFile where
  extension : String
  text : Option String

/-- The extension of a path: what follows the last dot of its last part, unless the dot leads it. -/
def extensionOf (path : String) : String :=
  let name := ((path.toList.reverse).takeWhile (· ≠ '/')).reverse
  let extension := (name.reverse.takeWhile (· ≠ '.')).reverse
  if extension.length + 1 < name.length then String.ofList extension else ""

/-- The tree of a JSON text. -/
def jsonTree? (cs : List Char) : Option Setting :=
  ((Json.Value.ofText (Octets.ofText cs)).toOption).map Setting.ofJson

/-- How files with an extension are read. -/
def reader? (extension : String) : Option (List Char → Option Setting) :=
  match extension with
  | "yaml" => some Yaml.read?
  | "yml" => some Yaml.read?
  | "toml" => some Toml.read?
  | "ini" => some Ini.read?
  | "json" => some jsonTree?
  | "json5" => some Json5.read?
  | "ron" => some Ron.read?
  | _ => none

/-- Why a file gives no settings. -/
inductive FileFault
  | unknownExtension
  | unreadable
  | malformed
  | noTable
  deriving DecidableEq, Repr

/-- The wording of a fault. -/
def FileFault.reason : FileFault → String
  | .unknownExtension => "the file is not of a known format"
  | .unreadable => "the file cannot be read"
  | .malformed => "the file is malformed"
  | .noTable => "the file holds no table"

/-- A text without the mark of its byte order. -/
def unmarked (cs : List Char) : List Char :=
  match cs with
  | '\uFEFF' :: r => r
  | _ => cs

/-- The members of the table that a file holds. -/
def SettingsFile.members (f : SettingsFile) : Except FileFault (List (String × Setting)) :=
  match reader? f.extension, f.text with
  | none, _ => .error .unknownExtension
  | some _, none => .error .unreadable
  | some read, some text =>
    match read (unmarked text.toList) with
    | none => .error .malformed
    | some (.table ms) => .ok ms
    | some _ => .error .noTable

/-! ## Layers -/

/-- Lays keys with their values over a tree; a key may be a path. -/
def Setting.layered (tree : Setting) (layer : List (String × Setting)) : Setting :=
  layer.foldl (fun tree (key, v) => tree.alter (·.overlay v) (Setting.pathOf key)) tree

/-- Loads settings from a file, if there is one, and the environment. -/
def Settings.load (file : Option SettingsFile) (vars : List (String × String)) :
    Except RegistryError Settings :=
  match (file.map SettingsFile.members).getD (.ok []) with
  | .error fault => .error (.config fault.reason)
  | .ok members =>
    let tree := ((Setting.table []).layered members).layered (Environment.read vars)
    match Settings.ofTree? tree with
    | none => .error (.config "a setting has the wrong type")
    | some s =>
      match s.node.validate with
      | .error e => .error e
      | .ok () => .ok s

end ServiceRegistry
