/-
  The command line of a node.

  A node is started with a settings file and with options that win over the file and the
  environment.

    * `ServeCall.ofArguments`   what the options say;
    * `ServeCall.settings`      the settings they lead to;
    * `ServeCall.listening`     them with the address to listen at, or why a node does not start.
-/
import ServiceRegistry.CommandLine.Options
import ServiceRegistry.Settings.Load
import ServiceRegistry.Version

namespace ServiceRegistry

/-- What a node is started with. -/
structure ServeCall where
  file : Option String := none
  port : Option UInt16 := none
  nodeAddress : Option String := none
  cluster : List String := []
  deriving DecidableEq, Repr

namespace ServeCall

/-- The options: a file needs a name, and a port is a number of 16 bits. -/
def options : List Options.Known :=
  [{ name := "config", accepts := (· ≠ "") },
    { name := "port", accepts := Options.isNumber 65535 }, { name := "node-addr" },
    { name := "cluster", gathers := true }]

/-- What values of options come to. -/
def ofValues (read : Options.Values) : ServeCall where
  file := read.get? "config"
  port := ((read.get? "port").bind (Options.number? 65535)).map fun n => UInt16.ofNat n
  nodeAddress := read.get? "node-addr"
  cluster := (read.all "cluster").flatMap fun v => (Text.pieces ',' v.toList).map String.ofList

/-- What a command line asks. -/
def ofArguments (words : List String) : Parsed ServeCall :=
  let context : Options.Context := { commands := ["serve", "help"], versioned := true }
  match context.take {} words with
  | (_, .command "serve" rest) => Options.parsed "serve" options rest (some ∘ ofValues)
  | (_, .command _ words) => .helpOn nodePages words
  | (_, .version) => .version
  | (_, .help) => .help none
  | _ => .usage

/-- Settings with the options over them. -/
def override (c : ServeCall) (s : NodeSettings) : NodeSettings :=
  { s with
    port := c.port.getD s.port
    nodeAddress := c.nodeAddress.or s.nodeAddress
    cluster := if c.cluster.isEmpty then s.cluster else c.cluster }

/-- The settings that a node is started with.  They must make sense before the options are laid over
    them, and after. -/
def settings (c : ServeCall) (file : Option SettingsFile) (vars : List (String × String)) :
    Except RegistryError Settings :=
  match Settings.load file vars with
  | .error e => .error e
  | .ok s =>
    let node := c.override s.node
    match node.validate with
    | .error e => .error e
    | .ok () => .ok { s with node }

/-- The settings and the address that a node listens at, or why it does not start. -/
def listening (c : ServeCall) (file : Option SettingsFile) (vars : List (String × String)) :
    Except RegistryError (Settings × SocketAddress) :=
  match c.settings file vars with
  | .error e => .error e
  | .ok s => s.node.bindAddress.map fun a => (s, a)

/-- The name and version of the program. -/
def versionText : String := s!"minireg-node {version}\n"

/-- How a program exits that cannot start. -/
def failed (e : RegistryError) : Exit := { code := 1, error := s!"Error: {e.message}" }

end ServeCall

end ServiceRegistry
