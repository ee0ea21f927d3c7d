/-
  Help pages.

  A page says what a command is for and how it is written, and lists commands, arguments and options
  in columns.

    * `HelpPage.text`     a page as it is printed;
    * `clientPages`, `nodePages`   the pages of the two programs.
-/

namespace ServiceRegistry

/-- A help page; commands, arguments and options have a name and a text each. -/
structure HelpPage where
  about : String
  usage : String
  commands : List (String × String) := []
  arguments : List (String × String) := []
  options : List (String × String) := []

namespace HelpPage

/-- Rows of two columns, the second one aligned. -/
def rows (xs : List (String × String)) : String :=
  let width := xs.foldl (fun w x => max w x.1.length) 0
  String.join (xs.map fun (name, text) =>
    let gap := String.ofList (List.replicate (width - name.length) ' ')
    "  " ++ name ++ gap ++ "  " ++ text ++ "\n")

/-- Rows under a title; nothing when there are none. -/
def block (title : String) (xs : List (String × String)) : String :=
  if xs.isEmpty then "" else "\n" ++ title ++ ":\n" ++ rows xs

/-- A page as it is printed. -/
def text (p : HelpPage) : String :=
  p.about ++ "\n\nUsage: " ++ p.usage ++ "\n" ++ block "Commands" p.commands
    ++ block "Arguments" p.arguments ++ block "Options" p.options

end HelpPage

/-- The row for help itself. -/
def helpRow : String × String := ("-h, --help", "Print help")

/-- The row for the version. -/
def versionRow : String × String := ("-V, --version", "Print version")

/-- The row for the command that prints help. -/
def helpCommandRow : String × String :=
  ("help", "Print this message or the help of the given subcommand(s)")

/-- The page of that command, in a program with a name. -/
def helpCommandPage (program : String) : HelpPage where
  about := helpCommandRow.2
  usage := s!"{program} help [COMMAND]..."
  arguments := [("[COMMAND]...", "Print help for the subcommand(s)")]

/-! ## The client -/

/-- The rows of a client's commands. -/
def clientCommands : List (String × String) :=
  [("register", "Register an instance"), ("unregister", "Remove an instance"),
    ("heartbeat", "Send a heartbeat for an instance"),
    ("discover", "Discover instances (all of them when no name is given)"),
    ("health", "Show node health and role")]

/-- The row for a service name. -/
def nameRow : String × String := ("    --name <NAME>", "Service name")

/-- The usage and the options of a client's command. -/
def clientUsage (command : String) : String × List (String × String) :=
  match command with
  | "discover" => ("minireg discover [OPTIONS]", [nameRow, helpRow])
  | "health" => ("minireg health", [helpRow])
  | _ => (s!"minireg {command} --name <NAME> --id <ID> --ip <IP> --port <PORT>",
      [nameRow, ("    --id <ID>", "Service instance ID"), ("    --ip <IP>", "Instance IP address"),
        ("    --port <PORT>", "Instance port"), helpRow])

/-- The page of a client's command, or of the client when none is named. -/
def clientPages : Option String → Option HelpPage
  | none => some
      { about := "minireg service registry CLI"
        usage := "minireg [OPTIONS] <COMMAND>"
        commands := clientCommands ++ [helpCommandRow]
        options := [("    --registry <REGISTRY>",
          "Registry node URL [default: http://localhost:8180]"), helpRow, versionRow] }
  | some "help" => some (helpCommandPage "minireg")
  | some command => (clientCommands.find? (·.1 = command)).map fun (_, about) =>
      { about, usage := (clientUsage command).1, options := (clientUsage command).2 }

/-! ## The node -/

/-- The page of a node's command, or of the node when none is named. -/
def nodePages : Option String → Option HelpPage
  | none => some
      { about := "minireg replicated service registry node"
        usage := "minireg-node <COMMAND>"
        commands := [("serve", "Start a registry node"), helpCommandRow]
        options := [helpRow, versionRow] }
  | some "serve" => some
      { about := "Start a registry node"
        usage := "minireg-node serve [OPTIONS]"
        options := [("    --config <CONFIG>", "Config file (YAML or TOML)"),
          ("    --port <PORT>", "HTTP listen port"),
          ("    --node-addr <NODE_ADDR>", "Address other nodes reach this node at"),
          ("    --cluster <CLUSTER>", "Cluster candidates in priority order (comma-separated)"),
          helpRow] }
  | some "help" => some (helpCommandPage "minireg-node")
  | some _ => none

end ServiceRegistry
