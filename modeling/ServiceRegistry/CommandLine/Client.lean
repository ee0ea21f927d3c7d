/-
  The command line of a client.

  A client asks one node: it registers, unregisters or refreshes an instance, looks instances up, or
  asks how the node is.  It prints what the node answered, indented and with sorted keys.

    * `ClientCall.ofArguments`   what is asked of which node;
    * `ClientCall.request`       the request;
    * `ClientCall.outcome`       what is printed, and the exit code.
-/
import ServiceRegistry.CommandLine.Options
import ServiceRegistry.Http.Routes
import ServiceRegistry.Http.Status
import ServiceRegistry.Text.Blank
import ServiceRegistry.Version

namespace ServiceRegistry

open Text

/-- What a client asks. -/
inductive ClientCommand
  | write (kind : WriteKind) (c : Claim)
  | discover (name : Option String)
  | health
  deriving DecidableEq, Repr

/-- What is asked of the node at a base address. -/
structure ClientCall where
  base : String
  command : ClientCommand
  deriving DecidableEq, Repr

namespace ClientCall

/-! ## Arguments -/

/-- The options of commands on an instance. -/
def instanceOptions : List Options.Known :=
  [{ name := "name" }, { name := "id" }, { name := "ip" },
    { name := "port", accepts := Options.isNumber (UInt32.size - 1) }]

/-- The claim that options make. -/
def claimOf? (read : Options.Values) : Option Claim :=
  match read.get? "name", read.get? "id", read.get? "ip",
      (read.get? "port").bind (Options.number? (UInt32.size - 1)) with
  | some name, some id, some ip, some port => some ⟨id, ⟨name, ip, UInt32.ofNat port⟩⟩
  | _, _, _, _ => none

/-- A command and the words after it. -/
def commandOf (command : String) (words : List String) : Parsed ClientCommand :=
  match WriteKind.ofName? command with
  | some kind =>
    Options.parsed command instanceOptions words fun read => (claimOf? read).map (.write kind)
  | none =>
    match command with
    | "discover" =>
      Options.parsed command [{ name := "name" }] words fun read =>
        some (.discover (read.get? "name"))
    | "health" => Options.parsed command [] words fun _ => some .health
    | "help" => .helpOn clientPages words
    | _ => .usage

/-- The address asked by default. -/
def defaultBase : String := "http://localhost:8180"

/-- What a command line asks. -/
def ofArguments (words : List String) : Parsed ClientCall :=
  let context : Options.Context :=
    { options := [{ name := "registry" }], commands := clientCommands.map (·.1) ++ ["help"]
      versioned := true }
  match context.take {} words with
  | (r, .command command rest) =>
    match commandOf command rest, r.settled with
    | .run command, some read =>
      let base := String.ofList (trimEnd (· = '/') ((read.get? "registry").getD defaultBase).toList)
      .run ⟨base, command⟩
    | .run _, none => .usage
    | .version, _ => .version
    | .help command, _ => .help command
    | .usage, _ => .usage
  | (_, .version) => .version
  | (_, .help) => .help none
  | _ => .usage

/-- The name and version of the program. -/
def versionText : String := s!"minireg {version}\n"

/-! ## Request and outcome -/

/-- The body of the request. -/
def body (c : ClientCall) : Option Json.Value :=
  match c.command with
  | .write _ claim => some claim.wire
  | _ => none

/-- The request. -/
def request (c : ClientCall) : Http.Request where
  method := match c.command with
    | .write _ _ => "POST"
    | _ => "GET"
  target := match c.command with
    | .write kind _ => kind.path
    | .discover none => Http.Route.discovery.path
    | .discover (some name) =>
      Http.Route.discovery.path ++ "?name=" ++ String.ofList (FormUrl.encode name.toList)
    | .health => Http.Route.health.path
  headers := if c.body.isSome then [("content-type", Http.Response.jsonType)] else []
  body := match c.body with
    | some v => Octets.ofText v.compact
    | none => []

/-- What is printed for a reply, and the exit code. -/
def outcome (c : ClientCall) (reply : Option Relayed) : Exit :=
  match reply with
  | none => { code := 1, error := s!"Error: request to {c.base} failed" }
  | some r =>
    match Json.Value.ofText r.body with
    | .error _ => { code := 1, error := "Error: response is not valid JSON" }
    | .ok v =>
      let output := String.ofList (v.sorted.indented ++ ['\n'])
      if 200 ≤ r.status && r.status < 300 then { code := 0, output }
      else { code := 1, output, error := s!"Error: registry answered {Http.statusText r.status}" }

end ClientCall

end ServiceRegistry
