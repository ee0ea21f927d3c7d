/-
  The program.

  A command line that starts with `serve` runs a node, any other is a client's.  There is no
  transport: the link of the network is down, so no call to a node arrives, and a running node
  answers the requests that stand on the lines of standard input.
-/
import ServiceRegistry.CommandLine.Client
import ServiceRegistry.CommandLine.Line
import ServiceRegistry.CommandLine.Serve
import ServiceRegistry.Network.Steps
import Std.Time.DateTime.Timestamp

namespace ServiceRegistry.Main

/-- The seconds of the wall clock. -/
def wallClock : IO Int64 := do
  let t ← Std.Time.Timestamp.now
  return Int64.ofInt t.toSecondsSinceUnixEpoch.val

/-- Prints what there is to print. -/
def leave (e : Exit) : IO UInt32 := do
  IO.print e.output
  if let some text := e.error then IO.eprintln text
  return UInt32.ofNat e.code

/-- The settings file with a name. -/
def readFile (path : String) : IO SettingsFile := do
  try
    let text ← IO.FS.readFile path
    return ⟨extensionOf path, some text⟩
  catch _ => return ⟨extensionOf path, none⟩

/-- The variables that set something. -/
def environment : IO (List (String × String)) := do
  let found ← Environment.names.mapM fun name => do
    return (← IO.getEnv name).map fun value => (name, value)
  return found.filterMap id

/-- Answers requests until there are no more. -/
partial def answerLines (address : String) (started : Nat) (n : Network) : IO Unit := do
  let line ← (← IO.getStdin).getLine
  unless line.isEmpty do
    let timer := (← IO.monoMsNow) - started
    let n := { n with now := ← wallClock }.tick (timer - n.timer)
    let (answer, n) := n.request address (requestOfLine line)
    if let some r := answer then IO.println (lineOfResponse r)
    answerLines address started n

/-- Runs a node. -/
def serve (c : ServeCall) : IO UInt32 := do
  let file ← c.file.mapM readFile
  match c.listening file (← environment) with
  | .error e => leave (ServeCall.failed e)
  | .ok (s, _) =>
    let started ← IO.monoMsNow
    let n := Network.start s.node 1000 { link := .down, now := ← wallClock }
    answerLines s.node.membership.self started n
    return 0

/-- Runs a client. -/
def ask (c : ClientCall) : IO UInt32 := do
  let n : Network := { link := .down, now := ← wallClock }
  leave (c.outcome (n.call c.base c.request c.body).1)

end ServiceRegistry.Main

open ServiceRegistry in
/-- The entry point. -/
def main (words : List String) : IO UInt32 :=
  if words.head? = some "serve" then
    match (ServeCall.ofArguments words).orExit ServeCall.versionText nodePages with
    | .inl c => Main.serve c
    | .inr e => Main.leave e
  else
    match (ClientCall.ofArguments words).orExit ClientCall.versionText clientPages with
    | .inl c => Main.ask c
    | .inr e => Main.leave e
