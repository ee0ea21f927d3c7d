/-
  Settings from the environment.

  A variable counts when its name, in any case, starts with the prefix; after it two underscores
  separate the levels of a path.  A value is read as truth, an integer, a double or, for the list of
  candidates alone, a list at its commas; everything else is text.

    * `Environment.read`   the paths and values that variables give.
-/
import ServiceRegistry.Settings.Tree
import ServiceRegistry.Text.Pieces

namespace ServiceRegistry.Environment

open ServiceRegistry.Text

/-- What the names of variables start with. -/
def leader : List Char := "minireg__".toList

/-- A name with dots between its levels. -/
def dotted : List Char → List Char
  | '_' :: '_' :: cs => '.' :: dotted cs
  | c :: cs => c :: dotted cs
  | [] => []

/-- The small letter of a letter; the sign for kelvin is a capital K as well. -/
def small (c : Char) : Char := if c = '\u212A' then 'k' else c.toLower

/-- The key that a variable sets, if it counts. -/
def key? (name : String) : Option (List Char) :=
  let lower := name.toList.map small
  if leader.isPrefixOf lower then some (dotted (lower.drop leader.length)) else none

/-- The one key whose value is a list. -/
def listKey : List Char := "registry.cluster".toList

/-- What the value of a variable stands for. -/
def value (key : List Char) (text : String) : Setting :=
  let cs := text.toList
  let lower := cs.map Char.toLower
  if lower = "true".toList then .bool true
  else if lower = "false".toList then .bool false
  else match integer? Int64.minValue.toInt Int64.maxValue.toInt cs, Double.parse? cs with
    | some i, _ => .int i
    | none, some x => .real x.toBits
    | none, none =>
      if key = listKey then .list ((pieces ',' cs).map fun p => .text (String.ofList p))
      else .text text

/-- The keys and values that variables give. -/
def read (vars : List (String × String)) : List (String × Setting) :=
  vars.filterMap fun (name, text) =>
    (key? name).map fun key => (String.ofList key, value key text)

/-- The names of the variables that set something. -/
def names : List String :=
  ["MINIREG__LOG_LEVEL"] ++ (["PORT", "BIND_HOST", "INSTANCE_ID", "NODE_ADDR", "CLUSTER",
      "DEFAULT_MASTER", "HEARTBEAT__TIMEOUT_SECONDS", "HEARTBEAT__CLEANUP_INTERVAL",
      "HEARTBEAT__CLUSTER_CHECK_INTERVAL"].map ("MINIREG__REGISTRY__" ++ ·))

end ServiceRegistry.Environment
