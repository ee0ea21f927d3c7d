/-
  Settings files in YAML.

  A text holds one document at most; without one it is an empty table.  A text that is not laid out
  rightly anywhere has no tree, and neither has one in which a null, a list or a table is a key.

    * `Yaml.read?`   the tree of a text.
-/
import ServiceRegistry.Settings.Yaml.Layout
import ServiceRegistry.Settings.Yaml.Node

namespace ServiceRegistry.Yaml

/-- The tree of a text.  A null character ends it. -/
def read? (cs : List Char) : Option Setting :=
  (Token.ofText? (cs.takeWhile (· ≠ '\x00'))).bind fun tokens =>
    (Node.document? tokens).bind fun node => (node.map Node.setting?).getD (some (.table []))

end ServiceRegistry.Yaml
