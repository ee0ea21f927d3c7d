/-
  The version of the program.
-/

namespace ServiceRegistry

/-- The version, as health checks and the command lines tell it. -/
def version : String := "0.1.0"

end ServiceRegistry
