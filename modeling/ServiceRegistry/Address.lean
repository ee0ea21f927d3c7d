/-
  Node addresses.

  Addresses are compared in normal form: blanks are dropped at both ends and then slashes at the
  end, once each in this order.
-/
import ServiceRegistry.Text.Blank

namespace ServiceRegistry

/-- The normal form of an address. -/
def normalizeAddress (address : String) : String :=
  String.ofList (Text.trimEnd (· = '/') (Text.trim address.toList))

end ServiceRegistry
