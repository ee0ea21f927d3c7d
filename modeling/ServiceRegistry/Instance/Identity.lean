/-
  Who an instance is.

  The identity of an instance is its service name, address and port; its id is kept beside it.  A
  claim is what a caller says an instance with some id is.

    * `Identity.firstDifference`   the first field, in the order name, address, port, in which two
                                   identities differ; `firstDifference_eq_none_iff`: none iff equal.
-/
import ServiceRegistry.Text.Decimal

namespace ServiceRegistry

/-- Service name, address and port. -/
structure Identity where
  service : String := ""
  ip : String := ""
  port : UInt32 := 0
  deriving DecidableEq, Repr

/-- The address and port an instance is reached at. -/
structure Endpoint where
  ip : String
  port : UInt32
  deriving DecidableEq, Repr

/-- What a caller says an instance is. -/
structure Claim where
  id : String
  identity : Identity
  deriving DecidableEq, Repr

/-- The fields of an identity. -/
inductive IdentityField
  | service
  | ip
  | port
  deriving DecidableEq, Repr

/-- The name of a field in messages and bodies. -/
def IdentityField.name : IdentityField → String
  | .service => "serviceName"
  | .ip => "ipAddress"
  | .port => "port"

namespace Identity

/-- No identity at all: what a bare heartbeat carries. -/
def blank : Identity := {}

/-- The address and port. -/
def endpoint (x : Identity) : Endpoint := ⟨x.ip, x.port⟩

/-- The text of a field. -/
def text (x : Identity) : IdentityField → String
  | .service => x.service
  | .ip => x.ip
  | .port => String.ofList (Text.digits x.port.toNat)

/-- The first field in which `x` and `y` differ. -/
def firstDifference (x y : Identity) : Option IdentityField :=
  if x.service ≠ y.service then some .service
  else if x.ip ≠ y.ip then some .ip
  else if x.port ≠ y.port then some .port
  else none

@[simp] theorem firstDifference_eq_none_iff (x y : Identity) :
    x.firstDifference y = none ↔ x = y := by
  cases x; cases y; grind [firstDifference]

end Identity

end ServiceRegistry
