/-
  Lists of instances as JSON: what discovery answers.

    * `Listing.of`       the listing for a service name, empty for all services;
    * `Listing.value`, `Listing.decoder`.
-/
import ServiceRegistry.Instance.Wire

namespace ServiceRegistry

open Json

/-- A list of instances, of one service or of all. -/
structure Listing where
  service : Option String
  total : UInt64
  instances : List Instance
  deriving DecidableEq, Repr

namespace Listing

/-- The listing that answers a query for a service name, the empty name meaning all services. -/
def of (name : String) (xs : List Instance) : Listing :=
  ⟨if name.isEmpty then none else some name, UInt64.ofNat xs.length, xs⟩

/-- The listing as JSON; the name is left out when there is none. -/
def value (l : Listing) : Value :=
  .object ((match l.service with | some n => [("serviceName", Value.string n)] | none => [])
    ++ [("totalCount", .nat l.total.toNat), ("instances", .array (l.instances.map Instance.view))])

/-- A listing of which only some fields are known. -/
structure Draft where
  service : Option (Option String) := none
  total : Option UInt64 := none
  instances : Option (List Instance) := none

/-- Reads a listing; the total must be there. -/
def decoder : Decoder Listing :=
  .record
    [.of "serviceName" (·.service) (fun d x => { d with service := some x }) Decoder.text.nullable,
      .of "totalCount" (·.total) (fun d x => { d with total := some x }) Decoder.word64,
      .of "instances" (·.instances) (fun d x => { d with instances := some x })
        Instance.viewDecoder.list]
    2 ({} : Draft)
    fun d => d.total.map fun n => ⟨d.service.getD none, n, d.instances.getD []⟩

end Listing

end ServiceRegistry
