/-
  The candidates of a cluster.

  Every node knows its own address, an ordered list of candidates and a fallback master, all in
  normal form.  The order of the candidates is the order in which they are asked.

    * `peers`           the candidates other than this node;
    * `failoverOrder`   the candidates after a failed one, around the list, without it.
-/
import ServiceRegistry.Address

namespace ServiceRegistry

/-- What a node knows about its cluster. -/
structure Membership where
  self : String
  candidates : List String
  fallback : String
  deriving DecidableEq, Repr

namespace Membership

/-- Brings the addresses into normal form. -/
def of (self : String) (candidates : List String) (fallback : String) : Membership :=
  ⟨normalizeAddress self, candidates.map normalizeAddress, normalizeAddress fallback⟩

/-- Whether an address is this node's. -/
def isSelf (m : Membership) (address : String) : Bool := normalizeAddress address = m.self

/-- Whether this node is a candidate. -/
def containsSelf (m : Membership) : Bool := m.candidates.contains m.self

/-- The candidates other than this node. -/
def peers (m : Membership) : List String := m.candidates.filter (· ≠ m.self)

/-- Where the search after a failed candidate starts: at the one after it, or at the front when the
    address is no candidate. -/
def searchStart (m : Membership) (failed : String) : Nat :=
  match m.candidates.idxOf? failed with
  | some i => i + 1
  | none => 0

/-- The candidates in the order in which they are tried after one has failed: from the one after it
    around the list, without it. -/
def failoverOrder (m : Membership) (failed : String) : List String :=
  let failed := normalizeAddress failed
  let n := m.candidates.length
  let round := (List.range n).filterMap fun k => m.candidates[(m.searchStart failed + k) % n]?
  round.filter (· ≠ failed)

end Membership

end ServiceRegistry
