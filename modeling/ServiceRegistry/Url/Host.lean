/-
  Hosts of URLs.

  A host is a name or the number of a network address.  In a URL of a known scheme a host whose last
  label is a number is an address of one to four numbers, decimal, octal after `0` or hexadecimal
  after `0x`, of which the last one fills all the octets that are left; else it is a domain.  In
  other URLs a host outside brackets is any text.

    * `Host.parse?`    the host of a URL of a known scheme;
    * `Host.opaque?`   the host of another URL;
    * `Host.text`      writes a host.
-/
import ServiceRegistry.SocketAddress
import ServiceRegistry.Text.Hex
import ServiceRegistry.Text.Octets
import ServiceRegistry.Url.Domain
import ServiceRegistry.Url.Percent

namespace ServiceRegistry

open Text

/-- A host. -/
inductive Host
  /-- A domain, or any other name. -/
  | name (text : List Char)
  /-- An address of four octets. -/
  | v4 (octets : List Nat)
  /-- An address of eight groups of 16 bits. -/
  | v6 (groups : List Nat)
  deriving DecidableEq, Repr

namespace Host

/-! ## Addresses -/

/-- The number that digits to a base stand for, the empty text being zero. -/
def number? (base : Nat) (cs : List Char) : Option Nat :=
  if cs.isEmpty then some 0 else ofBase? base cs

/-- One number of an address, decimal, octal or hexadecimal. -/
def part? : List Char → Option Nat
  | [] => none
  | '0' :: 'x' :: cs => number? 16 cs
  | '0' :: 'X' :: cs => number? 16 cs
  | '0' :: cs => number? 8 cs
  | cs => number? 10 cs

/-- The labels of a domain, without an empty one at the end. -/
def labels (domain : List Char) : List (List Char) :=
  let ls := pieces '.' domain
  if 1 < ls.length && ls.getLast? = some [] then ls.dropLast else ls

/-- Whether the last label is a number, so that the domain has to be an address. -/
def endsInNumber (domain : List Char) : Bool :=
  (labels domain).getLast?.any fun l => !l.isEmpty && (l.all Char.isDigit || (part? l).isSome)

/-- The four octets of the numbers of an address; `room` octets are left. -/
def octets? : Nat → List Nat → Option (List Nat)
  | room, [n] =>
    if n < Nat.pow 256 room then
      some ((List.range room).reverse.map fun k => n / Nat.pow 256 k % 256)
    else none
  | room + 1, n :: ns => if n < 256 then (octets? room ns).map (n :: ·) else none
  | _, _ => none

/-- An address of four octets. -/
def v4? (domain : List Char) : Option Host :=
  let ls := labels domain
  if 4 < ls.length then none else ((ls.mapM part?).bind (octets? 4)).map v4

/-- An address in brackets, which are left out here. -/
def v6? (cs : List Char) : Option Host :=
  match SocketAddress.takeSixteen cs with
  | some (groups, []) => some (v6 groups)
  | _ => none

/-! ## Reading -/

/-- The text between brackets. -/
def bracketed? : List Char → Option (List Char)
  | '[' :: cs => if cs.getLast? = some ']' then some cs.dropLast else none
  | _ => none

/-- The host of a URL of a known scheme. -/
def parse? (cs : List Char) : Option Host :=
  if cs.head? = some '[' then (bracketed? cs).bind v6?
  else
    (Octets.ofBytes (Percent.decode cs)).toText?.bind fun text =>
      (Domain.ascii? text).bind fun domain =>
        if domain.isEmpty then none
        else if endsInNumber domain then v4? domain
        else some (name domain)

/-- Whether a character never stands in a host. -/
def isForbidden (c : Char) : Bool := "\x00\t\n\r #/:<>?@[\\]^|".toList.contains c

/-- The host of another URL. -/
def opaque? (cs : List Char) : Option Host :=
  if cs.head? = some '[' then (bracketed? cs).bind v6?
  else if cs.any isForbidden then none
  else some (name (Percent.encode (!Percent.isControl ·) cs))

/-! ## Writing -/

/-- Eight groups; the longest run of two or more zeros is left out. -/
def groupsText (groups : List Nat) : List Char :=
  let (start, length) := SocketAddress.longestRun groups
  if 1 < length then
    SocketAddress.groupsText (groups.take start) ++ "::".toList
      ++ SocketAddress.groupsText (groups.drop (start + length))
  else SocketAddress.groupsText groups

/-- Writes a host. -/
def text : Host → List Char
  | name cs => cs
  | v4 octets => SocketAddress.octetsText octets
  | v6 groups => '[' :: groupsText groups ++ [']']

end Host

end ServiceRegistry
