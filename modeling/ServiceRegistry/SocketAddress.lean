/-
  Socket addresses.

  An address is four decimal numbers, or eight hexadecimal groups in brackets with perhaps a scope;
  a port follows after a colon.  Once, a run of groups that are zero may be left out for two colons,
  and the last two groups may be written as four decimal numbers.

    * `SocketAddress.parse?`   reads one;
    * `SocketAddress.text`     writes one, in its shortest form: the longest run of two or more zero
                               groups is left out, the first of several.
-/
import ServiceRegistry.Text.Decimal
import ServiceRegistry.Text.Hex

namespace ServiceRegistry

open Text

/-- An address with a port. -/
inductive SocketAddress
  /-- Four numbers below 256. -/
  | v4 (octets : List Nat) (port : Nat)
  /-- Eight groups of 16 bits, and a scope. -/
  | v6 (groups : List Nat) (scope port : Nat)
  deriving DecidableEq, Repr

namespace SocketAddress

/-! ## Reading -/

/-- Takes something off a text. -/
abbrev Taker (α : Type) := List Char → Option (α × List Char)

/-- Takes this character. -/
def takeChar (c : Char) : Taker Unit
  | d :: r => if c = d then some ((), r) else none
  | [] => none

/-- Takes one or more decimal digits as a number of at most `max`. -/
def takeNumber (max : Nat) : Taker Nat := fun cs =>
  (natural? (cs.takeWhile Char.isDigit)).bind fun n =>
    if n ≤ max then some (n, cs.dropWhile Char.isDigit) else none

/-- Takes a number below 256 without superfluous zeros. -/
def takeOctet : Taker Nat := fun cs =>
  let ds := cs.takeWhile Char.isDigit
  if 3 < ds.length || (ds.head? = some '0' && 1 < ds.length) then none else takeNumber 255 cs

/-- Takes what comes after a separator, none being wanted in front of the first item. -/
def takeAfter {α : Type} (sep : Char) (first : Bool) (take : Taker α) : Taker α := fun cs =>
  if first then take cs else (takeChar sep cs).bind fun (_, r) => take r

/-- Takes so many more octets, with dots between them. -/
def takeOctets : Nat → Bool → Taker (List Nat)
  | 0, _, cs => some ([], cs)
  | n + 1, first, cs =>
    (takeAfter '.' first takeOctet cs).bind fun (b, r) =>
      (takeOctets n false r).map fun (bs, r) => (b :: bs, r)

/-- Takes one to four hexadecimal digits. -/
def takeGroup : Taker Nat := fun cs =>
  let ds := cs.takeWhile fun c => (hexValue? c).isSome
  if 4 < ds.length then none
  else (hexNatural? ds).map fun n => (n, cs.drop ds.length)

/-- Two octets as a group. -/
def pairUp : List Nat → List Nat
  | a :: b :: r => (256 * a + b) :: pairUp r
  | _ => []

/-- Takes at most so many groups, as many as there are; the flag says whether they end in octets. -/
def takeGroups : Nat → Bool → List Char → List Nat × Bool × List Char
  | 0, _, cs => ([], false, cs)
  | n + 1, first, cs =>
    match (if n = 0 then none else takeAfter ':' first (takeOctets 4 true) cs) with
    | some (octets, r) => (pairUp octets, true, r)
    | none =>
      match takeAfter ':' first takeGroup cs with
      | none => ([], false, cs)
      | some (g, r) =>
        let (gs, ended, r) := takeGroups n false r
        (g :: gs, ended, r)

/-- Takes eight groups, of which a run of zeros may be left out. -/
def takeSixteen : Taker (List Nat) := fun cs =>
  let (head, ended, r) := takeGroups 8 true cs
  if head.length = 8 then some (head, r)
  else if ended then none
  else match r with
    | ':' :: ':' :: r =>
      let (tail, _, r) := takeGroups (7 - head.length) true r
      some (head ++ List.replicate (8 - head.length - tail.length) 0 ++ tail, r)
    | _ => none

/-- Takes a port. -/
def takePort : Taker Nat := fun cs => (takeChar ':' cs).bind fun (_, r) => takeNumber 65535 r

/-- Takes a scope; zero when there is none. -/
def takeScope (cs : List Char) : Nat × List Char :=
  match cs with
  | '%' :: r => (takeNumber (UInt32.size - 1) r).getD (0, cs)
  | _ => (0, cs)

/-- Takes an address in brackets, with its port. -/
def takeBracketed : Taker SocketAddress := fun cs =>
  (takeChar '[' cs).bind fun (_, r) => (takeSixteen r).bind fun (groups, r) =>
    let (scope, r) := takeScope r
    (takeChar ']' r).bind fun (_, r) => (takePort r).map fun (port, r) => (v6 groups scope port, r)

/-- Takes four octets and a port. -/
def takeDotted : Taker SocketAddress := fun cs =>
  (takeOctets 4 true cs).bind fun (octets, r) =>
    (takePort r).map fun (port, r) => (v4 octets port, r)

/-- Reads a socket address. -/
def parse? (cs : List Char) : Option SocketAddress :=
  match (takeDotted cs).or (takeBracketed cs) with
  | some (a, []) => some a
  | _ => none

/-! ## Writing -/

/-- Items with a separator between them. -/
def joined (sep : Char) : List (List Char) → List Char
  | [] => []
  | [x] => x
  | x :: xs => x ++ sep :: joined sep xs

/-- Four octets. -/
def octetsText (octets : List Nat) : List Char := joined '.' (octets.map digits)

/-- Groups with colons between them. -/
def groupsText (groups : List Nat) : List Char := joined ':' (groups.map (Nat.toDigits 16))

/-- How many groups are zero from here on. -/
def zeros (groups : List Nat) : Nat := (groups.takeWhile (· = 0)).length

/-- Start and length of the longest run of zeros, the first of several. -/
def longestRun (groups : List Nat) : Nat × Nat :=
  (List.range groups.length).foldl
    (fun best i => let n := zeros (groups.drop i); if best.2 < n then (i, n) else best) (0, 0)

/-- Eight groups in their shortest form. -/
def sixteenText (groups : List Nat) : List Char :=
  match groups with
  | [0, 0, 0, 0, 0, 0xFFFF, g, h] =>
    "::ffff:".toList ++ octetsText [g / 256, g % 256, h / 256, h % 256]
  | _ =>
    let (start, length) := longestRun groups
    if 1 < length then
      groupsText (groups.take start) ++ "::".toList ++ groupsText (groups.drop (start + length))
    else groupsText groups

/-- Writes a socket address. -/
def text : SocketAddress → List Char
  | v4 octets port => octetsText octets ++ ':' :: digits port
  | v6 groups scope port =>
    let scopeText := if scope = 0 then [] else '%' :: digits scope
    '[' :: (sixteenText groups ++ scopeText ++ [']', ':'] ++ digits port)

end SocketAddress

end ServiceRegistry
