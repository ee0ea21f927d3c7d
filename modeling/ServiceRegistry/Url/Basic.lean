/-
  URLs.

  A URL is read leniently: blanks around it and line breaks inside it are dropped, and characters
  that may not stand in a part are percent-encoded.  In the known schemes slashes and backslashes
  mean the same and a host is due; in `file` it may be missing.  A port that is the scheme's own is
  left out, and who asks (`user:password@`) is not kept.

    * `Url.parse?`     reads a URL;
    * `Url.text`       writes it;
    * `Url.origin`     scheme, host and port, when the scheme is known to have an origin;
    * `Url.ask`        adds a pair to the query.
-/
import ServiceRegistry.Text.Blank
import ServiceRegistry.Text.Decimal
import ServiceRegistry.Text.FormUrl
import ServiceRegistry.Url.Host

namespace ServiceRegistry

open Text

/-- A URL. -/
structure Url where
  scheme : List Char
  /-- Absent when the URL has no such part at all; the empty name when it has none in it. -/
  host : Option Host := none
  port : Option Nat := none
  path : List Char := []
  query : Option (List Char) := none
  fragment : Option (List Char) := none
  deriving DecidableEq, Repr

namespace Url

/-! ## Schemes -/

/-- The schemes of which more is known: those with a host, and their own ports. -/
def ports : List (String × Nat) :=
  [("http", 80), ("https", 443), ("ws", 80), ("wss", 443), ("ftp", 21)]

/-- The scheme's own port. -/
def ownPort? (scheme : List Char) : Option Nat := ports.lookup (String.ofList scheme)

/-- Whether the scheme is known. -/
def isKnown (scheme : List Char) : Bool :=
  (ownPort? scheme).isSome || scheme = "file".toList

/-- Whether a character can stand in a scheme after its first letter. -/
def isSchemeChar (c : Char) : Bool := c.isAlphanum || c = '+' || c = '-' || c = '.'

/-- Takes the scheme, in small letters. -/
def takeScheme (cs : List Char) : Option (List Char × List Char) :=
  match cs.head?, cs.dropWhile isSchemeChar with
  | some c, ':' :: rest =>
    if c.isAlpha then some ((cs.takeWhile isSchemeChar).map Char.toLower, rest) else none
  | _, _ => none

/-- Whether a character separates the parts of a path. -/
def isSlash (known : Bool) (c : Char) : Bool := c = '/' || (known && c = '\\')

/-! ## Host and port -/

/-- Where the host ends: at the first colon outside brackets. -/
def cutPort : Bool → List Char → List Char × Option (List Char)
  | _, [] => ([], none)
  | inside, c :: cs =>
    if c = ':' && !inside then ([], some cs)
    else
      let (host, port) := cutPort ((inside || c = '[') && c ≠ ']') cs
      (c :: host, port)

/-- A port: absent, empty or the scheme's own one counts as none. -/
def port? (scheme : List Char) : Option (List Char) → Option (Option Nat)
  | none => some none
  | some [] => some none
  | some cs => (natural? cs).bind fun n =>
      if 65535 < n then none else some (if ownPort? scheme = some n then none else some n)

/-- What stands behind the last `@`, and whether there is one. -/
def withoutUser (cs : List Char) : List Char × Bool :=
  ((cs.reverse.takeWhile (· ≠ '@')).reverse, cs.contains '@')

/-- The host and the port. -/
def authority? (scheme cs : List Char) : Option (Host × Option Nat) :=
  let (place, hasUser) := withoutUser cs
  let (host, port) := cutPort false place
  let known := isKnown scheme
  if host.isEmpty && (known || hasUser || port.isSome) then none
  else
    (if known then Host.parse? host else Host.opaque? host).bind fun host =>
      (port? scheme port).map (host, ·)

/-- The host in `file`; the own machine needs no name. -/
def fileHost? (cs : List Char) : Option Host :=
  if cs.isEmpty then some (.name [])
  else (Host.parse? cs).map fun host => if host = .name "localhost".toList then .name [] else host

/-! ## Path -/

/-- Whether a character is kept in a path. -/
def isPathChar (c : Char) : Bool :=
  !Percent.isControl c && !" \"<>\x60#?\x7b\x7d".toList.contains c

/-- Whether a part of a path stands for the place itself. -/
def isHere (part : List Char) : Bool :=
  part = ['.'] || part.map Char.toLower = "%2e".toList

/-- Whether a part of a path leads one step back. -/
def isBack (part : List Char) : Bool :=
  ["..", ".%2e", "%2e.", "%2e%2e"].contains (String.ofList (part.map Char.toLower))

/-- The parts of a path that are left when the steps back are done; `done` is reversed. -/
def resolved (done : List (List Char)) : List (List Char) → List (List Char)
  | [] => done.reverse
  | part :: rest =>
    let done := if isBack part then done.drop 1 else done
    if isBack part || isHere part then resolved (if rest.isEmpty then [] :: done else done) rest
    else resolved (Percent.encode isPathChar part :: done) rest

/-- A path that starts with a slash. -/
def pathText (parts : List (List Char)) : List Char := parts.flatMap ('/' :: ·)

/-- Reads a path; in a known scheme it is never empty. -/
def readPath (known : Bool) (cs : List Char) : List Char :=
  let cs := if known then cs.map fun c => if c = '\\' then '/' else c else cs
  match cs with
  | '/' :: cs => pathText (resolved [] (pieces '/' cs))
  | [] => if known then ['/'] else []
  | cs => pathText (resolved [] (pieces '/' cs))

/-! ## Query and fragment -/

/-- Whether a character is kept in a query. -/
def isQueryChar (known : Bool) (c : Char) : Bool :=
  !Percent.isControl c && !" \"#<>".toList.contains c && !(known && c = '\'')

/-- Whether a character is kept in a fragment. -/
def isFragmentChar (c : Char) : Bool := !Percent.isControl c && !" \"<>\x60".toList.contains c

/-! ## Reading -/

/-- The text as it is read: without blanks around it, tabs and line breaks. -/
def readable (cs : List Char) : List Char :=
  (trimEnd (· ≤ ' ') (cs.dropWhile (· ≤ ' '))).filter (!"\t\n\r".toList.contains ·)

/-- Reads a URL in front of its query: whether the path is to be encoded only. -/
def readFront? (scheme front : List Char) : Option Url :=
  let known := isKnown scheme
  let slashes := (front.takeWhile (isSlash known)).length
  let afterHost (start : List Char) (read : List Char → Option (Host × Option Nat)) : Option Url :=
    (read (start.takeWhile (!isSlash known ·))).map fun (host, port) =>
      { scheme, host := some host, port
        path := readPath known (start.dropWhile (!isSlash known ·)) }
  -- A file needs no host, the known schemes always have one, others only after two slashes.
  if scheme = "file".toList then
    if slashes < 2 then some { scheme, host := some (.name []), path := readPath known front }
    else afterHost (front.drop 2) fun cs => (fileHost? cs).map (·, none)
  else if known then afterHost (front.drop slashes) (authority? scheme)
  else if 2 ≤ slashes then afterHost (front.drop 2) (authority? scheme)
  else if slashes = 1 then some { scheme, path := readPath known front }
  else some { scheme, path := Percent.encode (!Percent.isControl ·) front }

/-- Reads a URL. -/
def parse? (cs : List Char) : Option Url :=
  (takeScheme (readable cs)).bind fun (scheme, rest) =>
    let (rest, fragment) := cut '#' rest
    let (front, query) := cut '?' rest
    (readFront? scheme front).map fun url =>
      { url with
        query := query.map (Percent.encode (isQueryChar (isKnown scheme)))
        fragment := fragment.map (Percent.encode isFragmentChar) }

/-! ## Writing -/

/-- Whether the URL names a host. -/
def hasHost (url : Url) : Bool := url.host.any (· ≠ .name [])

/-- Host and port, after the slashes that announce them. -/
def authorityText (url : Url) : List Char :=
  match url.host with
  | none => if "//".toList.isPrefixOf url.path then "/.".toList else []
  | some host => "//".toList ++ host.text ++ (url.port.map fun n => ':' :: digits n).getD []

/-- Writes a URL. -/
def text (url : Url) : String :=
  let query := (url.query.map ('?' :: ·)).getD []
  let fragment := (url.fragment.map ('#' :: ·)).getD []
  String.ofList (url.scheme ++ ':' :: url.authorityText ++ url.path ++ query ++ fragment)

/-- Scheme, host and port; `null` where the scheme has no origin. -/
def origin (url : Url) : String :=
  if (ownPort? url.scheme).isSome then
    String.ofList (url.scheme ++ ':' :: url.authorityText)
  else "null"

/-- Adds a pair to the query. -/
def ask (key value : String) (url : Url) : Url :=
  let pair := FormUrl.encode key.toList ++ '=' :: FormUrl.encode value.toList
  let front := match url.query with
    | none => []
    | some [] => []
    | some cs => cs ++ ['&']
  { url with query := some (front ++ pair) }

end Url

end ServiceRegistry
