/-
  Calls from node to node.

  Each call is one HTTP request to an address.  Its reply is the raw answer, or nothing when no
  request could be made or no connection came about; what a reply means depends on the call.

    * `PeerCall.method`, `target`, `body`   the request;
    * `PeerCall.canBeMade`                  whether there can be such a request at all: not to every
                                            text that is given as an address, nor at any length;
    * `PeerCall.unreachable`                why it fails when there is no answer;
    * `healthy`, `accepted`, `instancesIn`, `cursorsIn`   what a reply says;
    * `PeerCall.relayed`   a forwarded call's reply, as it is handed on.
-/
import ServiceRegistry.Instance.Listing
import ServiceRegistry.Service.Basic
import ServiceRegistry.Text.FormUrl
import ServiceRegistry.Url.Basic

namespace ServiceRegistry

open Json Text

/-! ## URLs of requests -/

namespace Url

/-- The most bytes that the URL of a request may have. -/
def requestLimit : Nat := 65534

/-- Whether a request can be made to a URL.  Its scheme is one of the web's, it names a host, which
    has none of the few characters that a URL may have there but a request may not, and it is not
    too long. -/
def isRequestable (url : Url) : Bool :=
  ["http".toList, "https".toList].contains url.scheme
    && url.hasHost
    && !url.authorityText.any ("\"\x60\x7b\x7d".toList.contains ·)
    && (Octets.ofString url.text).size ≤ requestLimit

end Url

/-! ## Requests -/

/-- A call to the node at an address. -/
inductive PeerCall
  /-- Is it up? -/
  | probe (address : String)
  /-- A write to be carried out there. -/
  | write (address : String) (c : Change)
  /-- A query for instances; the empty name means all. -/
  | discovery (address name : String)
  /-- Its round-robin cursors. -/
  | cursors (address : String)
  /-- A committed write to be taken over there. -/
  | push (address : String) (c : Change)
  deriving DecidableEq, Repr

namespace PeerCall

/-- The address a call goes to. -/
def address : PeerCall → String
  | probe a => a
  | write a _ => a
  | discovery a _ => a
  | cursors a => a
  | push a _ => a

/-- The method of a call. -/
def method : PeerCall → String
  | write _ _ => "POST"
  | push _ _ => "POST"
  | _ => "GET"

/-- The path of a call. -/
def path : PeerCall → String
  | probe _ => "/health"
  | write _ c => c.kind.path
  | discovery _ _ => "/api/discovery"
  | cursors _ => "/api/internal/loadbalance"
  | push _ _ => "/api/internal/sync"

/-- The name that a query for instances asks for. -/
def name? : PeerCall → Option String
  | discovery _ name => if name.isEmpty then none else some name
  | _ => none

/-- The path of a call, with its query. -/
def target (c : PeerCall) : String :=
  c.path ++ match c.name? with
    | none => ""
    | some name => "?name=" ++ String.ofList (FormUrl.encode name.toList)

/-- The body of a call. -/
def body : PeerCall → Option Value
  | write _ c => some c.record.wire
  | push _ c => some c.wire
  | _ => none

/-- The URL of a call in front of its query, if its address and its path make one. -/
def front? (c : PeerCall) : Option Url := Url.parse? (c.address ++ c.path).toList

/-- A URL with the query of a call. -/
def asking (c : PeerCall) (url : Url) : Url :=
  match c.name? with
  | none => url
  | some name => url.ask "name" name

/-- Whether a request can be made for a call; nothing is sent for one that it cannot be made for. -/
def canBeMade (c : PeerCall) : Bool := (c.front?.map c.asking).any (·.isRequestable)

/-- Why a call fails that gets no answer.  To a text that is no URL none is tried, nor to a URL that
    names no host or that no request can be made to. -/
def unreachable (c : PeerCall) : RegistryError :=
  match c.front? with
  | none => .peer "unknown" "builder error"
  | some url =>
    if !url.hasHost then .peer url.origin s!"builder error for url ({url.text})"
    else
      let url := c.asking url
      let failure := if url.isRequestable then "error sending request" else "builder error"
      .peer url.origin s!"{failure} for url ({url.text})"

/-- The reply to a forwarded call, as it is handed on. -/
def relayed (c : PeerCall) (reply : Option Relayed) : Except RegistryError Relayed :=
  match reply with
  | some r => .ok r
  | none => .error c.unreachable

end PeerCall

/-! ## Replies -/

/-- A node is healthy when it answers 200. -/
def healthy (reply : Option Relayed) : Bool := reply.any (·.status = 200)

/-- A push is accepted by any status of success. -/
def accepted (reply : Option Relayed) : Bool := reply.any fun r => 200 ≤ r.status && r.status < 300

/-- An answer in the common shape, of which only some fields are known. -/
structure Envelope.Draft (α : Type) where
  code : Option UInt16 := none
  msg : Option String := none
  data : Option (Option α) := none

/-- Reads the data of an answer in the common shape. -/
def Envelope.decoder {α : Type} (d : Decoder α) : Decoder (Option α) :=
  .record
    [.of "code" (·.code) (fun e x => { e with code := some x }) Decoder.word16,
      .of "msg" (·.msg) (fun e x => { e with msg := some x }) Decoder.text,
      .of "data" (·.data) (fun e x => { e with data := some x }) d.nullable]
    3 ({} : Envelope.Draft α)
    fun e => if e.code.isSome && e.msg.isSome then some (e.data.getD none) else none

/-- The data in a reply of status 200; nothing when the reply is another or does not decode. -/
def dataIn {α : Type} (d : Decoder α) (reply : Option Relayed) : Option (Option α) :=
  match reply with
  | none => none
  | some r => if r.status = 200 then (decode (Envelope.decoder d) r.body).toOption else none

/-- The instances in a reply; nothing when it holds no answer. -/
def instancesIn (reply : Option Relayed) : Option (List Instance) :=
  (dataIn Listing.decoder reply).map fun data => (data.map Listing.instances).getD []

/-- The cursors in a reply; nothing when it holds no answer. -/
def cursorsIn (reply : Option Relayed) : Option (List (String × Int64)) :=
  (dataIn Decoder.int64.dictionary reply).map (·.getD [])

end ServiceRegistry
