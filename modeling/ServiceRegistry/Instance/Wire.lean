/-
  Instances as JSON.

  The wire form is the body of writes and of replication: all fields default when absent, unset
  timestamps and empty readable forms are left out.  The view form is what discovery answers: all
  eight fields are written, and name, id, address and port must be there to be read.  A claim reads
  the first four fields of the wire form.

    * `Instance.wire`, `Instance.wireDecoder`;
    * `Instance.view`, `Instance.viewDecoder`;
    * `Claim.wire`, `Claim.decoder`;
    * `Instance.removal`   what the answer to a removal says about the removed instance.
-/
import ServiceRegistry.Instance.Basic
import ServiceRegistry.Json.Decoder

namespace ServiceRegistry

open Json

/-! ## Fields that may be left out -/

/-- A member with a number, left out when zero. -/
def secsMember (key : String) (secs : Int64) : List (String × Value) :=
  if secs = 0 then [] else [(key, .int secs.toInt)]

/-- A member with a text, left out when empty. -/
def textMember (key text : String) : List (String × Value) :=
  if text.isEmpty then [] else [(key, .string text)]

/-- The members of an id and an identity. -/
def identityMembers (id : String) (x : Identity) : List (String × Value) :=
  [("serviceName", .string x.service), ("serviceId", .string id), ("ipAddress", .string x.ip),
    ("port", .nat x.port.toNat)]

/-! ## Writing -/

namespace Instance

/-- The wire form. -/
def wire (x : Instance) : Value :=
  .object (identityMembers x.id x.identity
    ++ secsMember "registeredAt" x.registered.secs
    ++ secsMember "lastHeartbeat" x.heartbeat.secs
    ++ textMember "registeredGMTTime" x.registered.readable
    ++ textMember "lastHeartbeatGMTTime" x.heartbeat.readable)

/-- The view form. -/
def view (x : Instance) : Value :=
  .object (identityMembers x.id x.identity ++
    [("registrationTime", .int x.registered.secs.toInt),
      ("lastHeartbeatTime", .int x.heartbeat.secs.toInt),
      ("registrationGMTTime", .string x.registered.readable),
      ("lastHeartbeatGMTTime", .string x.heartbeat.readable)])

/-- The answer to a removal. -/
def removal (x : Instance) : Value :=
  .object (identityMembers x.id x.identity
    ++ [("message", .string s!"{x.id} has been removed from the registry")]
    ++ textMember "registrationGMTTime" x.registered.readable
    ++ textMember "lastHeartbeatGMTTime" x.heartbeat.readable)

end Instance

/-- The wire form of a claim. -/
def Claim.wire (c : Claim) : Value := .object (identityMembers c.id c.identity)

/-! ## Reading -/

/-- An instance of which only some fields are known. -/
structure Instance.Draft where
  service : Option String := none
  id : Option String := none
  ip : Option String := none
  port : Option UInt32 := none
  registeredAt : Option Int64 := none
  heartbeatAt : Option Int64 := none
  registeredReadable : Option String := none
  heartbeatReadable : Option String := none

namespace Instance.Draft

/-- The four fields of a claim. -/
def identityFields : List (Json.Field Draft) :=
  [.of "serviceName" (·.service) (fun d x => { d with service := some x }) Decoder.text,
    .of "serviceId" (·.id) (fun d x => { d with id := some x }) Decoder.text,
    .of "ipAddress" (·.ip) (fun d x => { d with ip := some x }) Decoder.text,
    .of "port" (·.port) (fun d x => { d with port := some x }) Decoder.word32]

/-- The four fields of the timestamps, under these keys. -/
def stampFields (registeredAt heartbeatAt registeredReadable heartbeatReadable : String) :
    List (Json.Field Draft) :=
  [.of registeredAt (·.registeredAt) (fun d x => { d with registeredAt := some x }) Decoder.int64,
    .of heartbeatAt (·.heartbeatAt) (fun d x => { d with heartbeatAt := some x }) Decoder.int64,
    .of registeredReadable (·.registeredReadable)
      (fun d x => { d with registeredReadable := some x }) Decoder.text,
    .of heartbeatReadable (·.heartbeatReadable)
      (fun d x => { d with heartbeatReadable := some x }) Decoder.text]

/-- The instance, absent fields being empty or zero. -/
def withDefaults (d : Draft) : Instance where
  id := d.id.getD ""
  identity := ⟨d.service.getD "", d.ip.getD "", d.port.getD 0⟩
  registered := ⟨d.registeredAt.getD 0, d.registeredReadable.getD ""⟩
  heartbeat := ⟨d.heartbeatAt.getD 0, d.heartbeatReadable.getD ""⟩

/-- The instance, if name, id, address and port are there. -/
def withIdentity (d : Draft) : Option Instance :=
  if d.service.isSome && d.id.isSome && d.ip.isSome && d.port.isSome then some d.withDefaults
  else none

end Instance.Draft

open Instance.Draft

/-- Reads the wire form. -/
def Instance.wireDecoder : Decoder Instance :=
  .record (identityFields ++ stampFields "registeredAt" "lastHeartbeat" "registeredGMTTime"
    "lastHeartbeatGMTTime") 0 {} fun d => some d.withDefaults

/-- Reads the view form. -/
def Instance.viewDecoder : Decoder Instance :=
  .record (identityFields ++ stampFields "registrationTime" "lastHeartbeatTime"
    "registrationGMTTime" "lastHeartbeatGMTTime") 4 {} fun d => d.withIdentity

/-- Reads the four fields of a claim. -/
def Claim.decoder : Decoder Claim :=
  .record identityFields 0 {} fun d => some d.withDefaults.claim

end ServiceRegistry
