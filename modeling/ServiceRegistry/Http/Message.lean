/-
  HTTP requests and responses.

  A request is taken as it arrives at the router: method, target, headers, body.  Every response of
  the router carries the id of its request, the caller's own when it sent a readable one.

    * `Request.json`       reads a body; `Rejection` says why one is refused;
    * `Request.oversized`  a request that is turned away for its declared length;
    * `requestId`          the id of a request;
    * `Response.enveloped` the common shape of answers, with the status repeated in the body.
-/
import ServiceRegistry.Http.MediaType
import ServiceRegistry.Json.Decoder

namespace ServiceRegistry.Http

open ServiceRegistry.Text ServiceRegistry.Json

/-! ## Headers -/

/-- Whether a value may stand in a header: no control character but the tab. -/
def legalValue (value : List Char) : Bool :=
  value.all fun c => c = '\t' || (0x20 ≤ c.toNat && c.toNat ≠ 0x7F)

/-- The value of a header as text, when it is plain ASCII. -/
def readable? (value : String) : Option (List Char) :=
  if value.toList.all fun c => c = '\t' || (0x20 ≤ c.toNat && c.toNat < 0x7F) then some value.toList
  else none

/-- The id of a request. -/
inductive RequestId
  /-- The caller's. -/
  | given (id : String)
  /-- A new one. -/
  | minted
  deriving DecidableEq, Repr

/-- The id a request goes by, given the value of its header: the caller's, if it is readable and not
    empty. -/
def requestId (header : Option String) : RequestId :=
  match header.bind readable? with
  | some (c :: cs) => .given (String.ofList (c :: cs))
  | _ => .minted

/-! ## Requests -/

/-- A request. -/
structure Request where
  method : String
  target : String
  headers : List (String × String) := []
  body : Octets := []

namespace Request

/-- The value of a header; the name, given in small letters, counts in any case. -/
def header? (r : Request) (name : String) : Option String :=
  (r.headers.find? fun h => h.1.toList.map Char.toLower = name.toList).map (·.2)

/-- What follows the first two slashes behind a colon. -/
def afterScheme : List Char → Option (List Char)
  | ':' :: '/' :: '/' :: r => some r
  | _ :: r => afterScheme r
  | [] => none

/-- The target from its path on.  A target that does not begin with a slash names a host first, and
    perhaps a scheme; without a path the host is asked for its root. -/
def fromPath (target : List Char) : List Char :=
  if target.head? = some '/' || target = ['*'] then target
  else match afterScheme target with
    | none => []
    | some r =>
      let rest := r.dropWhile fun c => c ≠ '/' && c ≠ '?' && c ≠ '#'
      if rest.head? = some '/' then rest else '/' :: rest

/-- The path and the query of the target; a fragment does not count. -/
def parts (r : Request) : List Char × Option (List Char) :=
  cut '?' (cut '#' (fromPath r.target.toList)).1

/-- The path of the target. -/
def path (r : Request) : String := String.ofList r.parts.1

/-- The query of the target. -/
def query (r : Request) : List Char := r.parts.2.getD []

/-- The id of the request. -/
def id (r : Request) : RequestId := requestId (r.header? "x-request-id")

/-- The length a request declares for its body. -/
def declaredLength (r : Request) : Option Nat :=
  ((r.header? "content-length").bind readable?).bind (unsigned? maxWord)

end Request

/-- The most bytes a body may have. -/
def bodyLimit : Nat := 65536

/-- Whether a request declares more than a body may have. -/
def Request.oversized (r : Request) : Bool := r.declaredLength.any (bodyLimit < ·)

/-- How much of the body is read at most: no more than declared. -/
def Request.readLimit (r : Request) : Nat := min bodyLimit (r.declaredLength.getD bodyLimit)

/-! ## Bodies -/

/-- Why a body is refused. -/
inductive Rejection
  | notJson
  | tooLong
  | fault (f : Fault)
  deriving DecidableEq, Repr

/-- The text of a refusal. -/
def Rejection.text : Rejection → String
  | .notJson => "Expected request with `Content-Type: application/json`"
  | .tooLong => "Failed to buffer the request body: length limit exceeded"
  | .fault .mistyped => "Failed to deserialize the JSON body into the target type"
  | .fault .malformed => "Failed to parse the request body as JSON"

/-- Reads a body as JSON.  What follows the value is not looked at. -/
def Request.json {α : Type} (d : Decoder α) (r : Request) : Except Rejection α :=
  if !((r.header? "content-type").bind readable?).any isJson then .error .notJson
  else if r.readLimit < r.body.size then .error .tooLong
  else (decodeHead d r.body).mapError .fault

/-! ## Responses -/

/-- The body of a response. -/
inductive Body
  | empty
  | json (v : Value)
  | text (s : String)
  /-- Passed on as received. -/
  | raw (o : Octets)

/-- The bytes of a body. -/
def Body.octets : Body → Octets
  | .empty => []
  | .json v => Octets.ofText v.compact
  | .text s => Octets.ofString s
  | .raw o => o

/-- A response.  Without an id it never reached the router. -/
structure Response where
  status : Nat
  type : Option String := none
  allow : Option String := none
  id : Option RequestId := none
  body : Body := .empty

namespace Response

/-- The content type of JSON bodies. -/
def jsonType : String := "application/json"

/-- The content type of plain text. -/
def textType : String := "text/plain; charset=utf-8"

/-- A JSON answer. -/
def json (status : Nat) (v : Value) : Response := { status, type := jsonType, body := .json v }

/-- A plain text answer. -/
def text (status : Nat) (s : String) : Response := { status, type := textType, body := .text s }

/-- The common shape of answers: the status, a message and data. -/
def envelope (code : Nat) (msg : String) (data : Value) : Value :=
  .object [("code", .nat code), ("msg", .string msg), ("data", data)]

/-- An answer in the common shape. -/
def enveloped (status : Nat) (msg : String) (data : Value := .null) : Response :=
  json status (envelope status msg data)

/-- The same answer without its body. -/
def bodiless (r : Response) : Response := { r with body := .empty }

end Response

end ServiceRegistry.Http
