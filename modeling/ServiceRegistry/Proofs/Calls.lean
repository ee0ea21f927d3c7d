/-
  The calls of a node, as the node they go to understands them.

  A call leaves as a request: a path, perhaps a name in its query, perhaps a record in its body.
  The node that gets the request reads from it what was asked:

    * `Request.parts_of_target`, `route_of_path`, `inquiry_of_read`   how any request is read;
    * `route_request`       its path leads to the route of the call;
    * `query_request`       its query holds the name;
    * `json_request`        its body, if it is not too long, reads back;
    * `inquiry_write`, `inquiry_discovery`, `inquiry_cursors`   so the inquiry is the call;
    * `canBeMade_of_long`   a name may be too long to be asked for at all.
-/
import ServiceRegistry.Node
import ServiceRegistry.Proofs.Instance.RoundTrip
import ServiceRegistry.Proofs.Text.FormUrl

namespace ServiceRegistry

open Http Json Text

/-! ## Routes -/

namespace Http.Route

/-- A path is no more than a path. -/
theorem plain_path (r : Route) :
    r.path.toList.head? = some '/' ∧ '#' ∉ r.path.toList ∧ '?' ∉ r.path.toList := by
  cases r with
  | write kind => cases kind <;> decide
  | _ => decide

/-- Every route is found by its path. -/
theorem find?_path (r : Route) : list.find? (·.path = r.path) = some r := by
  cases r with
  | write kind => cases kind <;> decide
  | _ => decide

end Http.Route

/-! ## Requests to a route -/

namespace Http.Request

/-- A target that begins with a slash is all path, query and fragment. -/
theorem fromPath_of_slash {target : List Char} (h : target.head? = some '/') :
    fromPath target = target := by
  simp [fromPath, h]

/-- The path and the query of a target that begins with a slash. -/
theorem parts_of_target {r : Request} {path query : List Char} (hSlash : path.head? = some '/')
    (hTarget : r.target.toList = path ++ '?' :: query) (hPath : '#' ∉ path ∧ '?' ∉ path)
    (hQuery : '#' ∉ query) : r.parts = (path, some query) := by
  have hFirst : (path ++ '?' :: query).head? = some '/' := by simp [hSlash]
  have hFragment : '#' ∉ path ++ '?' :: query := by simp [hPath.1, hQuery]
  rw [parts, hTarget, fromPath_of_slash hFirst, cut_of_absent hFragment, cut_append hPath.2]

/-- A request that finds its route asks what is read there, unless it declares too long a body. -/
theorem inquiry_of_read {r : Request} {route : Route} {i : Inquiry}
    (hLength : r.declaredLength = none) (hRoute : r.route = .ok route)
    (hReads : r.read route = .ok i) : r.inquiry = .ok i := by
  have hFits : r.oversized = false := by rw [oversized, hLength]; rfl
  rw [inquiry, hFits, hRoute]
  simp only [hReads, Except.mapError]

/-- A request to the path of a route, by one of its methods, finds it. -/
theorem route_of_path {r : Request} {route : Route} (hPath : r.path = route.path)
    (hMethod : r.method ∈ route.methods) : r.route = .ok route := by
  have hFound : Route.list.find? (·.path = r.path) = some route := by
    rw [hPath, Route.find?_path]
  delta Request.route
  rw [hFound]
  exact if_pos (List.contains_iff_mem.2 hMethod)

end Http.Request

/-! ## Calls -/

namespace PeerCall

/-- The route that a call goes to. -/
def route : PeerCall → Route
  | probe _ => .health
  | write _ c => .write c.kind
  | discovery _ _ => .discovery
  | cursors _ => .cursors
  | push _ _ => .sync

/-- A call goes to the path of its route. -/
@[simp] theorem path_route (c : PeerCall) : c.route.path = c.path := by cases c <;> rfl

/-- A call uses a method that its route knows. -/
theorem method_mem_route (c : PeerCall) : c.method ∈ c.route.methods := by
  cases c <;> simp [route, method, Route.methods]

/-! ## Targets -/

/-- What follows the question mark in the target of a call. -/
def asked (c : PeerCall) : Option (List Char) :=
  c.name?.map fun name => "name=".toList ++ FormUrl.encode name.toList

/-- The target of a call is its path, with what is asked behind a question mark. -/
theorem toList_target (c : PeerCall) :
    c.target.toList = c.path.toList ++ match c.asked with
      | none => []
      | some query => '?' :: query := by
  rw [target, asked]
  cases c.name? <;> simp

/-- What is asked is encoded, so no fragment is cut off. -/
theorem plain_asked {c : PeerCall} {query : List Char} (h : c.asked = some query) :
    '#' ∉ query := by
  obtain ⟨name, -, rfl⟩ := Option.map_eq_some_iff.1 h
  intro mem
  obtain mem | mem := List.mem_append.1 mem
  · exact absurd mem (by decide)
  · exact (FormUrl.plain_of_mem_encode mem).2.2.1 rfl

/-- The node that gets a call takes its target apart into the path and what is asked. -/
theorem parts_request (c : PeerCall) : c.request.parts = (c.path.toList, c.asked) := by
  obtain ⟨hSlash, hHash, hMark⟩ := c.route.plain_path
  rw [path_route] at hSlash hHash hMark
  have hTarget : c.request.target.toList = _ := c.toList_target
  cases hAsked : c.asked with
  | some query =>
    rw [hAsked] at hTarget
    exact Request.parts_of_target hSlash hTarget ⟨hHash, hMark⟩ (plain_asked hAsked)
  | none =>
    rw [hAsked, List.append_nil] at hTarget
    rw [Request.parts, hTarget, Request.fromPath_of_slash hSlash, cut_of_absent hHash]
    exact cut_of_absent hMark

/-- It finds the path of the call. -/
@[simp] theorem path_request (c : PeerCall) : c.request.path = c.path := by
  rw [Request.path, parts_request, String.ofList_toList]

/-- It finds the query of the call. -/
@[simp] theorem query_request (c : PeerCall) : c.request.query = c.asked.getD [] := by
  rw [Request.query, parts_request]

/-- It finds the route of the call. -/
@[simp] theorem route_request (c : PeerCall) : c.request.route = .ok c.route :=
  Request.route_of_path (c.path_request.trans c.path_route.symm) c.method_mem_route

/-- A call declares no length for its body. -/
@[simp] theorem declaredLength_request (c : PeerCall) : c.request.declaredLength = none := by
  have absent : c.request.header? "content-length" = none := by
    have headers : c.request.headers = [("content-type", Response.jsonType)]
        ∨ c.request.headers = [] := by
      unfold request
      dsimp only
      split
      · exact .inl rfl
      · exact .inr rfl
    rcases headers with headers | headers <;> rw [Request.header?, headers] <;> decide
  rw [Request.declaredLength, absent]
  rfl

/-- What is read at its route is what a call asks. -/
theorem inquiry_request {c : PeerCall} {i : Inquiry} (hReads : c.request.read c.route = .ok i) :
    c.request.inquiry = .ok i :=
  Request.inquiry_of_read c.declaredLength_request c.route_request hReads

/-! ## Long queries -/

/-- A URL is at least as long as what is asked there. -/
theorem length_encode_le_size (url : Url) (key value : String) :
    (FormUrl.encode value.toList).length ≤ (Octets.ofString (url.ask key value).text).size := by
  refine Nat.le_trans ?_ (Octets.length_le_size _)
  simp only [Url.text, Url.ask, String.toList_ofList, Option.map_some, Option.getD_some,
    List.length_append, List.length_cons]
  omega

/-- No request can be made for a long name without plain characters, each of which takes three in
    the URL. -/
theorem canBeMade_of_long {address name : String}
    (hName : ∀ c ∈ name.toList, ∀ b ∈ String.utf8EncodeChar c,
      FormUrl.isPlain b = false ∧ b ≠ 0x20)
    (hLong : Url.requestLimit < 3 * name.toList.length) :
    (discovery address name).canBeMade = false := by
  have hNamed : (discovery address name).name? = some name := by
    refine if_neg fun hEmpty => ?_
    rw [String.isEmpty_iff.1 hEmpty] at hLong
    exact absurd hLong (by decide)
  cases hFront : (discovery address name).front? with
  | none => rw [canBeMade, hFront]; rfl
  | some url =>
    have hSize : Url.requestLimit < (Octets.ofString (url.ask "name" name).text).size :=
      Nat.lt_of_lt_of_le hLong
        (Nat.le_trans (FormUrl.length_encode hName) (length_encode_le_size url "name" name))
    rw [canBeMade, hFront, Option.map_some, Option.any_some, asking, hNamed]
    simp only [Url.isRequestable, decide_eq_false (Nat.not_le.2 hSize), Bool.and_false]

/-! ## Bodies -/

/-- A body that is not too long is read as what was written. -/
theorem json_request {α : Type} {c : PeerCall} {d : Decoder α} {v : Value} {a : α}
    (body : c.body = some v) (exact_body : v.Exact) (reads : d.Reads v a)
    (fits : (Octets.ofText v.compact).size ≤ bodyLimit) : c.request.json d = .ok a := by
  have typed : ((c.request.header? "content-type").bind readable?).any isJson = true := by
    have headers : c.request.headers = [("content-type", Response.jsonType)] := by
      rw [request, body]
      rfl
    rw [Request.header?, headers]
    decide
  have sent : c.request.body = Octets.ofText v.compact := by rw [request, body]
  have short : ¬ c.request.readLimit < (Octets.ofText v.compact).size := by
    rw [Request.readLimit, declaredLength_request]
    exact Nat.not_lt.2 (by simpa using fits)
  rw [Request.json, typed, sent, if_neg short, decodeHead_compact exact_body reads]
  rfl

/-! ## Inquiries -/

/-- A write that is forwarded asks for itself, if its body is not too long. -/
theorem inquiry_write (address : String) {w : Write}
    (fits : (Octets.ofText w.body.wire.compact).size ≤ bodyLimit) :
    (write address ⟨w.kind, w.body⟩).request.inquiry = .ok (.call (.write w)) := by
  refine inquiry_request ?_
  have exact_body := w.body.exact_wire
  cases w with
  | register x =>
    have read := json_request (c := write address ⟨.register, x⟩) rfl exact_body x.reads_wire fits
    simp [route, Write.kind, Request.read, Write.body, read]
  | heartbeat c =>
    have read :=
      json_request (c := write address ⟨.heartbeat, _⟩) rfl exact_body c.reads_claim fits
    simp [route, Write.kind, Request.read, Write.body, read]
  | unregister c =>
    have read :=
      json_request (c := write address ⟨.unregister, _⟩) rfl exact_body c.reads_claim fits
    simp [route, Write.kind, Request.read, Write.body, read]

/-- A query that is forwarded asks for its name, whatever characters this has.  An empty name is
    left out, and read as none. -/
@[simp] theorem inquiry_discovery (address name : String) :
    (discovery address name).request.inquiry = .ok (.call (.discover name)) := by
  refine inquiry_request ?_
  have read : serviceName? ((discovery address name).asked.getD []) = some name := by
    rw [asked, name?, serviceName?]
    by_cases empty : name.isEmpty
    · rw [if_pos empty, String.isEmpty_iff.1 empty]
      rfl
    · have key : FormUrl.decode "name".toList = "name".toList := by decide
      have pair : FormUrl.pairs ("name=".toList ++ FormUrl.encode name.toList)
          = [("name".toList, name.toList)] :=
        key ▸ FormUrl.pairs_encode (k := "name".toList) name.toList (by decide)
      rw [if_neg empty, Option.map_some, Option.getD_some, pair]
      simp
  simp [route, Request.read, read]

/-- A probe asks for the health of a node. -/
@[simp] theorem inquiry_probe (address : String) : (probe address).request.inquiry = .ok .health :=
  inquiry_request rfl

/-- A call for the cursors asks for them. -/
@[simp] theorem inquiry_cursors (address : String) :
    (cursors address).request.inquiry = .ok .cursors :=
  inquiry_request rfl

end PeerCall

end ServiceRegistry
