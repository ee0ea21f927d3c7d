/-
  Who may send a heartbeat, and who may be taken out.

  Both calls carry a claim: an id and the identity that goes with it.  A master lets a claim pass
  only when it is that of a stored record.

  1. `Store.Refusal`: the reasons for which a claim is refused, each with the condition it stands
     for; `Write.Granted`: what is done with a record otherwise.  `Store.Coherent.writeStore_claim`
     says that one of the two happens.
  2. `Store.Beaten` and `Store.Parted`: what a granted heartbeat and a granted removal change, for
     all services at once.
  3. `Gated` is how the node answers, with the statuses, the bodies and the changes:
     `gated_of_refusal` where the claim is refused, `gated_of_grant` where it is granted.
-/
import ServiceRegistry.Proofs.Service.Failures
import ServiceRegistry.Proofs.Store.Runs

namespace ServiceRegistry

open Http Json

/-! ## Claims -/

/-- The first field, in the order name, address, port, in which two identities differ. -/
inductive Identity.FirstDiffers (x y : Identity) : IdentityField → Prop
  | service (differs : x.service ≠ y.service) : FirstDiffers x y .service
  | ip (service : x.service = y.service) (differs : x.ip ≠ y.ip) : FirstDiffers x y .ip
  | port (service : x.service = y.service) (ip : x.ip = y.ip) (differs : x.port ≠ y.port) :
      FirstDiffers x y .port

/-- The comparison finds the first field that differs. -/
theorem Identity.firstDiffers_iff {x y : Identity} {f : IdentityField} :
    x.FirstDiffers y f ↔ x.firstDifference y = some f := by
  constructor
  · intro first
    cases first with
    | service differs => simp [firstDifference, differs]
    | ip service differs => simp [firstDifference, service, differs]
    | port service ip differs => simp [firstDifference, service, ip, differs]
  · intro first
    unfold firstDifference at first
    split at first
    · rename_i differs
      cases first
      exact .service differs
    · rename_i service
      have service : x.service = y.service := by simpa using service
      split at first
      · rename_i differs
        cases first
        exact .ip service differs
      · rename_i ip
        have ip : x.ip = y.ip := by simpa using ip
        split at first
        · rename_i differs
          cases first
          exact .port service ip differs
        · cases first

/-- Identities of which a field differs are not the same. -/
theorem Identity.FirstDiffers.ne {x y : Identity} {f : IdentityField} (first : x.FirstDiffers y f) :
    x ≠ y := by
  intro equal
  have none_differs := (firstDifference_eq_none_iff x y).2 equal
  cases none_differs.symm.trans (firstDiffers_iff.1 first)

/-- Only one field is the first to differ. -/
theorem Identity.FirstDiffers.unique {x y : Identity} {f g : IdentityField}
    (first : x.FirstDiffers y f) (again : x.FirstDiffers y g) : f = g :=
  Option.some.inj ((firstDiffers_iff.1 first).symm.trans (firstDiffers_iff.1 again))

/-- A claim that is refused is told the first field in which it differs. -/
theorem Instance.checkClaim_error {x : Instance} {c : Claim} {e : RegistryError}
    (refused : x.checkClaim c = .error e) :
    ∃ f, c.identity.FirstDiffers x.identity f ∧ e = .mismatch x.id f (c.identity.text f) := by
  unfold checkClaim at refused
  split at refused
  · rename_i f first
    cases refused
    exact ⟨f, Identity.firstDiffers_iff.2 first, rfl⟩
  · cases refused

/-- A claim is that of a record when id and identity are. -/
theorem Instance.claim_eq_iff {x : Instance} {c : Claim} :
    x.claim = c ↔ x.id = c.id ∧ c.identity = x.identity := by
  constructor
  · rintro rfl
    exact ⟨rfl, rfl⟩
  · rintro ⟨same, equal⟩
    obtain ⟨id, identity⟩ := c
    rw [claim, same, ← equal]

/-- The writes that carry a claim. -/
inductive Write.Claims : Write → Claim → Prop
  | heartbeat (c : Claim) : Claims (.heartbeat c) c
  | unregister (c : Claim) : Claims (.unregister c) c

/-- What is done with the record whose claim it is, and the table after it. -/
inductive Write.Granted (now : Int64) (x : Instance) (s : Store) : Write → Outcome → Store → Prop
  | heartbeat (c : Claim) : Granted now x s (.heartbeat c)
      (.beaten { x with heartbeat := .ofSecs now }) (s.beat x (.ofSecs now))
  | unregister (c : Claim) : Granted now x s (.unregister c) (.removed x) (s.remove c.id).2

/-- A write with a claim that fails is answered with the id that it was about. -/
theorem Write.Claims.callFailure {w : Write} {c : Claim} (claims : w.Claims c)
    (e : RegistryError) : callFailure (.write w) e = instanceFailure c.id e := by
  cases claims <;> rfl

/-- All that is checked of such a write before the table is its id. -/
theorem Write.Claims.check {w : Write} {c : Claim} (claims : w.Claims c) :
    w.check = Instance.checkId c.id := by
  cases claims <;> rfl

namespace Store

variable {s : Store} {c : Claim} {w : Write}

/-- Why a claim is refused. -/
inductive Refusal (s : Store) (c : Claim) : RegistryError → Prop
  | anonymous (empty : c.id = "") : Refusal s c (.required "serviceId")
  | unknown (given : c.id ≠ "") (nobody : ∀ x ∈ s.all, x.id ≠ c.id) :
      Refusal s c (.unknownId c.id)
  | differs {x : Instance} {f : IdentityField} (there : x ∈ s.all) (same : x.id = c.id)
      (first : c.identity.FirstDiffers x.identity f) :
      Refusal s c (.mismatch x.id f (c.identity.text f))

/-- An id that is stored is not empty, and belongs to one record. -/
theorem Coherent.only_of_id {x : Instance} (h : s.Coherent) (there : x ∈ s.all)
    (same : x.id = c.id) : c.id ≠ "" ∧ ∀ y ∈ s.all, y.id = c.id → y = x := by
  constructor
  · rw [← same]
    exact h.id_ne x there
  · intro y hy eq
    exact h.eq_of_id hy there (eq.trans same.symm)

/-- A claim with an id is refused, or granted by the record whose claim it is. -/
theorem Coherent.writeStore_claim (h : s.Coherent) (claims : w.Claims c) (given : c.id ≠ "")
    (now : Int64) :
    (∃ e, s.Refusal c e ∧ Service.writeStore now w s = (.error e, s))
    ∨ ∃ x o after, x ∈ s.all ∧ x.claim = c ∧ w.Granted now x s o after
        ∧ Service.writeStore now w s = (.ok o, after) := by
  cases found : s.find? c.id with
  | none =>
    refine .inl ⟨_, .unknown given (h.find?_eq_none_iff.1 found), ?_⟩
    cases claims <;> simp only [Service.writeStore, Store.heartbeat, Store.unregister, found]
  | some x =>
    obtain ⟨there, same⟩ := h.find?_eq_some_iff.1 found
    cases check : x.checkClaim c with
    | error e =>
      obtain ⟨f, first, rfl⟩ := Instance.checkClaim_error check
      refine .inl ⟨_, .differs there same first, ?_⟩
      cases claims <;>
        simp only [Service.writeStore, Store.heartbeat, Store.unregister, found, check]
    | ok =>
      have whose : x.claim = c :=
        Instance.claim_eq_iff.2 ⟨same, (x.checkClaim_eq_ok_iff c).1 check⟩
      cases claims with
      | heartbeat =>
        refine .inr ⟨x, _, _, there, whose, .heartbeat c, ?_⟩
        simp only [Service.writeStore, Store.heartbeat, found, check]
        rfl
      | unregister =>
        refine .inr ⟨x, _, _, there, whose, .unregister c, ?_⟩
        simp only [Service.writeStore, Store.unregister, found, check]

/-! ## What is granted -/

/-- The record has its heartbeat at the clock, and nothing else is different. -/
structure Beaten (now : Int64) (x : Instance) (s after : Store) : Prop where
  records : ∀ name, after.ofService name = (s.ofService name).map fun z =>
    if z.id = x.id then { x with heartbeat := ⟨now, Time.readable now.toInt⟩ } else z
  cursors : after.cursors = s.cursors
  names : after.names = s.names
  owners : after.owners = s.owners

/-- The record is gone, the others stand in their order, and the round of its service begins again,
    or its service is gone with it. -/
structure Parted (x : Instance) (s after : Store) : Prop where
  records : ∀ name, after.ofService name = (s.ofService name).filter (·.id ≠ x.id)
  elsewhere : ∀ name, name ≠ x.service → after.cursors.get? name = s.cursors.get? name
  again : after.ofService x.service ≠ [] → after.cursors.get? x.service = some 0
  last : after.ofService x.service = [] → after.cursors.get? x.service = none
    ∧ ∀ entry ∈ after.services.entries, entry.1 ≠ x.service

/-- A record put in the place of another leaves the services as they are listed. -/
@[simp] theorem names_replace (s : Store) (x : Instance) : (s.replace x).names = s.names := by
  unfold replace
  split <;> rfl

/-- It leaves the owners of the endpoints too. -/
@[simp] theorem owners_replace (s : Store) (x : Instance) : (s.replace x).owners = s.owners := by
  unfold replace
  split <;> rfl

/-- A granted heartbeat changes one timestamp of one record. -/
theorem Coherent.beaten {x : Instance} (h : s.Coherent) (now : Int64) :
    Beaten now x s (s.beat x (.ofSecs now)) where
  records name := h.ofService_replace _ name
  cursors := cursors_replace s _
  names := names_replace s _
  owners := owners_replace s _

/-- A granted removal takes one record out. -/
theorem Coherent.parted {x : Instance} (h : s.Coherent) (there : x ∈ s.all) :
    Parted x s (s.remove x.id).2 := by
  have found : s.find? x.id = some x := h.find?_of_mem there
  have records := h.ofService_remove x.id
  have after : (s.remove x.id).2.Coherent := h.remove x.id
  refine ⟨records, ?elsewhere, ?again, ?last⟩
  case elsewhere =>
    intro name other
    rw [h.cursor_remove found, if_neg other]
  case again =>
    intro some_left
    rw [records] at some_left
    rw [h.cursor_remove found, if_pos rfl, if_neg (by simpa using some_left)]
  case last =>
    intro none_left
    constructor
    · rw [records] at none_left
      rw [h.cursor_remove found, if_pos rfl, none_left]
      rfl
    · intro entry listed here
      have same : (s.remove x.id).2.ofService entry.1 = entry.2 := ServiceMap.get_of_mem listed
      rw [here, none_left] at same
      exact after.occupied entry listed same.symm

end Store

/-! ## Requests and answers -/

namespace Http

/-- The status as an answer in the common shape repeats it. -/
def Response.code? (r : Response) : Option Value :=
  match r.body with
  | .json v => v.get? "code"
  | _ => none

/-- A member of the data of an answer in the common shape. -/
def Response.datum? (r : Response) (key : String) : Option Value :=
  match r.body with
  | .json v => (v.get? "data").bind (·.get? key)
  | _ => none

/-- An answer keeps its body, unless only its head was asked for. -/
theorem Request.body_dress {r : Request} (wanted : r.method ≠ "HEAD") (answer : Response) :
    (r.dress answer).body = answer.body := by
  unfold dress trimmed
  rw [if_neg wanted]

/-- A request for a write that carries a claim, with the claim in its body. -/
structure Request.Presents (r : Request) (w : Write) (c : Claim) : Prop where
  claims : w.Claims c
  path : r.path = w.kind.path
  method : r.method = "POST"
  short : r.oversized = false
  body : r.json Claim.decoder = .ok c

namespace Request.Presents

variable {r : Request} {w : Write} {c : Claim}

/-- A write is no request for a head. -/
theorem wanted (p : r.Presents w c) : r.method ≠ "HEAD" := by
  rw [p.method]
  decide

/-- What the node makes of such a request is the write. -/
theorem inquiry (p : r.Presents w c) : r.inquiry = .ok (.call (.write w)) := by
  have route : r.route = .ok (.write w.kind) := by
    have found : Route.list.find? (·.path = r.path) = some (.write w.kind) := by
      rw [p.path]
      exact Route.find?_path (.write w.kind)
    have asks : (Route.write w.kind).methods.contains r.method = true := by
      rw [p.method]
      rfl
    delta Request.route
    rw [found]
    exact if_pos asks
  have reads : r.read (.write w.kind) = .ok (.call (.write w)) := by
    cases p.claims with
    | heartbeat => simp only [Write.kind, read, p.body]
    | unregister => simp only [Write.kind, read, p.body]
  rw [Request.inquiry, p.short, route]
  simp only [reads, Except.mapError]

end Request.Presents

end Http

/-- A claim that another node forwards is presented. -/
theorem PeerCall.presents_write {w : Write} {c : Claim} (claims : w.Claims c) (address : String)
    (fits : (Text.Octets.ofText w.body.wire.compact).size ≤ bodyLimit) :
    (write address ⟨w.kind, w.body⟩).request.Presents w c where
  claims := claims
  path := path_request _
  method := rfl
  short := by
    rw [Request.oversized, declaredLength_request]
    rfl
  body := by
    have reads : Claim.decoder.Reads w.body.wire c := by
      cases claims <;> exact c.reads_claim
    exact json_request rfl w.body.exact_wire reads fits

namespace Service

variable {s : Service} {now : Int64} {w : Write} {c : Claim}

/-- A write that the table refuses fails. -/
theorem writeHere_of_error {e : RegistryError}
    (refused : writeStore now w s.store = (.error e, s.store)) : s.writeHere now w = s.fail e := by
  simp only [writeHere, refused]

/-- A granted write is done at once. -/
theorem writeHere_of_granted {x : Instance} {o : Outcome} {store : Store}
    (granted : w.Granted now x s.store o store)
    (wrote : writeStore now w s.store = (.ok o, store)) :
    (s.writeHere now w).stage = .done (.ok (.here o))
      ∧ (s.writeHere now w).service.store = store := by
  cases granted with
  | heartbeat =>
    unfold writeHere
    rw [wrote]
    exact ⟨rfl, rfl⟩
  | unregister =>
    unfold writeHere
    rw [wrote]
    exact ⟨rfl, rfl⟩

end Service

/-! ## The gate -/

/-- How a master with the table `s` answers a claim, and what becomes of it. -/
structure Gated (s : Store) (now : Int64) (w : Write) (c : Claim) (r : Response) (after : Node) :
    Prop where
  /-- Without an id the claim is refused, and no field is named. -/
  anonymous : c.id = "" → r.status = 400 ∧ r.datum? "fieldMismatch" = none
  unknown : r.status = 404 ↔ c.id ≠ "" ∧ ∀ x ∈ s.all, x.id ≠ c.id
  /-- The first field that differs from the stored record is named. -/
  differs : ∀ x ∈ s.all, x.id = c.id → ∀ f, c.identity.FirstDiffers x.identity f →
    r.status = 400 ∧ r.datum? "fieldMismatch" = some (.string f.name)
  granted : r.status = 200 ↔ ∃ x ∈ s.all, x.claim = c
  unchanged : r.status ≠ 200 → after.service.store = s
  beaten : ∀ x ∈ s.all, x.claim = c → w = .heartbeat c → Store.Beaten now x s after.service.store
  parted : ∀ x ∈ s.all, x.claim = c → w = .unregister c → Store.Parted x s after.service.store
  /-- A service that has lost its last record is not found any more. -/
  unheard : ∀ x ∈ s.all, x.claim = c → w = .unregister c → x.service ≠ "" →
    after.service.store.ofService x.service = [] →
    ∀ (later : Int64) (uptime : Nat) (q : Request), q.inquiry = .ok (.call (.discover x.service)) →
      ∃ answer, (after.receive later uptime q).handled = .answered answer ∧ answer.status = 404
  code : r.code? = some (.nat r.status)

section Gate

variable {n : Node} {s : Store} {now : Int64} {uptime : Nat} {request : Request} {w : Write}
  {c : Claim}

/-- What can be read off an answer in the common shape. -/
theorem Http.Request.Presents.read_enveloped (p : request.Presents w c) (status : Nat)
    (msg : String) (data : Value) :
    let r := request.dress (.enveloped status msg data)
    r.status = status ∧ r.code? = some (.nat status) ∧ ∀ key, r.datum? key = data.get? key := by
  intro r
  have body : r.body = .json (Response.envelope status msg data) :=
    Request.body_dress p.wanted _
  refine ⟨request.status_dress _, ?_, fun key => ?_⟩
  · rw [Response.code?, body]
    rfl
  · rw [Response.datum?, body]
    rfl

/-- What can be read off the answer to a claim that is refused. -/
theorem Http.Request.Presents.read_refused (p : request.Presents w c) (e : RegistryError) :
    let r := request.dress (instanceFailure c.id e)
    r.status = e.status ∧ r.code? = some (.nat r.status)
      ∧ ∀ key, r.datum? key = (instanceFailureData c.id e).get? key := by
  intro r
  obtain ⟨status, code, datum⟩ :=
    p.read_enveloped e.status e.message (instanceFailureData c.id e)
  refine ⟨status, ?_, datum⟩
  rw [show r.status = e.status from status]
  exact code

/-- Another state of the service leaves the role. -/
@[simp] theorem Node.isMaster_withService (n : Node) (service : Service) :
    (n.withService service).isMaster = n.isMaster := by
  cases n <;> rfl

/-- The node has the state that it was given. -/
@[simp] theorem Node.service_withService (n : Node) (service : Service) :
    (n.withService service).service = service := by
  cases n <;> rfl

/-- Where the claim is nobody's there is nothing to be said of what is granted. -/
theorem Gated.of_foreign {r : Response} {after : Node} (foreign : ∀ x ∈ s.all, x.claim ≠ c)
    (refused : r.status ≠ 200) (kept : after.service.store = s)
    (anonymous : c.id = "" → r.status = 400 ∧ r.datum? "fieldMismatch" = none)
    (unknown : r.status = 404 ↔ c.id ≠ "" ∧ ∀ x ∈ s.all, x.id ≠ c.id)
    (differs : ∀ x ∈ s.all, x.id = c.id → ∀ f, c.identity.FirstDiffers x.identity f →
      r.status = 400 ∧ r.datum? "fieldMismatch" = some (.string f.name))
    (code : r.code? = some (.nat r.status)) : Gated s now w c r after where
  anonymous := anonymous
  unknown := unknown
  differs := differs
  granted := by
    constructor
    · intro granted
      exact absurd granted refused
    · rintro ⟨x, there, whose⟩
      exact absurd whose (foreign x there)
  unchanged _ := kept
  beaten x there whose := absurd whose (foreign x there)
  parted x there whose := absurd whose (foreign x there)
  unheard x there whose := absurd whose (foreign x there)
  code := code

/-- A master that refuses a claim answers as it must: each reason has its status, its field and its
    effect, which is none. -/
theorem gated_of_refusal (h : s.Coherent) (p : request.Presents w c) {e : RegistryError}
    (refusal : s.Refusal c e) {after : Node} (kept : after.service.store = s) :
    Gated s now w c (request.dress (instanceFailure c.id e)) after := by
  obtain ⟨status, code, datum⟩ := p.read_refused e
  generalize request.dress (instanceFailure c.id e) = r at status code datum ⊢
  cases refusal with
  | anonymous empty =>
    have status : r.status = 400 := status
    have nobody : ∀ x ∈ s.all, x.id ≠ c.id := by
      intro x there same
      exact h.id_ne x there (same.trans empty)
    refine .of_foreign (fun x there whose => nobody x there (Instance.claim_eq_iff.1 whose).1)
      (by simp [status]) kept (fun _ => ⟨status, ?_⟩) (by simp [status, empty])
      (fun x there same => absurd same (nobody x there)) code
    rw [datum]
    simp [instanceFailureData, RegistryError.required, textMembers, textMember, empty, Value.get?]
  | unknown given nobody =>
    have status : r.status = 404 := status
    refine .of_foreign (fun x there whose => nobody x there (Instance.claim_eq_iff.1 whose).1)
      (by simp [status]) kept (fun empty => absurd empty given) ?_
      (fun x there same => absurd same (nobody x there)) code
    exact ⟨fun _ => ⟨given, nobody⟩, fun _ => status⟩
  | @differs x f there same first =>
    -- the record of the id is not the one claimed, and there is only this one to compare with
    have status : r.status = 400 := status
    obtain ⟨named, only⟩ := h.only_of_id there same
    refine .of_foreign ?foreign (by simp [status]) kept (fun empty => absurd empty named) ?known
      ?naming code
    case foreign =>
      intro y hy whose
      obtain ⟨eq, equal⟩ := Instance.claim_eq_iff.1 whose
      obtain rfl := only y hy eq
      exact first.ne equal
    case known =>
      constructor
      · intro gone
        cases status.symm.trans gone
      · rintro ⟨-, nobody⟩
        exact absurd same (nobody x there)
    case naming =>
      intro y hy eq g again
      obtain rfl := only y hy eq
      obtain rfl := first.unique again
      refine ⟨status, ?_⟩
      rw [datum]
      cases f <;>
        simp [instanceFailureData, textMembers, textMember, named, Value.get?, IdentityField.name]

/-- A master that grants a claim answers as it must, and changes the table by the one record. -/
theorem gated_of_grant (h : s.Coherent) (p : request.Presents w c) {x : Instance} {o : Outcome}
    {store : Store} {after : Node} (there : x ∈ s.all) (whose : x.claim = c)
    (granted : w.Granted now x s o store) (kept : after.service.store = store)
    (leads : after.isMaster = true) :
    Gated s now w c (request.dress (success (.write w) o)) after := by
  obtain ⟨same, equal⟩ := Instance.claim_eq_iff.1 whose
  -- the id of the claim is given, and no other record has it
  obtain ⟨named, only⟩ := h.only_of_id there same
  have answer : ∃ msg data, success (.write w) o = .enveloped 200 msg data := by
    cases granted <;> exact ⟨_, _, rfl⟩
  obtain ⟨msg, data, answer⟩ := answer
  obtain ⟨status, code, -⟩ := p.read_enveloped 200 msg data
  rw [answer]
  generalize request.dress (.enveloped 200 msg data) = r at status code ⊢
  refine ⟨fun empty => absurd empty named, ?unknown, ?differs, ?granted,
    fun refused => absurd status refused, ?beaten, ?parted, ?unheard, status ▸ code⟩
  case unknown =>
    constructor
    · intro gone
      cases status.symm.trans gone
    · rintro ⟨-, nobody⟩
      exact absurd same (nobody x there)
  case differs =>
    intro y hy eq f first
    obtain rfl := only y hy eq
    exact absurd equal first.ne
  case granted => exact ⟨fun _ => ⟨x, there, whose⟩, fun _ => status⟩
  case beaten =>
    rintro y hy again rfl
    obtain rfl := only y hy (Instance.claim_eq_iff.1 again).1
    cases granted with
    | heartbeat =>
      rw [kept]
      exact h.beaten now
  case parted =>
    rintro y hy again rfl
    obtain rfl := only y hy (Instance.claim_eq_iff.1 again).1
    cases granted with
    | unregister =>
      rw [kept, ← same]
      exact h.parted there
  case unheard =>
    intro y hy again removes named nobody later uptime q asks
    exact Node.receive_discovery_of_nobody leads named nobody asks

end Gate

/-- A well-formed heartbeat or removal that comes to a master, after whatever was done to its table,
    is answered in one turn, and passes only when its claim is that of a stored record. -/
theorem claims_gate (past : List (Int64 × Store.Operation)) (n : Node) (now : Int64) (uptime : Nat)
    (request : Request) (w : Write) (c : Claim) (leads : n.isMaster = true)
    (reached : n.service.store = Store.run past {}) (presents : request.Presents w c) :
    ∃ answer, (n.receive now uptime request).handled = .answered answer
      ∧ Gated n.service.store now w c answer (n.receive now uptime request).node := by
  have coherent : n.service.store.Coherent := reached ▸ Store.coherent_empty.run past
  have claims := presents.claims
  have received : n.receive now uptime request
      = n.handling request (.write w) (n.service.begin n.isMaster now (.write w)) :=
    Node.receive_of_call presents.inquiry
  rw [leads] at received
  -- an empty id is refused before the table is looked at
  by_cases empty : c.id = ""
  · have unfit : w.check = .error (.required "serviceId") := by
      rw [claims.check, empty]
      rfl
    rw [Service.begin_of_unfit unfit, Node.handling_fail, claims.callFailure] at received
    rw [received]
    exact ⟨_, rfl, gated_of_refusal coherent presents (.anonymous empty) rfl⟩
  · have fit : w.check = .ok () := by
      rw [claims.check]
      exact (Instance.checkId_eq_ok_iff c.id).2 empty
    rw [Service.begin_of_fit fit, if_pos rfl] at received
    rcases coherent.writeStore_claim claims empty now with
      ⟨e, refusal, refused⟩ | ⟨x, o, after, there, whose, granted, wrote⟩
    · rw [Service.writeHere_of_error refused, Node.handling_fail, claims.callFailure] at received
      rw [received]
      exact ⟨_, rfl, gated_of_refusal coherent presents refusal rfl⟩
    · obtain ⟨done, kept⟩ := Service.writeHere_of_granted granted wrote
      rw [Node.handling_of_done done] at received
      rw [received]
      refine ⟨_, rfl, gated_of_grant coherent presents there whose granted ?_ ?_⟩
      · simpa using kept
      · simpa using leads

/-- A record is claimed with another port, and then it is taken out, the last one of its service. -/
theorem claims_gate_of_last :
    let own : Claim := ⟨"i", ⟨"s", "h", 80⟩⟩
    let other : Claim := ⟨"i", ⟨"s", "h", 81⟩⟩
    let past : List (Int64 × Store.Operation) := [(5, .register ⟨own.id, own.identity, {}, {}⟩)]
    let n : Node := .standalone "a" { store := Store.run past {} }
    let beat := (PeerCall.write "a" ⟨.heartbeat, Write.body (.heartbeat other)⟩).request
    let leave := (PeerCall.write "a" ⟨.unregister, Write.body (.unregister own)⟩).request
    let ask := (PeerCall.discovery "a" "s").request
    beat.Presents (.heartbeat other) other ∧ leave.Presents (.unregister own) own
      ∧ (∃ answer, (n.receive 7 1 beat).handled = .answered answer ∧ answer.status = 400
          ∧ answer.datum? "fieldMismatch" = some (.string "port"))
      ∧ (∃ answer, (n.receive 8 1 leave).handled = .answered answer ∧ answer.status = 200)
      ∧ ∃ answer, ((n.receive 8 1 leave).node.receive 9 1 ask).handled = .answered answer
          ∧ answer.status = 404 := by
  intro own other past n beat leave ask
  have presents : beat.Presents (.heartbeat other) other :=
    PeerCall.presents_write (.heartbeat other) "a" (by decide +kernel)
  have presents' : leave.Presents (.unregister own) own :=
    PeerCall.presents_write (.unregister own) "a" (by decide +kernel)
  obtain ⟨answer, told, gate⟩ := claims_gate past n 7 1 beat _ other rfl rfl presents
  obtain ⟨answer', told', gate'⟩ := claims_gate past n 8 1 leave _ own rfl rfl presents'
  let x : Instance := ⟨own.id, own.identity, .ofSecs 5, .ofSecs 5⟩
  have there : x ∈ n.service.store.all := by decide
  obtain ⟨refused, named⟩ := gate.differs x there rfl .port (.port rfl rfl (by decide))
  have granted := gate'.granted.2 ⟨x, there, rfl⟩
  have nobody : (n.receive 8 1 leave).node.service.store.ofService x.service = [] := by
    rw [(gate'.parted x there rfl rfl).records]
    decide
  exact ⟨presents, presents', ⟨answer, told, refused, named⟩, ⟨answer', told', granted⟩,
    gate'.unheard x there rfl rfl (by decide) nobody 9 1 ask (PeerCall.inquiry_discovery "a" "s")⟩

end ServiceRegistry
