/-
  A request to a slave is answered as the master would answer it.

  A slave checks a write, or reads the name in a query, and puts what it read to its master as a
  call of its own; the answer to that call it passes on unread.  Two paths lead from a request to an
  answer, then: straight to the master, or through a slave.  They meet in three places:

    * a request that asks nothing is answered without looking at the node (`receive_of_refused`);
    * a write that fails its first check fails it on every node (`begin_of_unfit`);
    * anything else arrives at the master as the inquiry it was (`inquiry_write`,
      `inquiry_discovery`), and the master's answer survives being passed on (`relay_enveloped`).

  `Member.pass` is the way through a slave, turn by turn; `pass_transparent` is the result.  The
  call has to be one that can be made.  The name in a query grows when it is written into a URL, and
  a URL may be too long for a request where the query of the client was not: `pass_of_unmade` is
  what a slave does then, and `pass_of_long_name` such a query.
-/
import ServiceRegistry.Proofs.Calls
import ServiceRegistry.Proofs.Handling

namespace ServiceRegistry

open Http Json Text

/-! ## Answers -/

namespace Http

/-- The paths that clients call. -/
def clientPaths : List String :=
  ["/api/register", "/api/unregister", "/api/heartbeat", "/api/discovery"]

/-- Two responses that a client cannot tell apart: bodies count by their bytes. -/
def Response.Agrees (r s : Response) : Prop :=
  r.status = s.status ∧ r.type = s.type ∧ r.allow = s.allow ∧ r.id = s.id
    ∧ r.body.octets = s.body.octets

theorem Response.Agrees.refl (r : Response) : r.Agrees r := ⟨rfl, rfl, rfl, rfl, rfl⟩

/-- What the router does to answers it does alike to answers that agree. -/
theorem Response.Agrees.dress {a b : Response} (h : a.Agrees b) (r : Request) :
    (r.dress a).Agrees (r.dress b) := by
  obtain ⟨status, type, allow, -, octets⟩ := h
  unfold Request.dress Request.trimmed
  split
  · exact ⟨status, type, allow, rfl, rfl⟩
  · exact ⟨status, type, allow, rfl, octets⟩

theorem callFailure_enveloped (c : Call) (e : RegistryError) :
    ∃ msg data, callFailure c e = .enveloped e.status msg data := by
  match c with
  | .write (.register _) => cases e <;> exact ⟨_, _, rfl⟩
  | .write (.heartbeat _) => exact ⟨_, _, rfl⟩
  | .write (.unregister _) => exact ⟨_, _, rfl⟩
  | .discover _ => cases e <;> exact ⟨_, _, rfl⟩

/-- Answers that are made on a node have the common shape, and a status that may be passed on. -/
theorem answerTo_of_here (c : Call) {result : Except RegistryError (Routed Outcome)}
    (here : ∀ r, result ≠ .ok (.relayed r)) :
    ∃ status msg data, answerTo c result = .enveloped status msg data
      ∧ 100 ≤ status ∧ status < 1000 := by
  match result with
  | .ok (.relayed r) => exact absurd rfl (here r)
  | .ok (.here o) => cases o <;> exact ⟨200, _, _, rfl, by decide, by decide⟩
  | .error e =>
    obtain ⟨msg, data, enveloped⟩ := callFailure_enveloped c e
    have status := e.status_mem
    simp only [List.mem_cons, List.not_mem_nil, or_false] at status
    exact ⟨_, msg, data, enveloped, by omega, by omega⟩

end Http

/-- An answer in the common shape to a call of another node is the same when it has been passed
    on. -/
theorem relay_enveloped {status : Nat} (least : 100 ≤ status) (most : status < 1000) (msg : String)
    (data : Value) (c : PeerCall) :
    (relay (c.request.dress (.enveloped status msg data)).relayed).Agrees
      (.enveloped status msg data) := by
  have passed : (100 ≤ status && status < 1000 : Bool) = true := by simp [least, most]
  rw [c.dress_request]
  refine ⟨?_, rfl, rfl, rfl, rfl⟩
  show (if (100 ≤ status && status < 1000 : Bool) then status else 502) = status
  rw [if_pos passed]

/-! ## What a request can ask -/

/-- Only calls are asked for on the paths of clients. -/
theorem inquiry_is_call {r : Request} {i : Inquiry} (path : r.path ∈ clientPaths)
    (asks : r.inquiry = .ok i) : ∃ c, i = .call c := by
  obtain ⟨route, routed, reads⟩ : ∃ route, r.route = .ok route ∧ r.read route = .ok i := by
    unfold Request.inquiry at asks
    split at asks <;> rename_i routed
    · cases asks
    · cases asks
    · refine ⟨_, routed, ?_⟩
      cases reads : r.read _ with
      | error => rw [reads] at asks; cases asks
      | ok => rw [reads] at asks; exact asks
    · cases asks
  -- the path is that of the route, so it is one of the four
  have same : route.path = r.path := by
    unfold Request.route at routed
    split at routed
    · cases routed
    · rename_i found
      split at routed
      · cases routed
        simpa using List.find?_some found
      · cases routed
  rw [← same] at path
  cases route with
  | write kind =>
    cases kind <;> rw [Request.read] at reads <;> split at reads <;> cases reads <;>
      exact ⟨_, rfl⟩
  | discovery =>
    rw [Request.read] at reads
    split at reads <;> cases reads
    exact ⟨_, rfl⟩
  | sync | cursors | health | metrics => exact absurd path (by decide)

/-! ## The way to the master and back -/

/-- A client's call, as it is put to the node at an address. -/
def PeerCall.forwarding (address : String) : Call → PeerCall
  | .write w => .write address ⟨w.kind, w.body⟩
  | .discover name => .discovery address name

/-- The reply of a node to a call, with what is left of the node and what it orders.  A call that
    cannot be made does not arrive. -/
def Node.reply (n : Node) (now : Int64) (uptime : Nat) (call : PeerCall) :
    Option Relayed × Node × List Order :=
  if call.canBeMade then
    let there := n.receive now uptime call.request
    (there.reply, there.node, there.orders)
  else (none, n, [])

/-- A call that waits goes on: with a reply, or after the grace period. -/
def Node.resume (n : Node) (p : Pending) : Option (Except RegistryError Relayed) → Handling
  | some reply => n.hear p reply
  | none => n.wake p

namespace Member

/-- What a call that waits at a stage is told by the master, nothing where it only rests, and what
    that leaves there. -/
def consult (m : Member) (stage : Stage) (master : Node) (now : Int64) (uptime : Nat) :
    Option (Except RegistryError Relayed) × Node × List Order :=
  match m.forward stage with
  | none => (none, master, [])
  | some (.error e) => (some (.error e), master, [])
  | some (.ok call) =>
    let (reply, master, orders) := master.reply now uptime call
    (some (call.relayed reply), master, orders)

/-- What is left of a request that has been answered: the answer, the master and what it orders, and
    the table of the node that was asked, before and after each of its turns. -/
structure Passage where
  answer : Response
  master : Node
  orders : List Order
  turns : List (Store × Store)

/-- A passage with a turn in front. -/
def Passage.after (turn : Store × Store) (orders : List Order) (p : Passage) : Passage :=
  { p with orders := orders ++ p.orders, turns := turn :: p.turns }

/-- How a request comes to its answer, from a turn on that has found a member.  Between its turns
    other things happen: the list holds the member as each later turn finds it. -/
def proceed (now : Int64) (uptimeThere : Nat) :
    List Member → Member → Handling → Node → Option Passage
  | later, found, turn, master =>
    match turn.handled, later with
    | .answered r, _ => some ⟨r, master, [], [(found.store, turn.node.service.store)]⟩
    | .waiting _, [] => none
    | .waiting p, next :: later =>
      let (reply, master, orders) := found.consult p.stage master now uptimeThere
      (proceed now uptimeThere later next ((Node.member next).resume p reply) master).map
        (·.after (found.store, turn.node.service.store) orders)

/-- A request arrives at a member, which puts it to its master when it must. -/
def pass (m : Member) (later : List Member) (master : Node) (now : Int64)
    (uptime uptimeThere : Nat) (request : Request) : Option Passage :=
  proceed now uptimeThere later m ((Node.member m).receive now uptime request) master

/-- What `pass` leaves is what the master leaves when it is asked itself, and the tables of the node
    that was asked stay as they are. -/
structure Passage.Transparent (p : Passage) (direct : Handling) : Prop where
  answer : ∃ r, direct.handled = .answered r ∧ p.answer.Agrees r
  master : p.master = direct.node
  orders : p.orders = direct.orders
  turns : ∀ t ∈ p.turns, t.2 = t.1

section Pass

variable {m next : Member} {later : List Member} {master : Node} {now : Int64}
  {uptime uptimeThere : Nat} {request : Request}

theorem proceed_of_answered {turn : Handling} {r : Response} (hDone : turn.handled = .answered r) :
    proceed now uptimeThere later m turn master
      = some ⟨r, master, [], [(m.store, turn.node.service.store)]⟩ := by
  unfold proceed
  rw [hDone]

theorem proceed_of_waiting {turn : Handling} {p : Pending} (hWaits : turn.handled = .waiting p) :
    proceed now uptimeThere (next :: later) m turn master
      = let (reply, there, orders) := m.consult p.stage master now uptimeThere
        (proceed now uptimeThere later next ((Node.member next).resume p reply) there).map
          (·.after (m.store, turn.node.service.store) orders) := by
  conv_lhs => unfold proceed
  rw [hWaits]

/-- An answer that the member gives itself is transparent when the master leaves the same. -/
theorem pass_of_answered {r : Response}
    (hHere : (Node.member m).receive now uptime request
      = { node := .member m, handled := .answered r })
    (hThere : master.receive now uptimeThere request
      = { node := master, handled := .answered r }) :
    ∃ p, m.pass later master now uptime uptimeThere request = some p
      ∧ p.Transparent (master.receive now uptimeThere request) := by
  refine ⟨⟨r, master, [], [(m.store, m.store)]⟩, ?_, ?_⟩
  · rw [pass, hHere, proceed_of_answered rfl]
    rfl
  · rw [hThere]
    exact ⟨⟨r, rfl, .refl r⟩, rfl, rfl, by simp⟩

/-- A call that is put to the master, where it arrives as what it was. -/
theorem pass_of_forwarded {c : Call} {service : Service} {stage : Stage} {call : PeerCall}
    (hAsks : request.inquiry = .ok (.call c))
    (hWaits : m.service.begin m.isMaster now c = ⟨service, [], stage⟩) (hRelays : stage.Relays)
    (hKept : service.store = m.store) (hGoes : m.forward stage = some (.ok call))
    (hMade : call.canBeMade = true) (hArrives : call.request.inquiry = .ok (.call c))
    (hLeads : master.isMaster = true) :
    ∃ p, m.pass (next :: later) master now uptime uptimeThere request = some p
      ∧ p.Transparent (master.receive now uptimeThere request) := by
  let turn := master.service.begin true now c
  obtain ⟨result, hDone, hHere⟩ : turn.Local := master.service.begin_local now c
  -- the two requests differ, but the master reads the same from both
  have hReached {r : Request} (asks : r.inquiry = .ok (.call c)) :
      master.receive now uptimeThere r = {
        node := master.withService turn.service
        orders := master.sent turn.orders
        handled := .answered (r.dress (answerTo c result)) } := by
    rw [Node.receive_of_call asks, hLeads]
    exact Node.handling_of_done hDone
  let answer := (call.request.dress (answerTo c result)).relayed
  have hFirst : (Node.member m).receive now uptime request
      = { node := .member { m with service }, handled := .waiting ⟨request, c, stage⟩ } := by
    rw [Node.receive_of_call hAsks]
    exact (congrArg _ hWaits).trans (Node.handling_of_relays hRelays)
  have hReply : m.consult stage master now uptimeThere = (some (.ok answer),
      master.withService turn.service, master.sent turn.orders) := by
    simp only [consult, hGoes, Node.reply, hMade, hReached hArrives]
    rfl
  have hLast : (Node.member next).resume ⟨request, c, stage⟩ (some (.ok answer))
      = { node := .member next, handled := .answered (request.dress (relay answer)) } :=
    Node.hear_of_relays hRelays
  -- the master's answer is its own, so it has the common shape and survives being passed on
  obtain ⟨status, msg, data, hShape, hLeast, hMost⟩ := answerTo_of_here c hHere
  have hAgrees : (relay answer).Agrees (answerTo c result) := by
    simp only [answer, hShape]
    exact relay_enveloped hLeast hMost msg data call
  refine ⟨⟨request.dress (relay answer), master.withService turn.service,
    master.sent turn.orders ++ [], [(m.store, service.store), (next.store, next.store)]⟩, ?_, ?_⟩
  · rw [pass, hFirst, proceed_of_waiting rfl, hReply]
    simp only [hLast]
    rw [proceed_of_answered rfl]
    rfl
  · rw [hReached hAsks]
    exact ⟨⟨_, rfl, hAgrees.dress request⟩, rfl, List.append_nil _, by simp [hKept]⟩

/-- A slave with a pointer to the master answers as the master does, whatever the request to one of
    the paths of clients, provided that the call to the master can be made, and that the body of a
    write is not too long when written anew. -/
theorem pass_transparent {address : String} (slave : m.coordinator.role = .slave)
    (pointer : m.coordinator.master = some address) (leads : master.isMaster = true)
    (path : request.path ∈ clientPaths)
    (made : ∀ c, request.inquiry = .ok (.call c) →
      (PeerCall.forwarding address c).canBeMade = true)
    (fits : ∀ w, request.inquiry = .ok (.call (.write w)) →
      (Octets.ofText w.body.wire.compact).size ≤ bodyLimit) :
    ∃ p, m.pass (next :: later) master now uptime uptimeThere request = some p
      ∧ p.Transparent (master.receive now uptimeThere request) := by
  have hFollows : m.isMaster = false := by simp [isMaster, Coordinator.isMaster, slave]
  cases asks : request.inquiry with
  | error answer =>
    exact pass_of_answered (Node.receive_of_refused asks) (Node.receive_of_refused asks)
  | ok i =>
    obtain ⟨c, rfl⟩ := inquiry_is_call path asks
    cases c with
    | write w =>
      cases check : w.check with
      | error e =>
        -- the check looks at nothing but the write
        have hRefused (n : Node) (uptime : Nat) : n.receive now uptime request
            = { node := n, handled := .answered (request.dress (callFailure (.write w) e)) } := by
          rw [Node.receive_of_call asks, Service.begin_of_unfit check, Node.handling_fail]
        exact pass_of_answered (hRefused _ _) (hRefused _ _)
      | ok =>
        have hWaits : m.service.begin m.isMaster now (.write w)
            = ⟨m.service.count .forwardedRequests, [], .forwarding ⟨w.kind, w.body⟩⟩ := by
          rw [Service.begin_of_fit check, hFollows]
          rfl
        have hGoes : m.forward (.forwarding ⟨w.kind, w.body⟩)
            = some (.ok (.forwarding address (.write w))) := by
          simp [forward, forwardTo, pointer, Except.map, PeerCall.forwarding]
        exact pass_of_forwarded asks hWaits (.forwarding _) rfl hGoes (made _ asks)
          (PeerCall.inquiry_write address (fits w asks)) leads
    | discover name =>
      have hWaits : m.service.begin m.isMaster now (.discover name)
          = ⟨m.service.count .forwardedRequests, [], .asking name 1⟩ := by rw [hFollows]; rfl
      have hGoes : m.forward (.asking name 1)
          = some (.ok (.forwarding address (.discover name))) := by
        simp [forward, forwardTo, pointer, Except.map, PeerCall.forwarding]
      exact pass_of_forwarded asks hWaits (.asking _ _) rfl hGoes (made _ asks)
        (PeerCall.inquiry_discovery address name) leads

end Pass

/-- A registration reaches the master of a pair through the other node, whose table has been emptied
    meanwhile. -/
theorem pass_transparent_registration :
    let member (self : String) (store : Store) : Member :=
      { coordinator :=
          { membership := ⟨self, ["http://a:8180", "http://b:8181"], "http://a:8180"⟩
            master := some "http://a:8180", started := true }
        service := { store } }
    let held := (({} : Store).merge 9 ⟨"i", ⟨"s", "h", 80⟩, .ofSecs 5, .ofSecs 5⟩).2
    let x : Instance := { id := "j", identity := ⟨"s", "h", 81⟩ }
    let request := (PeerCall.write "http://b:8181" ⟨.register, x⟩).request
    let slave := member "http://b:8181"
    let master := Node.member (member "http://a:8180" held)
    ∃ p, (slave held).pass [slave {}] master 9 1 2 request = some p
      ∧ p.Transparent (master.receive 9 2 request) := by
  intro member held x request slave master
  have hAsks : request.inquiry = .ok (.call (.write (.register x))) :=
    PeerCall.inquiry_write (w := .register x) "http://b:8181" (by decide +kernel)
  refine pass_transparent (by decide) (rfl : _ = some "http://a:8180") (by decide) (by decide)
    (fun c hSame => ?_) fun w hSame => ?_
  · rw [hAsks] at hSame
    cases hSame
    decide +kernel
  · rw [hAsks] at hSame
    cases hSame
    decide +kernel

/-! ## Calls that cannot be made -/

/-- The member takes the node at an address for the master. -/
structure Follows (m : Member) (address : String) : Prop where
  slave : m.coordinator.role = .slave
  pointer : m.coordinator.master = some address

section Unmade

variable {m found : Member} {later : List Member} {master : Node} {now : Int64}
  {uptime uptimeThere : Nat} {request : Request} {address name : String}

theorem Follows.isMaster (h : m.Follows address) : m.isMaster = false := by
  simp [Member.isMaster, Coordinator.isMaster, h.slave]

/-- The master gets nothing of a query that cannot be put to it. -/
theorem Follows.consult_of_unmade (h : m.Follows address) (left : Nat)
    (hUnmade : (PeerCall.discovery address name).canBeMade = false) :
    m.consult (.asking name left) master now uptime
      = (some (.error (PeerCall.discovery address name).unreachable), master, []) := by
  have hGoes : m.forward (.asking name left) = some (.ok (.discovery address name)) := by
    simp [forward, forwardTo, h.pointer, Except.map]
  simp only [consult, hGoes, Node.reply, hUnmade]
  rfl

/-- An attempt that cannot be made takes two turns: the failure is heard, and the grace period
    passes. -/
theorem proceed_of_attempt {next last : Member} {left : Nat} {turn : Handling}
    (hUnmade : (PeerCall.discovery address name).canBeMade = false) (hFound : found.Follows address)
    (hWaits : turn.handled = .waiting ⟨request, .discover name, .asking name left⟩) :
    ∃ turns, proceed now uptimeThere (next :: last :: later) found turn master
      = (proceed now uptimeThere later last
          ((Node.member last).wake ⟨request, .discover name, .resting name left⟩) master).map
        fun p => { p with turns := turns ++ p.turns } := by
  let heard := (Node.member next).resume ⟨request, .discover name, .asking name left⟩
    (some (.error (PeerCall.discovery address name).unreachable))
  have hRests : heard.handled = .waiting ⟨request, .discover name, .resting name left⟩ := rfl
  have hAlone : next.consult (.resting name left) master now uptimeThere = (none, master, []) := rfl
  refine ⟨[(found.store, turn.node.service.store), (next.store, heard.node.service.store)], ?_⟩
  rw [proceed_of_waiting hWaits, hFound.consult_of_unmade left hUnmade]
  show (proceed now uptimeThere (last :: later) next heard master).map _ = _
  rw [proceed_of_waiting hRests, hAlone]
  exact Option.map_map ..

/-- However many attempts are left, a query that cannot be put to the master is given up. -/
theorem proceed_of_unmade (hUnmade : (PeerCall.discovery address name).canBeMade = false)
    (left : Nat) (turn : Handling) (hFound : found.Follows address)
    (hLater : ∀ l ∈ later, l.Follows address) (hEnough : 2 * left + 2 ≤ later.length)
    (hWaits : turn.handled = .waiting ⟨request, .discover name, .asking name left⟩) :
    ∃ p, proceed now uptimeThere later found turn master = some p ∧ p.master = master
      ∧ p.answer = request.dress
          (callFailure (.discover name) (.unavailable "no reachable master")) := by
  -- on the attempts that are left: each takes two states of the slave, one to fail and one to wake
  induction left generalizing later found turn with
  | zero =>
    match later, hEnough with
    | next :: last :: later, _ =>
      obtain ⟨turns, hTurns⟩ :
          ∃ turns, proceed now uptimeThere (next :: last :: later) found turn master = _ :=
        proceed_of_attempt hUnmade hFound hWaits
      have hFollows : last.Follows address := hLater last (by simp)
      have hGivenUp : ((Node.member last).wake ⟨request, .discover name, .resting name 0⟩).handled
          = .answered (request.dress
              (callFailure (.discover name) (.unavailable "no reachable master"))) := by
        show (Node.handling _ _ _ (last.service.seek last.isMaster name 0)).handled = _
        rw [hFollows.isMaster]
        rfl
      rw [hTurns, proceed_of_answered hGivenUp]
      exact ⟨_, rfl, rfl, rfl⟩
  | succ left ih =>
    match later, hEnough with
    | next :: last :: later, hEnough =>
      obtain ⟨turns, hTurns⟩ :
          ∃ turns, proceed now uptimeThere (next :: last :: later) found turn master = _ :=
        proceed_of_attempt hUnmade hFound hWaits
      have hFollows : last.Follows address := hLater last (by simp)
      have hAgain : ((Node.member last).wake
            ⟨request, .discover name, .resting name (left + 1)⟩).handled
          = .waiting ⟨request, .discover name, .asking name left⟩ := by
        show (Node.handling _ _ _ (last.service.seek last.isMaster name (left + 1))).handled = _
        rw [hFollows.isMaster]
        rfl
      have hRest : ∀ l ∈ later, l.Follows address := fun l hl => hLater l (by simp [hl])
      have hLeft : 2 * left + 2 ≤ later.length := by
        simp only [List.length_cons] at hEnough
        omega
      obtain ⟨p, hPassed, hMaster, hAnswer⟩ := ih _ hFollows hRest hLeft hAgain
      rw [hTurns, hPassed]
      exact ⟨_, rfl, hMaster, hAnswer⟩

/-- A slave that cannot put a query to its master gives it up, and nothing arrives there. -/
theorem pass_of_unmade (hUnmade : (PeerCall.discovery address name).canBeMade = false)
    (hFollows : m.Follows address) (hLater : ∀ l ∈ later, l.Follows address)
    (hEnough : 2 * discoveryAttempts ≤ later.length)
    (hAsks : request.inquiry = .ok (.call (.discover name))) :
    ∃ p, m.pass later master now uptime uptimeThere request = some p ∧ p.master = master
      ∧ p.answer = request.dress
          (callFailure (.discover name) (.unavailable "no reachable master")) := by
  have hWaits : ((Node.member m).receive now uptime request).handled
      = .waiting ⟨request, .discover name, .asking name 1⟩ := by
    rw [Node.receive_of_call hAsks]
    show (Node.handling _ _ _ (m.service.begin m.isMaster now (.discover name))).handled = _
    rw [hFollows.isMaster]
    rfl
  exact proceed_of_unmade hUnmade 1 _ hFollows hLater hEnough hWaits

end Unmade

/-- A name without characters that mean others may stand in a query as it is. -/
theorem inquiry_of_plain {name : String} (h : ∀ c ∈ name.toList, c ∉ "%+&#".toList) :
    let request : Request := { method := "GET", target := "/api/discovery?name=" ++ name }
    request.path = "/api/discovery" ∧ request.inquiry = .ok (.call (.discover name)) := by
  intro request
  have hAbsent : ∀ c ∈ "%+&#".toList, c ∉ name.toList := fun c hc hIn => h c hIn hc
  have hParts : request.parts
      = ("/api/discovery".toList, some ("name=".toList ++ name.toList)) := by
    refine Request.parts_of_target (by decide) ?_ (by decide) ?_
    · simp [request]
    · simp [hAbsent]
  have hPath : request.path = "/api/discovery" := by
    rw [Request.path, hParts]
    rfl
  have hPair : FormUrl.pairs ("name=".toList ++ name.toList)
      = [("name".toList, name.toList)] := by
    have hKey : FormUrl.decode "name".toList = "name".toList := by decide
    have hValue : FormUrl.decode name.toList = name.toList := by
      refine FormUrl.decode_of_unmarked fun c hc => ⟨?_, ?_⟩
      · rintro rfl
        exact hAbsent _ (by decide) hc
      · rintro rfl
        exact hAbsent _ (by decide) hc
    have hSingle := FormUrl.pairs_single (k := "name".toList) (by decide)
      (hAbsent '&' (by decide))
    rw [hKey, hValue] at hSingle
    exact hSingle
  have hQuery : serviceName? request.query = some name := by
    rw [Request.query, hParts, Option.getD_some, serviceName?, hPair]
    simp
  have hRoute : request.route = .ok .discovery :=
    Request.route_of_path hPath (by simp [request, Route.methods])
  refine ⟨hPath, Request.inquiry_of_read rfl hRoute ?_⟩
  simp only [Request.read, hQuery]

/-- A name that fits the query of a client does not fit the URL of the call to the master: the slave
    finds no master, where the master itself would have answered. -/
theorem pass_of_long_name :
    let member (self : String) (service : Service) : Member :=
      { coordinator :=
          { membership := ⟨self, ["http://a:8180", "http://b:8181"], "http://a:8180"⟩
            master := some "http://a:8180", started := true }
        service }
    let master := Node.member (member "http://a:8180" {})
    let slave := member "http://b:8181"
    let asked := ({} : Service).count .forwardedRequests
    let failed := asked.count .forwardFailures
    let again := failed.count .forwardedRequests
    let later := [slave asked, slave failed, slave again, slave (again.count .forwardFailures)]
    let name := String.ofList (List.replicate 30000 '!')
    let request : Request := { method := "GET", target := "/api/discovery?name=" ++ name }
    (slave {}).coordinator.role = .slave ∧ (slave {}).coordinator.master = some "http://a:8180"
      ∧ master.isMaster = true ∧ request.path ∈ clientPaths
      ∧ request.inquiry = .ok (.call (.discover name))
      ∧ (PeerCall.discovery "http://a:8180" "").canBeMade = true
      ∧ ∃ p r, (slave {}).pass later master 9 1 2 request = some p
        ∧ (master.receive 9 2 request).handled = .answered r
        ∧ p.answer.status = 503 ∧ r.status = 404 := by
  intro member master slave asked failed again later name
  -- all that counts of the name is of what characters it is, and how many
  have hMarks : ∀ c ∈ name.toList, c = '!' := by
    rw [String.toList_ofList]
    exact fun c hc => List.eq_of_mem_replicate hc
  have hLength : name.toList.length = 30000 := by
    rw [String.toList_ofList, List.length_replicate]
  clear_value name
  intro request
  have hNamed : name ≠ "" := by
    intro hEmpty
    rw [hEmpty] at hLength
    exact absurd hLength (by decide)
  have hPlain : ∀ c ∈ name.toList, c ∉ "%+&#".toList := by
    intro c hc
    rw [hMarks c hc]
    decide
  obtain ⟨hPath, hAsks⟩ : request.path = "/api/discovery" ∧ _ := inquiry_of_plain hPlain
  have hUnmade : (PeerCall.discovery "http://a:8180" name).canBeMade = false := by
    refine PeerCall.canBeMade_of_long (fun c hc => ?_) ?_
    · have hByte : String.utf8EncodeChar '!' = [0x21] := rfl
      rw [hMarks c hc, hByte, List.forall_mem_singleton]
      decide
    · rw [hLength]
      decide
  have hSlave (s : Service) : (slave s).Follows "http://a:8180" := ⟨rfl, rfl⟩
  obtain ⟨p, hPassed, -, hAnswer⟩ :
      ∃ p, (slave {}).pass later master 9 1 2 request = some p ∧ _ :=
    pass_of_unmade hUnmade (hSlave {}) (by simp [later, hSlave]) (by decide) hAsks
  obtain ⟨r, hDirect, hStatus⟩ :
      ∃ r, (master.receive 9 2 request).handled = .answered r ∧ _ :=
    Node.receive_discovery_of_nobody rfl hNamed rfl hAsks
  refine ⟨rfl, rfl, rfl, by rw [hPath]; decide, hAsks, by decide +kernel, p, r, hPassed, hDirect,
    ?_, hStatus⟩
  rw [hAnswer, Request.status_dress]
  rfl

end Member

end ServiceRegistry
