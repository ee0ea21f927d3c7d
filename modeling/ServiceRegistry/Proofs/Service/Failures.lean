/-
  What fails leaves everything as it was.

  1. `Store.Refused`: an operation of the table reports an error, nothing or `false`.  Then the
     table is the one it was given, cursors included (`carryOut_of_refused`).
  2. `Untouched`: a turn leaves the table and the counters of deeds alone, and has nothing
     replicated.  A turn that hears a reply is of this kind, and so is one that reads the role,
     unless it ends the call with a result of the node's own (`Turn.Came.untouched`).
  3. `Stage.Ends`, `Handled.Ends`: how a call and a request come to their ends, turn by turn.  What
     comes in between may do anything: each turn finds another service, or another node.
  4. `failure_changes_nothing` puts the table, the call, the push and the request together.
-/
import ServiceRegistry.Proofs.Calls
import ServiceRegistry.Proofs.Replication
import ServiceRegistry.Proofs.Service.Turns

namespace ServiceRegistry

open Http

/-! ## The table -/

namespace Store

variable {now : Int64} {s : Store}

/-- An operation reports that it did nothing. -/
def Refused (now : Int64) (s : Store) : Operation → Prop
  | .register x => ∃ e, (s.register now x).1 = .error e
  | .heartbeat c => ∃ e, (s.heartbeat now c).1 = .error e
  | .unregister c => ∃ e, (s.unregister c).1 = .error e
  | .merge x => ∃ e, (s.merge now x).1 = .error e
  | .remove id => (s.remove id).1 = none
  | .removeIfExpired id now timeout => (s.removeIfExpired id now timeout).1 = none
  | .touch id secs readable => (s.touch now id secs readable).1 = false
  | .discover name => ∃ e, (s.discover name).1 = .error e
  | .adopt cursors => (s.adopt cursors).1 = 0

/-- A removal that finds nothing removes nothing. -/
theorem snd_remove_of_none {id : String} (unknown : (s.remove id).1 = none) :
    (s.remove id).2 = s := by
  rcases s.remove_cases id with eq | ⟨x, -, eq⟩
  · exact congrArg Prod.snd eq
  · cases unknown.symm.trans (congrArg Prod.fst eq)

/-- Cursors that are adopted nowhere belong to services that nobody offers. -/
theorem adopt_of_none {cursors : List (String × Int64)} (nowhere : (s.adopt cursors).1 = 0) :
    (s.adopt cursors).2 = s := by
  have empty : ∀ c ∈ cursors, s.ofService c.1 = [] := by
    have none_known := List.filter_eq_nil_iff.1 (List.length_eq_zero_iff.1 nowhere)
    simpa using none_known
  clear nowhere
  show cursors.foldl (fun s c => s.adoptOne c.1 c.2) s = s
  induction cursors with
  | nil => rfl
  | cons c cs ih =>
    obtain ⟨first, rest⟩ := List.forall_mem_cons.1 empty
    have kept : s.adoptOne c.1 c.2 = s := by simp [adoptOne, first]
    rw [List.foldl_cons, kept]
    exact ih rest

/-- An operation that reports that it did nothing has done nothing. -/
theorem carryOut_of_refused {o : Operation} (refused : s.Refused now o) : s.carryOut now o = s := by
  -- each operation either left the table alone or had a result that is no refusal
  cases o with
  | register x =>
    obtain ⟨e, failed⟩ := refused
    rcases s.register_cases now x with ⟨e, eq⟩ | ⟨old, -, -, eq⟩ | ⟨-, -, -, eq⟩
    · exact congrArg Prod.snd eq
    · cases failed.symm.trans (congrArg Prod.fst eq)
    · cases failed.symm.trans (congrArg Prod.fst eq)
  | heartbeat c =>
    obtain ⟨e, failed⟩ := refused
    rcases s.heartbeat_cases now c with ⟨e, eq⟩ | ⟨x, -, -, eq⟩
    · exact congrArg Prod.snd eq
    · cases failed.symm.trans (congrArg Prod.fst eq)
  | unregister c =>
    obtain ⟨e, failed⟩ := refused
    rcases s.unregister_cases c with ⟨e, eq⟩ | ⟨x, -, -, eq⟩
    · exact congrArg Prod.snd eq
    · cases failed.symm.trans (congrArg Prod.fst eq)
  | merge x =>
    obtain ⟨e, failed⟩ := refused
    rcases s.merge_cases now x with ⟨-, eq⟩ | ⟨-, eq⟩
    · exact congrArg Prod.snd eq
    · cases failed.symm.trans (congrArg Prod.fst eq)
  | remove id => exact snd_remove_of_none refused
  | removeIfExpired id now timeout =>
    rcases s.removeIfExpired_cases id now timeout with eq | ⟨x, -, -, eq⟩
    · exact congrArg Prod.snd eq
    · exact (congrArg Prod.snd eq).trans
        (snd_remove_of_none ((congrArg Prod.fst eq).symm.trans refused))
  | touch id secs readable =>
    rcases s.touch_cases now id secs readable with ⟨-, eq⟩ | ⟨x, -, eq⟩
    · exact congrArg Prod.snd eq
    · cases refused.symm.trans (congrArg Prod.fst eq)
  | discover name =>
    obtain ⟨e, failed⟩ := refused
    exact snd_discover_of_error failed
  | adopt cursors => exact adopt_of_none refused

/-- A change that is not taken over has changed nothing. -/
theorem apply_of_error {c : Change} {e : RegistryError} (failed : (s.apply now c).1 = .error e) :
    (s.apply now c).2 = s := by
  obtain ⟨kind, x⟩ := c
  cases kind with
  | register => exact carryOut_of_refused (o := .merge x) ⟨e, failed⟩
  | unregister =>
    rw [apply_unregister] at failed ⊢
    rcases s.remove_cases x.id with eq | ⟨y, -, eq⟩
    · rw [eq]
    · rw [eq] at failed
      cases failed
  | heartbeat =>
    rw [apply_heartbeat] at failed ⊢
    rcases s.touch_cases now x.id x.heartbeat.secs x.heartbeat.readable with
      ⟨-, eq⟩ | ⟨y, found, -⟩
    · rw [eq]
    · rw [found] at failed
      cases failed

end Store

/-- A push that is refused leaves the member as it was. -/
theorem Member.handleSync_of_error {now : Int64} {c : Change} {m : Member} {e : RegistryError}
    (failed : (m.handleSync now c).1 = .error e) : (m.handleSync now c).2 = m := by
  unfold handleSync at failed ⊢
  split
  · rfl
  · rename_i follower
    rw [if_neg follower] at failed
    show m.withStore (m.store.apply now c).2 = m
    rw [Store.apply_of_error failed]
    rfl

/-! ## Turns -/

/-- The counters of what the node itself has done. -/
def Counter.ofDeeds : List Counter :=
  [.registrations, .heartbeats, .unregistrations, .discoveries, .expiredInstances]

/-- Nothing has become of it: the table and the counters of deeds are what they were, and nothing is
    replicated.  What a node counts about its calls to others may move. -/
structure Untouched (before after : Service) (orders : List Order) : Prop where
  store : after.store = before.store
  counters : ∀ k ∈ Counter.ofDeeds, after.counters.get k = before.counters.get k
  silent : Order.changes orders = []

/-- Nothing done. -/
theorem Untouched.refl (s : Service) : Untouched s s [] := ⟨rfl, fun _ _ => rfl, rfl⟩

/-- The other counters may move. -/
theorem Untouched.count {s : Service} {k : Counter} {orders : List Order}
    (other : k ∉ Counter.ofDeeds) (silent : Order.changes orders = []) :
    Untouched s (s.count k) orders := by
  refine ⟨rfl, fun j deed => ?_, silent⟩
  have ne : j ≠ k := fun eq => other (eq ▸ deed)
  exact (s.counters.get_bump k j).trans (if_neg ne)

/-- A call that has ended with a result of the node's own. -/
def Stage.Made (stage : Stage) : Prop := ∃ o, stage = .done (.ok (.here o))

/-- A turn that reads the role touches nothing, unless it ends the call with a result of the node's
    own. -/
theorem Turn.Came.untouched {isMaster : Bool} {s : Service} {t : Turn} (came : t.Came isMaster s)
    (unmade : ¬ t.stage.Made) : Untouched s t.service t.orders := by
  cases came with
  | failed e => exact .refl s
  | forwarded slave relays => exact .count (by decide) rfl
  | wrote | found => exact absurd ⟨_, rfl⟩ unmade

/-- A turn that hears a reply touches nothing, whatever the reply. -/
theorem Service.untouched_hear (s : Service) {stage : Stage} (relays : stage.Relays)
    (reply : Except RegistryError Relayed) :
    Untouched s (s.hear stage reply).service (s.hear stage reply).orders := by
  cases reply with
  | ok r =>
    rw [s.hear_answered relays]
    exact .refl s
  | error e =>
    obtain ⟨next, -, eq⟩ := s.hear_failed relays e
    rw [eq]
    exact .count (by decide) rfl

/-! ## Calls -/

/-- How a call that stands at a stage ends: the turns it still takes, each with the service that it
    finds, and its result.  The replies, the role, and what becomes of the service in between are
    open. -/
inductive Stage.Ends : Stage → List (Service × Turn) → Except RegistryError (Routed Outcome) → Prop
  | done (result : Except RegistryError (Routed Outcome)) : Ends (.done result) [] result
  | hear {stage : Stage} {turns : List (Service × Turn)}
      {result : Except RegistryError (Routed Outcome)} (s : Service)
      (reply : Except RegistryError Relayed) (relays : stage.Relays)
      (later : Ends (s.hear stage reply).stage turns result) :
      Ends stage ((s, s.hear stage reply) :: turns) result
  | wake {name : String} {left : Nat} {turns : List (Service × Turn)}
      {result : Except RegistryError (Routed Outcome)} (s : Service) (isMaster : Bool)
      (later : Ends (s.wake isMaster (.resting name left)).stage turns result) :
      Ends (.resting name left) ((s, s.wake isMaster (.resting name left)) :: turns) result

/-- What the result of a call is when it is made in a turn. -/
theorem Stage.Ends.result_of_made {stage : Stage} {turns : List (Service × Turn)}
    {result : Except RegistryError (Routed Outcome)} (ends : stage.Ends turns result)
    (made : stage.Made) : ∃ o, result = .ok (.here o) := by
  obtain ⟨o, rfl⟩ := made
  cases ends with
  | done => exact ⟨o, rfl⟩
  | hear s reply relays => cases relays

/-- No turn touches anything of a call that does not end with a result of the node's own: the turn
    that would have made that result would have ended the call with it. -/
theorem Stage.Ends.untouched {stage : Stage} {turns : List (Service × Turn)}
    {result : Except RegistryError (Routed Outcome)} (ends : stage.Ends turns result)
    (failed : ∀ o, result ≠ .ok (.here o)) :
    ∀ t ∈ turns, Untouched t.1 t.2.service t.2.orders := by
  induction ends with
  | done => exact fun t none_left => absurd none_left List.not_mem_nil
  | hear s reply relays later ih =>
    exact List.forall_mem_cons.2 ⟨s.untouched_hear relays reply, ih failed⟩
  | wake s isMaster later ih =>
    refine List.forall_mem_cons.2 ⟨(s.came_wake isMaster _ _).untouched fun made => ?_, ih failed⟩
    obtain ⟨o, eq⟩ := later.result_of_made made
    exact failed o eq

/-! ## Requests -/

/-- How a request ends: the turns it still takes, each with the node it finds, and its answer. -/
inductive Handled.Ends : Handled → List (Node × Handling) → Response → Prop
  | answered (r : Response) : Ends (.answered r) [] r
  | hear {p : Pending} {turns : List (Node × Handling)} {r : Response} (n : Node)
      (reply : Except RegistryError Relayed) (relays : p.stage.Relays)
      (later : Ends (n.hear p reply).handled turns r) :
      Ends (.waiting p) ((n, n.hear p reply) :: turns) r
  | wake {p : Pending} {name : String} {left : Nat} {turns : List (Node × Handling)} {r : Response}
      (n : Node) (rests : p.stage = .resting name left)
      (later : Ends (n.wake p).handled turns r) : Ends (.waiting p) ((n, n.wake p) :: turns) r

/-- Whether a request has been met. -/
def Http.Response.Succeeds (r : Response) : Prop := 200 ≤ r.status ∧ r.status < 300

/-- An answer of success stays one when it is dressed for its request. -/
theorem Http.Request.succeeds_dress (r : Request) {answer : Response} (fine : answer.status = 200) :
    (r.dress answer).Succeeds := by
  rw [Response.Succeeds, r.status_dress, fine]
  decide

/-- A request that is answered has that answer. -/
theorem Handled.Ends.answer_of_answered {turns : List (Node × Handling)} {r answer : Response}
    (ends : (Handled.answered r).Ends turns answer) : answer = r := by
  cases ends with
  | answered => rfl

namespace Node

variable {n : Node} {request : Request} {c : Call} {t : Turn}

/-- What a turn of a call leaves untouched in the service, it leaves untouched in the node. -/
theorem untouched_handling (kept : Untouched n.service t.service t.orders) :
    Untouched n.service (n.handling request c t).node.service (n.handling request c t).orders := by
  obtain ⟨store, counters, silent⟩ := kept
  cases n with
  | standalone a s => exact ⟨store, counters, rfl⟩
  | member m => exact ⟨store, counters, silent⟩

/-- A call that is over in its first turn is answered with its result. -/
theorem handled_receive_of_done {now : Int64} (uptime : Nat)
    {result : Except RegistryError (Routed Outcome)} (asks : request.inquiry = .ok (.call c))
    (done : (n.service.begin n.isMaster now c).stage = .done result) :
    (n.receive now uptime request).handled = .answered (request.dress (answerTo c result)) := by
  rw [receive_of_call asks, handling_of_done done]

/-- A call that is made in a turn is answered with success. -/
theorem succeeds_of_made (made : t.stage.Made) {turns : List (Node × Handling)} {answer : Response}
    (ends : (n.handling request c t).handled.Ends turns answer) : answer.Succeeds := by
  obtain ⟨o, done⟩ := made
  rw [handling_of_done done] at ends
  obtain rfl := ends.answer_of_answered
  exact request.succeeds_dress (by cases o <;> rfl)

/-- A push that is not taken over leaves the node as it was. -/
theorem handleSync_of_error {now : Int64} {x : Change} {e : RegistryError}
    (failed : (n.handleSync now x).1 = .error e) : (n.handleSync now x).2 = n := by
  cases n with
  | standalone a s => rfl
  | member m => exact congrArg Node.member (Member.handleSync_of_error failed)

/-- A turn that wakes a request which is not met in the end touches nothing. -/
theorem untouched_wake {p : Pending} {name : String} {left : Nat} {turns : List (Node × Handling)}
    {answer : Response} (rests : p.stage = .resting name left)
    (ends : (n.wake p).handled.Ends turns answer) (failed : ¬ answer.Succeeds) :
    Untouched n.service (n.wake p).node.service (n.wake p).orders := by
  have came : Turn.Came n.isMaster n.service (n.service.wake n.isMaster p.stage) := by
    rw [rests]
    exact n.service.came_wake _ _ _
  exact untouched_handling (came.untouched fun made => failed (succeeds_of_made made ends))

/-- Nor does the turn that receives it, whatever is asked. -/
theorem untouched_receive {now : Int64} {uptime : Nat} {turns : List (Node × Handling)}
    {answer : Response} (ends : (n.receive now uptime request).handled.Ends turns answer)
    (failed : ¬ answer.Succeeds) :
    Untouched n.service (n.receive now uptime request).node.service
      (n.receive now uptime request).orders := by
  cases asks : request.inquiry with
  | error refusal =>
    rw [receive_of_refused asks]
    exact .refl _
  | ok inquiry =>
    simp only [receive, asks] at ends ⊢
    cases inquiry with
    | call c =>
      refine untouched_handling ((n.service.came_begin n.isMaster now c).untouched fun made => ?_)
      exact failed (succeeds_of_made made ends)
    | sync x =>
      cases result : (n.handleSync now x).1 with
      | error e =>
        simp only [carryOut, answering, handleSync_of_error result]
        exact .refl _
      | ok =>
        simp only [carryOut, answering, result] at ends
        obtain rfl := ends.answer_of_answered
        exact absurd (request.succeeds_dress rfl) failed
    | cursors | health | metrics => exact .refl _

end Node

/-- Nor does any later turn. -/
theorem Handled.Ends.untouched {h : Handled} {turns : List (Node × Handling)} {answer : Response}
    (ends : h.Ends turns answer) (failed : ¬ answer.Succeeds) :
    ∀ t ∈ turns, Untouched t.1.service t.2.node.service t.2.orders := by
  induction ends with
  | answered => exact fun t none_left => absurd none_left List.not_mem_nil
  | hear n reply relays later ih =>
    have kept := n.service.untouched_hear relays reply
    exact List.forall_mem_cons.2 ⟨Node.untouched_handling kept, ih failed⟩
  | wake n rests later ih =>
    exact List.forall_mem_cons.2 ⟨Node.untouched_wake rests later failed, ih failed⟩

/-! ## Failures -/

/-- What fails changes nothing.
    An operation that reports that it did nothing leaves any table as it was, cursors included.
    A call that ends with anything but a result of the node's own leaves the table and the counters
    of deeds alone in each of its turns, whatever happens to the service in between, and has nothing
    replicated.
    A push that is refused leaves the node as it was.
    A request that is not met leaves the table and the counters of deeds of the node alone in each
    of its turns, whatever happens to the node in between, and has nothing replicated. -/
theorem failure_changes_nothing :
    (∀ (now : Int64) (o : Store.Operation) (s : Store), s.Refused now o → s.carryOut now o = s)
    ∧ (∀ (isMaster : Bool) (now : Int64) (c : Call) (s : Service) (turns : List (Service × Turn))
        (result : Except RegistryError (Routed Outcome)),
        (s.begin isMaster now c).stage.Ends turns result → (∀ o, result ≠ .ok (.here o)) →
        ∀ t ∈ (s, s.begin isMaster now c) :: turns, Untouched t.1 t.2.service t.2.orders)
    ∧ (∀ (now : Int64) (c : Change) (m : Member) (e : RegistryError),
        (m.handleSync now c).1 = .error e → (m.handleSync now c).2 = m)
    ∧ ∀ (now : Int64) (uptime : Nat) (request : Request) (n : Node)
        (turns : List (Node × Handling)) (answer : Response),
        (n.receive now uptime request).handled.Ends turns answer → ¬ answer.Succeeds →
        ∀ t ∈ (n, n.receive now uptime request) :: turns,
          Untouched t.1.service t.2.node.service t.2.orders := by
  refine ⟨fun now o s refused => Store.carryOut_of_refused refused, ?_,
    fun now c m e refused => Member.handleSync_of_error refused, ?_⟩
  · intro isMaster now c s turns result ends failed
    refine List.forall_mem_cons.2 ⟨?_, ends.untouched failed⟩
    refine (s.came_begin isMaster now c).untouched fun made => ?_
    obtain ⟨o, eq⟩ := ends.result_of_made made
    exact failed o eq
  · intro now uptime request n turns answer ends failed
    exact List.forall_mem_cons.2 ⟨Node.untouched_receive ends failed, ends.untouched failed⟩

/-- A heartbeat for an id that nobody knows, as a touch, as a call whose master is away, as a push
    to a master and as a request. -/
theorem failure_changes_nothing_unknown_id :
    let held : Service := { store := Store.run [(5, .register ⟨"i", ⟨"s", "h", 80⟩, {}, {}⟩)] {} }
    let x : Instance := { id := "j", identity := ⟨"s", "h", 81⟩ }
    let called := held.begin false 7 (.write (.heartbeat x.claim))
    let heard := called.service.hear called.stage (.error (.peer "b" "connection refused"))
    let master : Member :=
      { coordinator := { membership := ⟨"a", ["a", "b"], "a"⟩, master := some "a", started := true }
        service := held }
    let received := (Node.member master).receive 7 1 (PeerCall.write "b" ⟨.heartbeat, x⟩).request
    held.store.carryOut 7 (.touch x.id 6 "") = held.store
    ∧ Untouched held called.service called.orders
    ∧ Untouched called.service heard.service heard.orders
    ∧ (master.handleSync 7 ⟨.heartbeat, x⟩).2 = master
    ∧ Untouched held received.node.service received.orders := by
  intro held x called heard master received
  obtain ⟨table, call, push, request⟩ := failure_changes_nothing
  have turns := call false 7 (.write (.heartbeat x.claim)) held _ _
    (.hear called.service (.error (.peer "b" "connection refused")) (.forwarding _) (.done _))
    (fun o made => nomatch made)
  obtain ⟨begun, later⟩ := List.forall_mem_cons.1 turns
  have asks : (PeerCall.write "b" ⟨.heartbeat, x⟩).request.inquiry
      = .ok (.call (.write (.heartbeat x.claim))) :=
    PeerCall.inquiry_write (w := .heartbeat x.claim) "b" (by decide +kernel)
  have unknown : (held.begin true 7 (.write (.heartbeat x.claim))).stage
      = .done (.error (.unknownId "j")) := rfl
  have answered := Node.handled_receive_of_done (n := .member master) 1 asks unknown
  have refused := request 7 1 _ (.member master) [] _ (by rw [answered]; exact .answered _) (by
    rw [Response.Succeeds, Request.status_dress]
    decide)
  refine ⟨table 7 _ _ ?_, begun, later _ (.head _), push 7 _ _ _ rfl, refused _ (.head _)⟩
  show (held.store.touch 7 "j" 6 "").1 = false
  decide +kernel

end ServiceRegistry
