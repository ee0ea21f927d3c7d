/-
  A cluster of one.

  A node whose cluster is empty, or holds nothing but the node itself, has no peers.  When its start
  has heard the node itself it is master and stays so, and whatever it is asked it does as a node
  that stands alone.  The two are run side by side.

  1. `Node.matches_perform`: a master of a cluster does an input as a node alone does it; only a
     pushed change is refused with other words.
  2. `Process.Alone`: nothing is under way but checks, which find that there is nothing to check.
     Each act keeps it so, and moves the node alone by the same input, if it is one
     (`Alone.performs`).
  3. `cluster_of_one`: so the two show the same along a whole run, from the start on.
-/
import ServiceRegistry.Proofs.Cluster.Recognition
import ServiceRegistry.Proofs.Cluster.Pushes

namespace ServiceRegistry

open Http

/-! ## Inputs -/

/-- Two nodes show the same of an input, or both refuse to take over a change. -/
inductive Input.Matches : Input → Shown → Shown → Prop
  | same (t : Input) (x : Shown) : Matches t x x
  | refused {now : Int64} {uptime : Nat} {request : Request} {c : Change}
      (asks : request.inquiry = .ok (.sync c)) (reason reason' : String) :
      Matches (.receive now uptime request)
        (.handled (.answered (request.dress (.enveloped 500 reason))))
        (.handled (.answered (request.dress (.enveloped 500 reason'))))

/-- An input leaves the same service on both sides, and shows the same. -/
structure Input.Agrees (t : Input) (alone joined : Performance) : Prop where
  service : joined.node.service = alone.node.service
  shown : t.Matches alone.shown joined.shown

namespace Node

variable {m : Member} {a : String}

/-- A master that goes by the address carries out what a request asks as a node alone does. -/
theorem matches_receive (leads : m.isMaster = true) (own : m.coordinator.self = a)
    (points : m.coordinator.master = some a) (now : Int64) (uptime : Nat) (request : Request) :
    Input.Agrees (.receive now uptime request)
      ((standalone a m.service).receive now uptime request).performance
      ((member m).receive now uptime request).performance := by
  cases asks : request.inquiry with
  | error answer =>
    rw [receive_of_refused asks, receive_of_refused asks]
    exact ⟨rfl, .same _ _⟩
  | ok inquiry =>
    rw [receive_of_inquiry asks, receive_of_inquiry asks]
    have role : (member m).isMaster = true := leads
    cases inquiry with
    | call c =>
      unfold carryOut
      rw [role]
      exact ⟨rfl, .same _ _⟩
    | sync c =>
      have refused : m.handleSync now c = (.error (.internal _), m) := if_pos leads
      unfold carryOut handleSync
      dsimp only
      rw [refused]
      exact ⟨rfl, .refused asks _ _⟩
    | cursors =>
      have given : (member m).cursors = .ok m.store.cursors := if_pos leads
      unfold carryOut
      rw [given]
      exact ⟨rfl, .same _ _⟩
    | health =>
      have here : (member m).address = a := own
      have there : (member m).master = some a := points
      unfold carryOut
      rw [role, here, there]
      exact ⟨rfl, .same _ _⟩
    | metrics =>
      unfold carryOut
      rw [role]
      exact ⟨rfl, .same _ _⟩

/-- A master that points at itself shows the same of every input as a node that stands alone. -/
theorem matches_perform (leads : m.isMaster = true) (own : m.coordinator.self = a)
    (points : m.coordinator.master = some a) (t : Input) :
    t.Agrees ((standalone a m.service).perform t) ((member m).perform t) := by
  have role : (member m).isMaster = true := leads
  cases t with
  | receive now uptime request => exact matches_receive leads own points now uptime request
  | reply pending reply => exact ⟨rfl, .same _ _⟩
  | wake pending =>
    unfold perform wake
    rw [role]
    exact ⟨rfl, .same _ _⟩
  | evict now timeout id =>
    unfold perform
    rw [role]
    exact ⟨rfl, .same _ _⟩
  | sweep now timeout =>
    unfold perform
    rw [role]
    exact ⟨rfl, .same _ _⟩

/-- A node that stands alone remains so. -/
theorem exists_standalone (a : String) (s : Service) (t : Input) :
    ((standalone a s).perform t).node
      = .standalone a ((standalone a s).perform t).node.service := by
  cases t with
  | reply | wake | evict | sweep => rfl
  | receive now uptime request =>
    rw [perform_receive]
    cases asks : request.inquiry with
    | error answer =>
      rw [receive_of_refused asks]
      rfl
    | ok inquiry =>
      rw [receive_of_inquiry asks]
      cases inquiry <;> rfl

/-- A master answers every request at once. -/
theorem answered_receive {n : Node} (leads : n.isMaster = true) (now : Int64) (uptime : Nat)
    (request : Request) : ∃ r, (n.receive now uptime request).handled = .answered r := by
  cases asks : request.inquiry with
  | error answer =>
    rw [receive_of_refused asks]
    exact ⟨_, rfl⟩
  | ok inquiry =>
    rw [receive_of_inquiry asks]
    cases inquiry with
    | call c =>
      obtain ⟨result, done, -⟩ := n.service.begin_local now c
      show ∃ r, (n.handling request c (n.service.begin n.isMaster now c)).handled = .answered r
      rw [leads, handling_of_done done]
      exact ⟨_, rfl⟩
    | sync | cursors | health | metrics => exact ⟨_, rfl⟩

/-! ## Runs of a node alone -/

/-- The episodes of a node that stands alone and carries out inputs. -/
def story : List Input → Node → List Episode
  | [], _ => []
  | t :: ts, n =>
    ⟨.input t, some (n.perform t).shown, (n.perform t).node.service.store⟩
      :: story ts (n.perform t).node

/-- The node after inputs. -/
def performAll (ts : List Input) (n : Node) : Node := ts.foldl (fun n t => (n.perform t).node) n

end Node

/-! ## Runs of a cluster of one -/

/-- Whether an act is an input. -/
def Act.isInput : Act → Bool
  | .input _ => true
  | _ => false

/-- Both sides have carried out an input: they show the same of it and have the same table. -/
inductive Episode.Matches : Episode → Episode → Prop
  | input {t : Input} {x x' : Shown} (shown : t.Matches x x') (store : Store) :
      Matches ⟨.input t, some x, store⟩ ⟨.input t, some x', store⟩

/-- An act needs nobody else: it is an input, or a check, and a request is answered at once. -/
inductive Episode.SelfContained : Episode → Prop
  | due (store : Store) : SelfContained ⟨.due, none, store⟩
  | check (store : Store) : SelfContained ⟨.run .check, none, store⟩
  | answered (now : Int64) (uptime : Nat) (request : Request) (r : Response) (store : Store) :
      SelfContained ⟨.input (.receive now uptime request), some (.handled (.answered r)), store⟩
  | input (t : Input) (x : Shown) (store : Store)
      (other : ∀ now uptime request, t ≠ .receive now uptime request) :
      SelfContained ⟨.input t, some x, store⟩

namespace Process

variable {p q : Process} {a : String} {act : Act} {shown : Option Shown} {es : List Episode}

/-- A master at its own address, without peers, that has nothing under way but checks.  It has
    nobody to push to and nobody to fail over to, so no act leads out of this. -/
structure Alone (a : String) (p : Process) : Prop where
  own : p.member.coordinator.self = a
  points : p.member.coordinator.master = some a
  leads : p.member.isMaster = true
  peers : p.member.coordinator.membership.peers = []
  idle : ∀ u ∈ p.underway, u = { task := .check }

/-- What a node alone does meanwhile: the same input, or nothing.  A check of a master is the only
    thing that it does not have. -/
inductive Meanwhile (a : String) (s : Service) : Act → Option Shown → Service → Prop
  | input {t : Input} {x : Shown} {s' : Service}
      (node : ((Node.standalone a s).perform t).node = .standalone a s')
      (shown : t.Matches ((Node.standalone a s).perform t).shown x) :
      Meanwhile a s (.input t) (some x) s'
  | due : Meanwhile a s .due none s
  | check : Meanwhile a s (.run .check) none s

/-- Without peers, orders come to checks. -/
theorem Alone.tasksOf {m : Member} (peers : m.coordinator.membership.peers = []) (o : Order) :
    ∀ e ∈ m.tasksOf o, e = .check := by
  cases o with
  | replicate c => simp [Member.tasksOf, peers]
  | checkMaster => simp [Member.tasksOf]

/-- A check of a master is over at once. -/
theorem Alone.run_check (alone : p.Alone a) :
    p.member.run .check = some { member := p.member } := by
  obtain ⟨started, t, points, own⟩ := Coordinator.isMaster_iff.1 alone.leads
  simp [Member.run, Member.check, started, points, own]

/-- Each act keeps a master alone, and moves the node that stands alone with it. -/
theorem Alone.performs (alone : p.Alone a) (performs : p.Performs act shown q) :
    q.Alone a ∧ Meanwhile a p.member.service act shown q.member.service := by
  -- whatever has its turn is a check, and so is what stays
  have idle_of : ∀ {l r : List Underway} {u : Underway}, p.underway = l ++ u :: r →
      u = { task := .check } ∧ ∀ v ∈ l ++ r, v = { task := .check } := by
    intro l r u split
    have idle := alone.idle
    rw [split] at idle
    exact ⟨idle u (by simp), fun v hv => idle v (mem_of_mem_others hv)⟩
  cases performs with
  | @input m t node =>
    obtain ⟨service, same⟩ := Node.node_perform p.member t
    obtain rfl := Node.member.inj (node.symm.trans same)
    have agrees := Node.matches_perform alone.leads alone.own alone.points t
    refine ⟨⟨alone.own, alone.points, alone.leads, alone.peers, fun u hu => ?_⟩, ?_⟩
    · rw [underway_served] at hu
      rcases List.mem_append.1 hu with hu | hu
      · exact alone.idle u hu
      · obtain ⟨e, he, rfl⟩ := List.mem_map.1 hu
        obtain ⟨o, -, he⟩ := List.mem_flatMap.1 he
        rw [Alone.tasksOf alone.peers o e he]
    · have both := agrees.service
      rw [same] at both
      refine .input ?_ agrees.shown
      rw [Node.exists_standalone, ← both]
      rfl
  | due =>
    refine ⟨⟨alone.own, alone.points, alone.leads, alone.peers, fun u hu => ?_⟩, .due⟩
    rcases List.mem_append.1 hu with hu | hu
    · exact alone.idle u hu
    · exact List.mem_singleton.1 hu
  | answer reply split calls =>
    cases (idle_of split).1
    cases calls
  | hear now split calls => cases (idle_of split).1
  | run split turn =>
    obtain ⟨check, others⟩ := idle_of split
    cases check
    obtain rfl := Option.some.inj (turn.symm.trans alone.run_check)
    refine ⟨⟨alone.own, alone.points, alone.leads, alone.peers, ?_⟩, .check⟩
    simpa [after] using others
  | rest split => cases (idle_of split).1

/-- What a run of a master that is alone comes to, beside the run of a node that stands alone. -/
structure Simulates (a : String) (s : Service) (es : List Episode) (q : Process) : Prop where
  episodes : List.Forall₂ Episode.Matches ((Node.standalone a s).story (inputs es))
    (es.filter (·.act.isInput))
  service : (Node.standalone a s).performAll (inputs es) = .standalone a q.member.service
  self_contained : ∀ e ∈ es, e.SelfContained

/-- An act of such a master is an input, or a check that finds nothing to do. -/
theorem Meanwhile.kind {s s' : Service} (meanwhile : Meanwhile a s act shown s') :
    (act = .due ∧ shown = none) ∨ (act = .run .check ∧ shown = none)
      ∨ ∃ t x, act = .input t ∧ shown = some x := by
  cases meanwhile with
  | input => exact .inr (.inr ⟨_, _, rfl, rfl⟩)
  | due => exact .inl ⟨rfl, rfl⟩
  | check => exact .inr (.inl ⟨rfl, rfl⟩)

/-- It needs nobody else. -/
theorem Alone.self_contained (alone : p.Alone a) (performs : p.Performs act shown q) :
    Episode.SelfContained ⟨act, shown, q.member.store⟩ := by
  rcases (alone.performs performs).2.kind with ⟨rfl, rfl⟩ | ⟨rfl, rfl⟩ | ⟨t, x, rfl, rfl⟩
  · exact .due _
  · exact .check _
  · cases performs with
    | input t node =>
      cases t with
      | receive now uptime request =>
        obtain ⟨r, answered⟩ :=
          Node.answered_receive (n := .member p.member) alone.leads now uptime request
        rw [Node.perform_receive, Handling.performance, answered]
        exact .answered now uptime request r _
      | reply | wake | evict | sweep => exact .input _ _ _ (by intros; simp)

/-- One more act at the beginning. -/
theorem Simulates.cons {s s' : Service} (meanwhile : Meanwhile a s act shown s')
    (self_contained : Episode.SelfContained ⟨act, shown, s'.store⟩)
    (simulates : Simulates a s' es q) :
    Simulates a s (⟨act, shown, s'.store⟩ :: es) q := by
  have all : ∀ e ∈ (⟨act, shown, s'.store⟩ : Episode) :: es, e.SelfContained :=
    List.forall_mem_cons.2 ⟨self_contained, simulates.self_contained⟩
  cases meanwhile with
  | @input t x _ node shown =>
    refine ⟨?_, ?_, all⟩
    · show List.Forall₂ _ (_ :: ((Node.standalone a s).perform t).node.story (inputs es))
        (_ :: es.filter (·.act.isInput))
      rw [node]
      exact .cons (.input shown _) simulates.episodes
    · show ((Node.standalone a s).perform t).node.performAll (inputs es) = _
      rw [node]
      exact simulates.service
  | due | check => exact ⟨simulates.episodes, simulates.service, all⟩

/-- A run of such a master is a run of a node that stands alone, input by input. -/
theorem Alone.passes (alone : p.Alone a) (run : p.Passes es q) :
    q.Alone a ∧ Simulates a p.member.service es q := by
  induction run with
  | nil => exact ⟨alone, .nil, rfl, by simp⟩
  | cons performs passes ih =>
    obtain ⟨still, meanwhile⟩ := alone.performs performs
    obtain ⟨ends, simulates⟩ := ih still
    exact ⟨ends, simulates.cons meanwhile (alone.self_contained performs)⟩

/-! ## From the start on -/

/-- A node without peers asks itself first. -/
theorem launch_of_alone {m : Membership} (peers : m.peers = []) :
    launch m = ⟨.fresh m, [{ task := .seekSelf m.self }]⟩ := by
  unfold launch Member.start
  rw [show (Member.fresh m).coordinator.membership.peers = [] from peers]
  rfl

/-- Its start can hear anything. -/
theorem exists_started {m : Membership} (peers : m.peers = []) (reply : Option Relayed)
    (now : Int64) :
    ∃ start p, (launch m).Passes start p ∧ start.map (·.act)
      = [.answer (.seekSelf m.self) reply, .hear now (.seekSelf m.self) reply] := by
  rw [launch_of_alone peers]
  let asked : Process := ⟨.fresh m, [⟨.seekSelf m.self, some reply⟩]⟩
  let heard := after [] ((Member.fresh m).hear now (.seekSelf m.self) reply)
  have answer : Process.Performs ⟨.fresh m, [{ task := .seekSelf m.self }]⟩
      (.answer (.seekSelf m.self) reply) none asked := .answer (l := []) (r := []) reply rfl rfl
  have hear : asked.Performs (.hear now (.seekSelf m.self) reply) none heard :=
    .hear (l := []) (r := []) now rfl rfl
  exact ⟨_, heard, .cons (q := asked) answer (.cons (q := heard) hear .nil), rfl⟩

/-- The call of the only task under way is answered. -/
theorem Performs.of_answer {n : Member} {e f : Task} {reply : Option Relayed}
    (performs : Performs ⟨n, [{ task := e }]⟩ (.answer f reply) shown q) :
    q = ⟨n, [⟨e, some reply⟩]⟩ := by
  cases performs with
  | @answer l r e call reply split calls =>
    cases l with
    | nil =>
      obtain ⟨same, rfl⟩ := List.cons.inj split
      cases same
      rfl
    | cons => simp at split

/-- The only task under way hears its reply. -/
theorem Performs.of_hear {n : Member} {e f : Task} {reply reply' : Option Relayed} {now : Int64}
    (performs : Performs ⟨n, [⟨e, some reply⟩]⟩ (.hear now f reply') shown q) :
    q = after [] (n.hear now e reply) := by
  cases performs with
  | @hear l r e call reply now split calls =>
    cases l with
    | nil =>
      obtain ⟨same, rfl⟩ := List.cons.inj split
      cases same
      rfl
    | cons => simp at split

/-- When it hears itself it is master, and alone. -/
theorem alone_of_started {m : Membership} {reply : Option Relayed} {now : Int64}
    {start : List Episode} (peers : m.peers = []) (canonical : m.isSelf m.self = true)
    (up : healthy reply = true) (started : (launch m).Passes start p)
    (probed : start.map (·.act)
      = [.answer (.seekSelf m.self) reply, .hear now (.seekSelf m.self) reply]) :
    p.Alone m.self ∧ p.member.service = {} := by
  have home : (Member.fresh m).hear now (.seekSelf m.self) reply
      = { member := { coordinator := { membership := m, master := m.self, started := true } }
          events := [.becameMaster] } := by
    simp [Member.hear, up, Member.settleOn, canonical]
  rw [launch_of_alone peers] at started
  cases started with
  | nil => cases probed
  | cons performs passes =>
    obtain ⟨rfl, later⟩ := List.cons.inj probed
    obtain rfl := performs.of_answer
    cases passes with
    | nil => cases later
    | cons performs passes =>
      obtain ⟨rfl, none_left⟩ := List.cons.inj later
      have settled := performs.of_hear
      cases passes with
      | cons => cases none_left
      | nil =>
        rw [settled, home]
        refine ⟨⟨rfl, rfl, ?_, peers, by simp [after]⟩, rfl⟩
        exact Coordinator.isMaster_iff.2 ⟨rfl, _, rfl, canonical⟩

end Process

/-- A cluster that is empty or lists the node alone leaves it without peers. -/
theorem NodeSettings.peers_of_alone {s : NodeSettings}
    (canonical : normalizeAddress s.selfAddress = s.selfAddress)
    (only : ∀ a ∈ s.cluster, normalizeAddress a = s.selfAddress) :
    s.membership.self = s.selfAddress ∧ s.membership.peers = [] := by
  have self : s.membership.self = s.selfAddress := canonical
  have own : ∀ c ∈ s.candidates, c = s.selfAddress := by
    intro c hc
    unfold candidates at hc
    split at hc
    · exact List.mem_singleton.1 hc
    · obtain ⟨a, ha, rfl⟩ := List.mem_map.1 hc
      exact only a ha
  refine ⟨self, List.filter_eq_nil_iff.2 fun c hc => ?_⟩
  obtain ⟨b, hb, rfl⟩ := List.mem_map.1 hc
  have same : normalizeAddress b = s.membership.self := by rw [own b hb, self, canonical]
  simp [same]

/-- Let a node have an address that is its own normal form and a cluster that is empty or lists the
    node alone, and let its start hear the node itself.  Whatever it does afterwards, it shows the
    same of every input as a node with this address that stands alone and has had the same inputs,
    but for the words in which a pushed change is refused; it has the same table after each of them,
    and the same service in the end.  It answers every request at once, so that nothing is
    forwarded, and has nothing under way but checks, so that nothing is pushed. -/
theorem cluster_of_one {s : NodeSettings} {reply : Option Relayed} {now : Int64} {p q : Process}
    {start es : List Episode} (canonical : normalizeAddress s.selfAddress = s.selfAddress)
    (only : ∀ a ∈ s.cluster, normalizeAddress a = s.selfAddress) (up : healthy reply = true)
    (started : (Process.launch s.membership).Passes start p)
    (probed : start.map (·.act)
      = [.answer (.seekSelf s.selfAddress) reply, .hear now (.seekSelf s.selfAddress) reply])
    (run : p.Passes es q) :
    Process.Simulates s.selfAddress {} es q ∧ ∀ u ∈ q.underway, u = { task := .check } := by
  obtain ⟨self, peers⟩ := NodeSettings.peers_of_alone canonical only
  have own : s.membership.isSelf s.membership.self = true :=
    Membership.isSelf_self.2 (self ▸ canonical)
  rw [← self] at probed ⊢
  obtain ⟨alone, fresh⟩ := Process.alone_of_started peers own up started probed
  rw [← fresh]
  obtain ⟨ends, simulates⟩ := alone.passes run
  exact ⟨simulates, ends.idle⟩

/-- Both sides have the same table after each input. -/
theorem Process.Simulates.stores {a : String} {s : Service} {es : List Episode} {q : Process}
    (h : Simulates a s es q) :
    (es.filter (·.act.isInput)).map (·.store)
      = ((Node.standalone a s).story (inputs es)).map (·.store) := by
  have hStores : ∀ {left right : List Episode}, List.Forall₂ Episode.Matches left right →
      right.map (·.store) = left.map (·.store) := by
    intro left right hMatches
    induction hMatches with
    | nil => rfl
    | cons hFirst _ ih =>
      cases hFirst
      rw [List.map_cons, List.map_cons, ih]
  exact hStores h.episodes

/-- A node with the default settings takes a registration and finds it, refuses a push of another
    record, sweeps a minute and a half later, and tells how it is. -/
theorem cluster_of_one_default :
    let address := "http://registry-1:8180"
    let x : Instance := { id := "i", identity := ⟨"s", "h", 80⟩ }
    let y : Instance := { id := "j", identity := ⟨"s", "h", 81⟩ }
    let asked : List Input :=
      [.receive 5 0 (PeerCall.write address ⟨.register, x⟩).request,
        .receive 6 1 (PeerCall.discovery address "s").request,
        .receive 7 2 (PeerCall.push address ⟨.register, y⟩).request,
        .sweep 95 60, .receive 96 91 ⟨"GET", "/health", [], []⟩]
    ∃ (start es : List Episode) (p q : Process),
      (Process.launch ({} : NodeSettings).membership).Passes start p ∧ p.Passes es q
      ∧ inputs es = asked ∧ Process.Simulates address {} es q
      ∧ (es.filter (·.act.isInput)).map (·.store.size) = [1, 1, 1, 0, 0] := by
  intro address x y asked
  let s : NodeSettings := {}
  have hAddress : s.selfAddress = address := by decide +kernel
  have hCanonical : normalizeAddress s.selfAddress = s.selfAddress := by decide +kernel
  have hOnly : ∀ a ∈ s.cluster, normalizeAddress a = s.selfAddress := by simp [s]
  obtain ⟨hSelf, hPeers⟩ := NodeSettings.peers_of_alone hCanonical hOnly
  obtain ⟨start, p, hStarted, hProbed⟩ := Process.exists_started hPeers (some ⟨200, []⟩) 0
  obtain ⟨es, q, hRun, hAsked⟩ := p.exists_passes asked
  rw [hSelf] at hProbed
  have hSimulates := (cluster_of_one hCanonical hOnly rfl hStarted hProbed hRun).1
  rw [hAddress] at hSimulates
  -- the simulation carries what is computed for the node alone over to the cluster
  have hSizes : ((Node.standalone address {}).story asked).map (·.store.size)
      = [1, 1, 1, 0, 0] := by decide +kernel
  refine ⟨start, es, p, q, hStarted, hRun, hAsked, hSimulates, ?_⟩
  calc (es.filter (·.act.isInput)).map (·.store.size)
      = ((es.filter (·.act.isInput)).map (·.store)).map Store.size := by
        rw [List.map_map]
        rfl
    _ = (((Node.standalone address {}).story asked).map (·.store)).map Store.size := by
        rw [hSimulates.stores, hAsked]
    _ = [1, 1, 1, 0, 0] := by
        rw [List.map_map]
        exact hSizes

end ServiceRegistry
