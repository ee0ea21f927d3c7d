/-
  Nodes that are started one after the other.

  Nobody crashes, and a node is started only when the starts before it are over; otherwise the nodes
  do what they please.  Where does each of them come to point?

  1. `anchor`: a node adopts the first candidate, in the order of the list, that had started before
     it; when there is none, it stays with itself.
  2. `Moored`: what keeps a node at its anchor.  Its search passes over those who are down and stops
     at the first who is up, and whoever it points at stays up, so no check of it ever fails
     (`Moored.step`).
  3. `Charted`: all nodes of an opened cluster are moored (`Opened.charted`).  So the one that
     started first is the master and the only one, and the others all point at it just when nobody
     who came before the last stands before it in the list (`opened_agreement`).
  4. Every order in which candidates may be started can be carried through (`exists_opened`); one in
     which the pointers differ is shown (`opened_astray`).
-/
import ServiceRegistry.Proofs.Cluster.Cycles

namespace ServiceRegistry

/-! ## Anchors -/

/-- Where a node comes to point that finds these candidates started: at the first of them in the
    list, or at itself. -/
def anchor (ring before : List String) (a : String) : String :=
  (ring.find? (· ∈ before)).getD a

section Anchors

variable {ring before : List String} {a t : String}

/-- A node that finds nobody started stays with itself. -/
theorem anchor_nil : anchor ring [] a = a := by
  have nobody : ring.find? (· ∈ ([] : List String)) = none := List.find?_eq_none.2 (by simp)
  rw [anchor, nobody]
  rfl

/-- The anchor is one that had started, or the node itself. -/
theorem anchor_mem : anchor ring before a ∈ a :: before := by
  unfold anchor
  cases found : ring.find? (· ∈ before) with
  | none => exact .head _
  | some x =>
    have there : x ∈ before := by simpa using List.find?_some found
    exact .tail _ there

/-- The anchor is the one that has started and stands first in the list. -/
theorem anchor_eq_iff (some_there : before ≠ []) (listed : ∀ b ∈ before, b ∈ ring) :
    anchor ring before a = t ↔ t ∈ before ∧ ∀ b ∈ before, ring.idxOf t ≤ ring.idxOf b := by
  obtain ⟨b, hb⟩ := List.exists_mem_of_ne_nil before some_there
  obtain ⟨x, found⟩ : ∃ x, ring.find? (· ∈ before) = some x :=
    Option.isSome_iff_exists.1 (List.find?_isSome.2 ⟨b, listed b hb, by simpa using hb⟩)
  obtain ⟨there, passed, rest, split, silent⟩ := List.find?_eq_some_iff_append.1 found
  have here : x ∈ before := by simpa using there
  have fresh : ∀ y ∈ before, y ∉ passed := fun y hy hp => by simpa [hy] using silent y hp
  have place : ∀ y ∈ before, passed.length ≤ ring.idxOf y := by
    intro y hy
    rw [split, List.idxOf_append_of_notMem (fresh y hy)]
    exact Nat.le_add_right ..
  have first : ring.idxOf x = passed.length := by
    rw [split, List.idxOf_append_of_notMem (fresh x here), List.idxOf_cons_self]
    rfl
  rw [anchor, found, Option.getD_some]
  constructor
  · rintro rfl
    exact ⟨here, fun y hy => first ▸ place y hy⟩
  · rintro ⟨ht, least⟩
    have same : ring.idxOf x = ring.idxOf t :=
      Nat.le_antisymm (first ▸ place t ht) (least x here)
    exact (List.idxOf_inj (listed x here)).1 same

/-- A node that has not started before itself looks for its anchor among its peers. -/
theorem find?_peers {m : Membership} (fresh : m.self ∉ before) :
    m.peers.find? (· ∈ before) = m.candidates.find? (· ∈ before) := by
  rw [Membership.peers, List.find?_filter]
  congr 1
  funext b
  by_cases itself : b = m.self
  · simp [itself, fresh]
  · simp [itself]

end Anchors

/-- A list with one more at its end is cut at that one or before it. -/
theorem cut_of_append_singleton {α : Type} {xs before after : List α} {x a : α}
    (split : xs ++ [x] = before ++ a :: after) :
    (before = xs ∧ a = x ∧ after = []) ∨ ∃ after', xs = before ++ a :: after' := by
  rcases List.eq_nil_or_concat' after with rfl | ⟨after', y, rfl⟩
  · obtain ⟨rfl, same⟩ := List.append_inj' split rfl
    cases same
    exact .inl ⟨rfl, rfl, rfl⟩
  · have regrouped : xs ++ [x] = (before ++ a :: after') ++ [y] := by rw [split]; simp
    exact .inr ⟨after', (List.append_inj' regrouped rfl).1⟩

/-- A search that has passed nobody who had started goes on past one who does not answer, since
    those who had started do. -/
theorem silent_append {before asked : List String} {peer : String} {reply : Option Relayed}
    (silent : ∀ b ∈ asked, b ∉ before) (told : healthy reply = true ↔ peer ∈ before)
    (down : healthy reply = false) : ∀ b ∈ asked ++ [peer], b ∉ before := by
  intro b hb there
  rcases List.mem_append.1 hb with hb | hb
  · exact silent b hb there
  · rw [List.mem_singleton.1 hb] at there
    exact Bool.false_ne_true (down.symm.trans (told.2 there))

/-! ## The invariant of a node -/

/-- What the tasks of a node have found out when these candidates had started before it: its
    search has passed nobody who had, and who it points at answers, so that no failover begins. -/
def Found (before : List String) (master : String) (m : Membership) : Underway → Prop
  | ⟨.seekPeer peer rest, reply⟩ =>
    (∃ asked, m.peers = asked ++ peer :: rest ∧ ∀ b ∈ asked, b ∉ before)
      ∧ ∀ r, reply = some r → (healthy r = true ↔ peer ∈ before)
  | ⟨.seekSelf _, reply⟩ =>
    (∀ b ∈ m.peers, b ∉ before) ∧ ∀ r, reply = some r → healthy r = true
  | ⟨.probeMaster t, reply⟩ => t = master ∧ ∀ r, reply = some r → healthy r = true
  | ⟨.awaitTurn _, _⟩ | ⟨.scan _ _ _, _⟩ => False
  | _ => True

/-- The node at `a`, with these candidates started before it, stays at its anchor.  Nobody dies
    here, so the checks of its master go on to succeed and no failover ever moves it. -/
structure Moored (ring before : List String) (a : String) (h : PointerState) : Prop
    extends PointerState.Seated ring a h where
  pointer : h.coordinator.started = true → h.coordinator.master = some (anchor ring before a)
  found : ∀ u ∈ h.tasks, Found before (anchor ring before a) h.coordinator.membership u

namespace Moored

variable {ring before : List String} {a : String} {live : String → Bool} {h h' : PointerState}
  {answers : PeerCall → Option Relayed → Prop}

section Turns

variable {l r : List Underway} {u : Underway} {c : Coordinator} {next : Option Task}

/-- The first peer that had started is the anchor; when there is none, the node itself is. -/
theorem anchor_eq (s : Moored ring before a h) (fresh : a ∉ before) :
    anchor ring before a = (h.coordinator.membership.peers.find? (· ∈ before)).getD a := by
  have self : h.coordinator.membership.self = a := s.self
  rw [anchor, find?_peers (self.symm ▸ fresh), s.candidates]

/-- When a turn ends the start, the pointer is at the anchor. -/
theorem pointer_turn (s : Moored ring before a h) (fresh : a ∉ before)
    (split : h.tasks = l ++ u :: r) (turn : PointerState.Turn h.coordinator u c next)
    (started : c.started = true) : c.master = some (anchor ring before a) := by
  obtain ⟨fits, -⟩ := s.orderly.fits_of_split split
  have found := s.found u (by rw [split]; simp)
  -- a start ends with a peer that answers, or with the node itself; no failover goes on
  cases turn with
  | @adopt peer rest r up =>
    obtain ⟨⟨asked, order, silent⟩, told⟩ := found
    have first : h.coordinator.membership.peers.find? (· ∈ before) = some peer := by
      rw [order]
      refine List.find?_eq_some_iff_append.2 ⟨by simpa using (told _ rfl).1 up, asked, rest, rfl,
        fun b hb => by simpa using silent b hb⟩
    rw [s.anchor_eq fresh, first]
    rfl
  | @begin self r =>
    obtain ⟨silent, told⟩ := found
    have nobody : h.coordinator.membership.peers.find? (· ∈ before) = none :=
      List.find?_eq_none.2 fun b hb => by simpa using silent b hb
    rw [s.anchor_eq fresh, nobody, Coordinator.settledOn, if_pos (told _ rfl), fits.2, s.self]
    rfl
  | elect | nobody | follow | promote | giveUp => exact found.elim
  | _ => exact s.pointer started

/-- What goes on has found out no less. -/
theorem found_next (s : Moored ring before a h) (split : h.tasks = l ++ u :: r)
    (turn : PointerState.Turn h.coordinator u c next) :
    ∀ e ∈ next.toList, Found before (anchor ring before a) c.membership { task := e } := by
  have found := s.found u (by rw [split]; simp)
  intro e he
  obtain rfl := Option.mem_toList.1 he
  -- the search passes one more who was not up; no check fails, so no failover goes on
  cases turn with
  | @seekNext peer next rest r down =>
    obtain ⟨⟨asked, order, silent⟩, told⟩ := found
    have passed := silent_append silent (told _ rfl) down
    exact ⟨⟨asked ++ [peer], by rw [order]; simp, passed⟩, nofun⟩
  | @seekSelf peer r down =>
    obtain ⟨⟨asked, order, silent⟩, told⟩ := found
    have passed := silent_append silent (told _ rfl) down
    exact ⟨order ▸ passed, nofun⟩
  | probe started points other =>
    exact ⟨Option.some.inj (points.symm.trans (s.pointer started)), nofun⟩
  | lost started nowhere => exact nomatch nowhere.symm.trans (s.pointer started)
  | failed down => exact Bool.false_ne_true (down.symm.trans (found.2 _ rfl))
  | enter | scanNext => exact found.elim

end Turns

/-- A true answer tells of a peer whether it had started, and of the node itself and its master that
    they are up. -/
theorem found_answer {e : Task} {b : String} {reply : Option Relayed}
    (s : Moored ring before a h) (fits : h.coordinator.FitsListed e)
    (found : Found before (anchor ring before a) h.coordinator.membership { task := e })
    (seeking : h.coordinator.started = false → ∀ b, b ≠ a → (live b = true ↔ b ∈ before))
    (there : ∀ b ∈ a :: before, live b = true) (probes : e.call = some (.probe b))
    (honest : healthy reply = live b) :
    Found before (anchor ring before a) h.coordinator.membership ⟨e, some reply⟩ := by
  cases e with
  | seekPeer peer rest =>
    obtain rfl : peer = b := by cases probes; rfl
    refine ⟨found.1, ?_⟩
    rintro _ ⟨⟩
    obtain ⟨starting, asked, order⟩ := fits
    have is_peer : peer ∈ h.coordinator.membership.peers := by rw [order]; simp
    -- while it starts, just those who started before it are live
    rw [honest]
    exact seeking starting peer fun itself =>
      Membership.ne_self_of_mem_peers is_peer (itself.trans s.self.symm)
  | seekSelf self =>
    cases probes
    refine ⟨found.1, ?_⟩
    rintro _ ⟨⟩
    rw [honest, fits.2, s.self]
    exact there a (.head _)
  | probeMaster t =>
    cases probes
    refine ⟨found.1, ?_⟩
    rintro _ ⟨⟩
    rw [honest, found.1]
    exact there _ anchor_mem
  | scan => exact found.elim
  | greet | pull | pullCursors | push => trivial
  | check | awaitTurn | settle => exact nomatch probes

/-- A step of a live node, with truthful answers to its probes.  Those who had started before it are
    still live, and while it starts nobody else is. -/
theorem step (s : Moored ring before a h) (fresh : a ∉ before)
    (seeking : h.coordinator.started = false → ∀ b, b ≠ a → (live b = true ↔ b ∈ before))
    (there : ∀ b ∈ a :: before, live b = true)
    (honest : ∀ b r, answers (.probe b) r → healthy r = live b)
    (step : PointerState.Step answers h h') : Moored ring before a h' := by
  have seated := s.toSeated.step step
  cases step with
  | checks n =>
    refine ⟨seated, s.pointer, fun u hu => ?_⟩
    rcases List.mem_append.1 hu with hu | hu
    · exact s.found u hu
    · rw [List.eq_of_mem_replicate hu]
      trivial
  | @answer l r e b reply split probes given =>
    obtain ⟨fits, -⟩ := s.orderly.fits_of_split split
    refine ⟨seated, s.pointer, fun u hu => ?_⟩
    rcases mem_split.1 hu with rfl | others
    · exact s.found_answer fits (s.found _ (by rw [split]; simp)) seeking there probes
        (honest b reply given)
    · exact s.found u (by rw [split]; exact mem_of_mem_others others)
  | @turn l u r c next split turn =>
    refine ⟨seated, s.pointer_turn fresh split turn, fun v hv => ?_⟩
    rcases List.mem_append.1 hv with old | new
    · show Found before _ c.membership v
      rw [turn.membership]
      exact s.found v (by rw [split]; exact mem_of_mem_others old)
    · obtain ⟨e, he, rfl⟩ := List.mem_map.1 new
      exact s.found_next split turn e he

/-- A node that begins to start. -/
theorem launch {m : Membership} (proper : m.Proper) :
    Moored m.candidates before m.self (Process.launch m).pointerState := by
  have seated := PointerState.Seated.launch proper
  obtain ⟨e, pointerState, asks⟩ := PointerState.pointerState_launch m
  rw [pointerState] at seated ⊢
  refine ⟨seated, nofun, fun u hu => ?_⟩
  rw [List.mem_singleton.1 hu]
  rcases asks with ⟨peer, rest, rfl, order⟩ | ⟨rfl, order⟩
  · exact ⟨⟨[], order, by simp⟩, nofun⟩
  · exact ⟨by simp [order], nofun⟩

end Moored

namespace Cluster

/-! ## The invariant of a cluster -/

/-- These candidates were started one after the other, each when the starts before it were over, and
    nobody has crashed. -/
inductive Opened (ring : List String) : List String → Cluster → Prop
  | nobody : Opened ring [] nobody
  | act {order c d} (opened : Opened ring order c) (acts : Acts c d) : Opened ring order d
  | start {order c} (m : Membership) (opened : Opened ring order c) (listed : Listed ring m)
      (down : c.up m.self = false)
      (begun : ∀ a p, c a = some p → p.member.coordinator.started = true) :
      Opened ring (order ++ [m.self]) (c.set m.self (some (.launch m)))

/-- Those that were started are live and moored, and the start of each is over when another one has
    started after it.  So where a node points is known from the list and the order of the starts. -/
structure Charted (ring order : List String) (c : Cluster) : Prop where
  distinct : order.Nodup
  up : ∀ a, c.up a = true ↔ a ∈ order
  moored : ∀ before a after, order = before ++ a :: after → ∀ p, c a = some p →
    Moored ring before a p.pointerState
  begun : ∀ before a after, order = before ++ a :: after → after ≠ [] → ∀ p, c a = some p →
    p.member.coordinator.started = true

namespace Charted

variable {ring order : List String} {c d : Cluster} {m : Membership}

/-- Before the first start there is nobody. -/
theorem nobody : Charted ring [] nobody := by
  refine ⟨List.nodup_nil, fun a => ?_, fun _ _ _ split => ?_, fun _ _ _ split => ?_⟩
  · simp [Cluster.up, Cluster.nobody]
  all_goals simp at split

/-- What a live node does keeps all in their places. -/
theorem act (s : Charted ring order c) (acts : Acts c d) : Charted ring order d := by
  refine ⟨s.distinct, fun a => acts.up ▸ s.up a, fun before a after split q live => ?_,
    fun before a after split later q live => ?_⟩
  · obtain ⟨p, lived, step⟩ := acts.step_at live
    have apart : (before ++ a :: after).Nodup := split ▸ s.distinct
    refine (s.moored before a after split p lived).step
      (fun there => (List.nodup_append.1 apart).2.2 a there a (.head _) rfl)
      (fun starting b other => ?_) (fun b hb => ?_) (fun b r told => told) step
    · -- nobody has started after it
      have last : after = [] := by
        by_contra later
        exact Bool.false_ne_true (starting.symm.trans (s.begun before a after split later p lived))
      rw [s.up, split, last]
      simp [other]
    · rw [s.up, split]
      rcases List.mem_cons.1 hb with rfl | hb <;> simp [*]
  · obtain ⟨p, lived, step⟩ := acts.step_at live
    exact step.started (s.begun before a after split later p lived)

/-- A start adds the new node at the end; the starts before it are over. -/
theorem start (s : Charted ring order c) (distinct : ring.Nodup)
    (normal : ∀ a ∈ ring, normalizeAddress a = a) (listed : Listed ring m)
    (down : c.up m.self = false)
    (begun : ∀ a p, c a = some p → p.member.coordinator.started = true) :
    Charted ring (order ++ [m.self]) (c.set m.self (some (.launch m))) := by
  have new : m.self ∉ order := fun there =>
    Bool.false_ne_true (down.symm.trans ((s.up _).2 there))
  refine ⟨?_, fun a => ?_, fun before a after split p live => ?_,
    fun before a after split later p live => ?_⟩
  · exact List.nodup_append.2 ⟨s.distinct, List.nodup_singleton _, fun b hb x hx eq =>
      new (List.mem_singleton.1 hx ▸ eq ▸ hb)⟩
  · by_cases itself : a = m.self
    · rw [itself, up_of_some set_self]
      simp
    · rw [Cluster.up, set_other itself, ← Cluster.up, s.up]
      simp [itself]
  · rcases cut_of_append_singleton split with ⟨rfl, rfl, -⟩ | ⟨after', split⟩
    · rw [set_self] at live
      cases live
      exact listed.candidates ▸ .launch (listed.proper distinct normal)
    · have other : a ≠ m.self := fun eq => new (by rw [split, eq]; simp)
      rw [set_other other] at live
      exact s.moored before a after' split p live
  · rcases cut_of_append_singleton split with ⟨-, -, rfl⟩ | ⟨after', split⟩
    · exact absurd rfl later
    · have other : a ≠ m.self := fun eq => new (by rw [split, eq]; simp)
      rw [set_other other] at live
      exact begun a p live

section Places

variable {a : String} {p : Process} {before after : List String}

/-- Whoever was started is a candidate. -/
theorem listed (s : Charted ring order c) (there : a ∈ order) : a ∈ ring := by
  obtain ⟨p, live⟩ := Option.isSome_iff_exists.1 ((s.up a).2 there)
  obtain ⟨before, after, split⟩ := List.append_of_mem there
  exact (s.moored before a after split p live).listed

/-- A live node has its place in the order. -/
theorem place (s : Charted ring order c) (live : c a = some p) :
    ∃ before after, order = before ++ a :: after :=
  List.append_of_mem ((s.up a).1 (up_of_some live))

/-- The one that was started first is its own anchor, and master. -/
theorem isMaster (s : Charted ring order c) (split : order = a :: after) (live : c a = some p)
    (begun : p.member.coordinator.started = true) : p.member.isMaster = true := by
  have moored := s.moored [] a after split p live
  exact Coordinator.isMaster_iff.2
    ⟨begun, a, (moored.pointer begun).trans (congrArg some anchor_nil), moored.isSelf_self⟩

/-- The anchor of any other is one that was started before it, so it is a slave. -/
theorem role_eq_slave (s : Charted ring order c) (split : order = before ++ a :: after)
    (later : before ≠ []) (live : c a = some p) (begun : p.member.coordinator.started = true) :
    p.member.coordinator.role = .slave := by
  have moored := s.moored before a after split p live
  have apart : (before ++ a :: after).Nodup := split ▸ s.distinct
  have listed : ∀ b ∈ before, b ∈ ring := fun b hb => s.listed (by rw [split]; simp [hb])
  refine Coordinator.role_eq_slave_iff.2 ⟨begun, fun t points => ?_⟩
  have there : t ∈ before :=
    ((anchor_eq_iff later listed).1
      (Option.some.inj ((moored.pointer begun).symm.trans points))).1
  refine Bool.eq_false_iff.2 fun own => ?_
  obtain rfl : t = a := (moored.isSelf_iff (listed t there)).1 own
  exact (List.nodup_append.1 apart).2.2 t there t (.head _) rfl

end Places

end Charted

/-- Every opened cluster is charted. -/
theorem Opened.charted {ring order : List String} {c : Cluster} (opened : Opened ring order c)
    (distinct : ring.Nodup) (normal : ∀ a ∈ ring, normalizeAddress a = a) :
    Charted ring order c := by
  induction opened with
  | nobody => exact .nobody
  | act _ acts ih => exact ih.act acts
  | start m _ listed down begun ih => exact ih.start distinct normal listed down begun

/-! ## Who is master, and who points at it -/

/-- All live nodes point at this one. -/
def PointsAt (c : Cluster) (t : String) : Prop :=
  ∀ a p, c a = some p → p.member.coordinator.master = some t

/-- Nobody who came before the last stands before the first one in the list. -/
def FirstLeads (ring : List String) (first : String) (rest : List String) : Prop :=
  ∀ a ∈ (first :: rest).dropLast, ring.idxOf first ≤ ring.idxOf a

section Agreement

variable {ring rest : List String} {first : String} {c : Cluster}

/-- All point at the first just when it leads all but the last in the list, since the last one is
    nobody's anchor. -/
theorem Charted.pointsAt_iff (s : Charted ring (first :: rest) c)
    (begun : ∀ a p, c a = some p → p.member.coordinator.started = true) :
    c.PointsAt first ↔ FirstLeads ring first rest := by
  have pointer : ∀ {before a after p}, first :: rest = before ++ a :: after → c a = some p →
      p.member.coordinator.master = some (anchor ring before a) :=
    fun split live => (s.moored _ _ _ split _ live).pointer (begun _ _ live)
  constructor
  · -- the last one has looked among all the others
    intro points
    obtain ⟨before, last, split⟩ : ∃ before last, first :: rest = before ++ [last] :=
      (List.eq_nil_or_concat' (first :: rest)).resolve_left (by simp)
    rw [FirstLeads, split, List.dropLast_concat]
    by_cases alone : before = []
    · simp [alone]
    · obtain ⟨p, live⟩ := Option.isSome_iff_exists.1 ((s.up last).2 (by rw [split]; simp))
      have same : anchor ring before last = first :=
        Option.some.inj ((pointer split live).symm.trans (points last p live))
      exact ((anchor_eq_iff alone fun b hb => s.listed (by rw [split]; simp [hb])).1 same).2
  · intro leads a p live
    obtain ⟨before, after, split⟩ := s.place live
    rw [pointer split live]
    congr 1
    cases before with
    | nil => rw [anchor_nil, (List.cons.inj split).1]
    | cons b before =>
      obtain rfl : first = b := (List.cons.inj split).1
      have earlier : ∀ b' ∈ first :: before, b' ∈ (first :: rest).dropLast := by
        intro b' hb
        rw [split, List.dropLast_append_of_ne_nil (by simp)]
        exact List.mem_append_left _ hb
      exact (anchor_eq_iff (by simp) fun b' hb =>
        s.listed (split ▸ List.mem_append_left _ hb)).2
        ⟨.head _, fun b' hb => leads b' (earlier b' hb)⟩

/-- Start candidates one after the other, and let nobody crash.  When the starts are over, the one
    that was started first is master, and all the others are slaves: each points at the first in the
    list of those that were started before it.  All point at the master just when nobody who came
    before the last stands before it in the list; and there is no other node that all point at. -/
theorem opened_agreement (distinct : ring.Nodup) (normal : ∀ a ∈ ring, normalizeAddress a = a)
    (opened : Opened ring (first :: rest) c)
    (begun : ∀ a p, c a = some p → p.member.coordinator.started = true) :
    (∃ p, c first = some p ∧ p.member.isMaster = true)
    ∧ (∀ a p, c a = some p → a ≠ first → p.member.coordinator.role = .slave)
    ∧ (∀ before a after p, first :: rest = before ++ a :: after → c a = some p →
        p.member.coordinator.master = some (anchor ring before a))
    ∧ (c.PointsAt first ↔ FirstLeads ring first rest)
    ∧ ∀ t, c.PointsAt t → t = first := by
  have charted := opened.charted distinct normal
  obtain ⟨p, live⟩ := Option.isSome_iff_exists.1 ((charted.up first).2 (.head _))
  have pointer : ∀ before a after p, first :: rest = before ++ a :: after → c a = some p →
      p.member.coordinator.master = some (anchor ring before a) :=
    fun before a after p split live =>
      (charted.moored before a after split p live).pointer (begun a p live)
  refine ⟨⟨p, live, charted.isMaster rfl live (begun _ _ live)⟩, fun a q there other => ?_, pointer,
    charted.pointsAt_iff begun, fun t points => ?_⟩
  · obtain ⟨before, after, split⟩ := charted.place there
    refine charted.role_eq_slave split (fun alone => other ?_) there (begun a q there)
    rw [alone] at split
    exact (List.cons.inj split).1.symm
  · have itself := pointer [] first rest p rfl live
    rw [anchor_nil] at itself
    exact Option.some.inj ((points first p live).symm.trans itself)

end Agreement

/-! ## Every order can be carried through -/

/-- A way without crashes keeps a cluster open. -/
theorem Opened.calm {ring order : List String} {c d : Cluster} (opened : Opened ring order c)
    (calm : Calm c d) : Opened ring order d := by
  induction calm with
  | refl => exact opened
  | tail _ acts ih => exact ih.act acts

/-- A start that has begun can be brought to its end. -/
theorem calm_begun (c : Cluster) (m : Membership) :
    ∃ p, Calm (c.set m.self (some (.launch m))) (c.set m.self (some p))
      ∧ p.member.coordinator.started = true := by
  have started : ∀ t, (Process.after [] ((Member.fresh m).settleOn t)).member.coordinator.started
      = true := by
    intro t
    simp
  cases found : m.peers.find? c.up with
  | none =>
    have silence : ∀ b ∈ m.peers, c.up b = false := by simpa using List.find?_eq_none.1 found
    exact ⟨_, calm_alone silence, started _⟩
  | some peer =>
    obtain ⟨up, silent, rest, order, silence⟩ := List.find?_eq_some_iff_append.1 found
    exact ⟨_, calm_adopted order (by simpa using silence) up, started _⟩

/-- Candidates can be started in any order, each when the one before it is done. -/
theorem exists_opened {ring : List String} (distinct : ring.Nodup)
    (normal : ∀ a ∈ ring, normalizeAddress a = a) {order : List String} (once : order.Nodup)
    (listed : ∀ a ∈ order, a ∈ ring) :
    ∃ c, Opened ring order c ∧ ∀ a p, c a = some p → p.member.coordinator.started = true := by
  induction order using List.reverseRecOn with
  | nil => exact ⟨nobody, .nobody, fun _ _ live => (not_live_nobody live).elim⟩
  | append_singleton order a ih =>
    obtain ⟨distinct', -, apart⟩ := List.nodup_append.1 once
    obtain ⟨c, opened, begun⟩ := ih distinct' fun b hb => listed b (List.mem_append_left _ hb)
    let m : Membership := ⟨a, ring, a⟩
    have down : c.up m.self = false := Bool.eq_false_iff.2 fun up =>
      apart a (((opened.charted distinct normal).up a).1 up) a (.head _) rfl
    obtain ⟨p, calm, started⟩ := calm_begun c m
    have starts := opened.start m ⟨rfl, listed a (by simp)⟩ down begun
    refine ⟨_, starts.calm calm, fun b q live => ?_⟩
    by_cases itself : b = a
    · subst itself
      rw [set_self] at live
      cases live
      exact started
    · rw [set_other itself] at live
      exact begun b q live

/-- The second of three nodes starts first, and the first one last: they all follow the second. -/
theorem opened_agreement_of_second :
    ∃ c, Opened ["a", "b", "c"] ["b", "c", "a"] c ∧ c.PointsAt "b"
      ∧ ∃ p, c "b" = some p ∧ p.member.isMaster = true := by
  obtain ⟨c, opened, begun⟩ : ∃ c, Opened ["a", "b", "c"] ["b", "c", "a"] c
      ∧ ∀ a p, c a = some p → p.member.coordinator.started = true :=
    exists_opened (by decide) (by decide) (by decide) (by decide)
  obtain ⟨master, -, -, agreement, -⟩ := opened_agreement (by decide) (by decide) opened begun
  exact ⟨c, opened, agreement.2 (by unfold FirstLeads; decide), master⟩

/-- The second of three nodes starts first, and the first one next: it follows the second.  The last
    one finds the first, and follows that.  And a node whose address is not in normal form does not
    know itself: it starts alone and is no master. -/
theorem opened_astray :
    (∃ c, Opened ["a", "b", "c"] ["b", "a", "c"] c
      ∧ (∀ a p, c a = some p → p.member.coordinator.started = true) ∧ ¬ ∃ t, c.PointsAt t)
    ∧ ∃ c, Opened ["a "] ["a "] c
      ∧ (∀ a p, c a = some p → p.member.coordinator.started = true)
      ∧ ∀ a p, c a = some p → p.member.isMaster = false := by
  constructor
  · -- the first to start leads itself, but the last one follows the first of the list that is live
    obtain ⟨c, opened, begun⟩ : ∃ c, Opened ["a", "b", "c"] ["b", "a", "c"] c
        ∧ ∀ a p, c a = some p → p.member.coordinator.started = true :=
      exists_opened (by decide) (by decide) (by decide) (by decide)
    have charted := opened.charted (by decide) (by decide)
    refine ⟨c, opened, begun, ?_⟩
    rintro ⟨t, points⟩
    obtain ⟨p, first⟩ := Option.isSome_iff_exists.1 ((charted.up "b").2 (by decide))
    obtain ⟨q, last⟩ := Option.isSome_iff_exists.1 ((charted.up "c").2 (by decide))
    have itself : p.member.coordinator.master = some "b" :=
      (charted.moored [] "b" ["a", "c"] rfl p first).pointer (begun _ _ first)
    have other : q.member.coordinator.master = some "a" :=
      (charted.moored ["b", "a"] "c" [] rfl q last).pointer (begun _ _ last)
    rw [points _ _ first] at itself
    rw [points _ _ last, itself] at other
    exact absurd other (by decide)
  · -- with nobody to ask the node settles on its own address, which it takes for another's
    let m : Membership := ⟨"a ", ["a "], "a "⟩
    have starts : Opened ["a "] ["a "] (nobody.set m.self (some (.launch m))) :=
      .start m .nobody ⟨rfl, by decide⟩ rfl fun _ _ live => (not_live_nobody live).elim
    have alone : ∀ b ∈ m.peers, nobody.up b = false := fun _ _ => rfl
    have only : ∀ a p, nobody.set m.self (some (.after [] ((Member.fresh m).settleOn m.self))) a
        = some p → p.member.coordinator = (Member.fresh m).coordinator.settledOn m.self := by
      intro a p live
      by_cases itself : a = m.self
      · rw [itself, set_self] at live
        rw [← Option.some.inj live]
        simp only [Process.after_member, Member.coordinator_settleOn]
      · rw [set_other itself] at live
        exact (not_live_nobody live).elim
    refine ⟨_, starts.calm (calm_alone alone), fun a p live => ?_, fun a p live => ?_⟩
    · rw [only a p live]
      rfl
    · rw [Member.isMaster, only a p live]
      decide

end Cluster

end ServiceRegistry
