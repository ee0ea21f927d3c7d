/-
  No cycle of followers, as long as nobody starts ahead of a slave.

  A node that starts adopts the first candidate that is up, and a failover follows one; neither asks
  for its role.  So nodes can come to follow each other.  They do not when each start finds the
  others started, and none of them heading for the new node.

  1. `HeadsFor`, `InTurn`: where a failover of a slave can come to, and which starts keep out of it.
  2. `Ranked`: read from some place on, the ring has every node's pointer no later than the node.
     A failover keeps that, since it never passes the node itself (`idxOf_le_self_of_cameTo`), and a
     start makes the new node the last of a ring that is read anew (`idxOf_le_self_of_free`).
  3. Followers go down in the ring, so they never come round (`acyclic_of_inTurn`).
  4. What `InTurn` asks is needed: a start against either part of it can end with two nodes that
     follow each other (`follow_each_other_of_starting`, `follow_each_other_of_headsFor`).
-/
import ServiceRegistry.Proofs.Cluster.ListedOrder
import ServiceRegistry.Proofs.Cluster.Outcomes

namespace ServiceRegistry

/-! ## Places -/

section Places

variable {round before after : List String} {x y : String}

/-- What stands before an entry has an earlier place, -/
theorem idxOf_lt_of_mem_before (distinct : round.Nodup) (split : round = before ++ y :: after)
    (hx : x ∈ before) : round.idxOf x < round.idxOf y := by
  rw [split] at distinct ⊢
  have apart : y ∉ before := fun hy => (List.nodup_append.1 distinct).2.2 y hy y (.head _) rfl
  rw [List.idxOf_append_of_mem hx, List.idxOf_append_of_notMem apart]
  have inside := List.idxOf_lt_length_iff.2 hx
  omega

/-- and what has an earlier place stands before it. -/
theorem mem_before_of_idxOf_lt (split : round = before ++ y :: after)
    (lt : round.idxOf x < round.idxOf y) : x ∈ before := by
  by_contra apart
  rw [split, List.idxOf_append_of_notMem apart, List.idxOf_append] at lt
  split at lt
  · rename_i hy
    have inside := List.idxOf_lt_length_iff.2 hy
    omega
  · rw [List.idxOf_cons_self] at lt
    omega

/-- What has a later place stands after it. -/
theorem mem_after_of_idxOf_le (distinct : round.Nodup) (split : round = before ++ x :: after)
    (hy : y ∈ round) (ne : y ≠ x) (le : round.idxOf x ≤ round.idxOf y) : y ∈ after := by
  have place := hy
  rw [split] at place
  rcases mem_split.1 place with rfl | place
  · exact absurd rfl ne
  · rcases List.mem_append.1 place with ahead | behind
    · have lt := idxOf_lt_of_mem_before distinct split ahead
      omega
    · exact behind

end Places

/-- Of two that one list comes to, the one that comes first. -/
theorem eq_or_mem_of_append_eq {α : Type} {passed rest l r : List α} {x y : α}
    (eq : passed ++ x :: rest = l ++ y :: r) (ahead : y ∉ passed) : x = y ∨ x ∈ l := by
  rcases List.append_eq_append_iff.1 eq with ⟨w, rfl, right⟩ | ⟨w, rfl, right⟩
  · rcases List.cons_eq_append_iff.1 right with ⟨rfl, same⟩ | ⟨w, rfl, -⟩
    · exact .inl (List.cons.inj same).1.symm
    · exact .inr (by simp)
  · rcases List.cons_eq_append_iff.1 right with ⟨rfl, same⟩ | ⟨w, rfl, -⟩
    · exact .inl (List.cons.inj same).1
    · exact absurd (by simp) ahead

namespace Membership.Proper

variable {m : Membership} {round before rest : List String} {t x : String} (proper : m.Proper)
  (turned : m.candidates ~r round)
include proper turned

/-- Where a failover comes to before it has passed the node itself, is no later than the node. -/
theorem idxOf_le_self_of_cameTo (other : m.isSelf t = false)
    (le : round.idxOf t ≤ round.idxOf m.self)
    (came : m.CameTo (fun b => m.isSelf b = false) t (x :: rest)) :
    round.idxOf x ≤ round.idxOf m.self := by
  have distinct := turned.nodup_iff.1 proper.distinct
  have here := turned.mem_iff.1 proper.listed
  have there : t ∈ round :=
    List.idxOf_lt_length_iff.1 (Nat.lt_of_le_of_lt le (List.idxOf_lt_length_iff.2 here))
  have ne : m.self ≠ t := by
    rintro rfl
    exact Bool.false_ne_true (other.symm.trans proper.isSelf_self)
  obtain ⟨l, r, split⟩ := List.append_of_mem there
  obtain ⟨passed, order, others⟩ := came
  rw [failoverOrder_of_round turned proper.distinct
    (proper.normal t (turned.mem_iff.2 there)) split] at order
  obtain ⟨p, q, rfl⟩ := List.append_of_mem (mem_after_of_idxOf_le distinct split here ne le)
  rw [List.append_assoc, List.cons_append] at order
  -- the node itself comes after the failed one, so what is passed before it lies in between
  have not_passed : m.self ∉ passed := fun h =>
    Bool.false_ne_true ((others _ h).symm.trans proper.isSelf_self)
  rcases eq_or_mem_of_append_eq order.symm not_passed with rfl | between
  · exact Nat.le_refl _
  · have parts : round = (l ++ t :: p) ++ m.self :: q := by rw [split]; simp
    exact Nat.le_of_lt (idxOf_lt_of_mem_before distinct parts (by simp [between]))

/-- When a failover from another one would not come to `x` before the node itself, then in the ring
    that ends with `x` the other one comes before the node. -/
theorem idxOf_le_self_of_free (last : round = before ++ [x]) (listed : t ∈ m.candidates)
    (ne : t ≠ x) (free : ∀ rest, ¬ m.CameTo (fun b => m.isSelf b = false) t (x :: rest)) :
    round.idxOf t ≤ round.idxOf m.self := by
  -- otherwise the failover would come to the last of the ring before it comes round to the node
  by_contra behind
  have distinct := turned.nodup_iff.1 proper.distinct
  have there := turned.mem_iff.1 listed
  obtain ⟨l, r, split⟩ := List.append_of_mem there
  have ahead : m.self ∈ l := mem_before_of_idxOf_lt split (by omega)
  have before_last : t ∈ before := by
    rw [last] at there
    rcases List.mem_append.1 there with h | h
    · exact h
    · exact absurd (List.mem_singleton.1 h) ne
  obtain ⟨p, q, rfl⟩ := List.append_of_mem (mem_after_of_idxOf_le distinct split
    (by rw [last]; simp) ne.symm (Nat.le_of_lt (idxOf_lt_of_mem_before distinct last before_last)))
  refine free (q ++ l) ⟨p, ?_, fun b hb => ?_⟩
  · rw [failoverOrder_of_round turned proper.distinct (proper.normal t listed) split,
      List.append_assoc, List.cons_append]
  · by_contra own
    have in_round : b ∈ round := by rw [split]; simp [hb]
    rw [Bool.not_eq_false, proper.isSelf_iff (turned.mem_iff.2 in_round)] at own
    subst own
    rw [split] at distinct
    exact (List.nodup_append.1 distinct).2.2 _ ahead _ (by simp [hb]) rfl

end Membership.Proper

/-! ## Whom a failover can come to -/

/-- The node is a slave of `x`, or a failover from where it points would come to `x` before it comes
    to the node itself. -/
def Coordinator.HeadsFor (c : Coordinator) (x : String) : Prop :=
  ∃ t, c.master = some t ∧ c.membership.isSelf t = false ∧
    (t = x ∨ ∃ rest, c.membership.CameTo (fun b => c.membership.isSelf b = false) t (x :: rest))

/-! ## The invariant of a node -/

/-- What a start has heard: who answered is no later in the ring, and the node itself answers. -/
def Heard (round : List String) (a : String) : Underway → Prop
  | ⟨.seekPeer peer _, some r⟩ => healthy r = true → round.idxOf peer ≤ round.idxOf a
  | ⟨.seekSelf _, some r⟩ => healthy r = true
  | _ => True

/-- The pointer of a node is no later in the ring than the node. -/
structure Ranked (ring round : List String) (a : String) (h : PointerState) : Prop
    extends PointerState.Seated ring a h where
  pointer : h.coordinator.started = true → ∀ t, h.coordinator.master = some t →
    round.idxOf t ≤ round.idxOf a
  heard : ∀ u ∈ h.tasks, Heard round a u

namespace Ranked

variable {ring round : List String} {a : String} {live : String → Bool} {h h' : PointerState}
  {answers : PeerCall → Option Relayed → Prop}

/-- A turn leaves the pointer no later in the ring than the node. -/
theorem pointer_turn {l r : List Underway} {u : Underway} {c : Coordinator} {next : Option Task}
    (s : Ranked ring round a h) (turned : ring ~r round) (split : h.tasks = l ++ u :: r)
    (turn : PointerState.Turn h.coordinator u c next) (started : c.started = true) :
    ∀ t, c.master = some t → round.idxOf t ≤ round.idxOf a := by
  obtain ⟨fits, -⟩ := s.orderly.fits_of_split split
  have heard := s.heard u (by rw [split]; simp)
  have itself : round.idxOf h.coordinator.self ≤ round.idxOf a := by rw [s.self]
  cases turn with
  | adopt up =>
    rintro t ⟨⟩
    exact heard up
  | @begin self r =>
    rintro t ⟨⟩
    have up : healthy r = true := heard
    rw [if_pos up, fits.2]
    exact itself
  | elect | promote =>
    rintro t ⟨⟩
    exact itself
  | follow =>
    rintro t ⟨⟩
    -- who answered in a failover lies between the dead master and the node itself
    obtain ⟨started, -, -, master, rfl, points, other, came⟩ := fits
    have le := s.pointer started master points
    rw [← s.candidates] at turned
    rw [← s.self] at le ⊢
    exact s.orderly.proper.idxOf_le_self_of_cameTo turned other le came
  | nobody | giveUp => exact nofun
  | _ => exact s.pointer started

/-- A true answer is heard from one that is no later: while the node starts it is the last of those
    who are up. -/
theorem heard_answer {e : Task} {b : String} {reply : Option Relayed}
    (s : Ranked ring round a h) (fits : h.coordinator.FitsListed e)
    (last : h.coordinator.started = false → ∀ b, live b = true → round.idxOf b ≤ round.idxOf a)
    (alive : live a = true) (probes : e.call = some (.probe b)) (honest : healthy reply = live b) :
    Heard round a ⟨e, some reply⟩ := by
  cases e with
  | seekPeer peer rest =>
    cases probes
    exact fun up => last fits.1 _ (honest.symm.trans up)
  | seekSelf self =>
    cases probes
    show healthy reply = true
    rw [honest, fits.2, s.self, alive]
  | _ => trivial

/-- A step of a live node, with truthful answers to its probes.  While it starts, it is the last of
    the live ones in the ring. -/
theorem step (s : Ranked ring round a h) (turned : ring ~r round)
    (last : h.coordinator.started = false → ∀ b, live b = true → round.idxOf b ≤ round.idxOf a)
    (alive : live a = true) (honest : ∀ b r, answers (.probe b) r → healthy r = live b)
    (step : PointerState.Step answers h h') : Ranked ring round a h' := by
  have seated := s.toSeated.step step
  cases step with
  | checks n =>
    refine ⟨seated, s.pointer, fun u hu => ?_⟩
    rcases List.mem_append.1 hu with hu | hu
    · exact s.heard u hu
    · rw [List.eq_of_mem_replicate hu]
      trivial
  | @answer l r e b reply split probes given =>
    obtain ⟨fits, -⟩ := s.orderly.fits_of_split split
    refine ⟨seated, s.pointer, fun u hu => ?_⟩
    rcases mem_split.1 hu with rfl | others
    · exact s.heard_answer fits last alive probes (honest b reply given)
    · exact s.heard u (by rw [split]; exact mem_of_mem_others others)
  | @turn l u r c next split turn =>
    refine ⟨seated, s.pointer_turn turned split turn, fun v hv => ?_⟩
    rcases List.mem_append.1 hv with old | new
    · exact s.heard v (by rw [split]; exact mem_of_mem_others old)
    · obtain ⟨e, -, rfl⟩ := List.mem_map.1 new
      cases e <;> trivial

/-- A node that begins to start. -/
theorem launch {m : Membership} (proper : m.Proper) :
    Ranked m.candidates round m.self (Process.launch m).pointerState := by
  have seated := PointerState.Seated.launch proper
  obtain ⟨e, pointerState, -⟩ := PointerState.pointerState_launch m
  rw [pointerState] at seated ⊢
  refine ⟨seated, nofun, fun u hu => ?_⟩
  rw [List.mem_singleton.1 hu]
  cases e <;> trivial

/-- The ring may be read anew, so that it ends with one that the node does not head for. -/
theorem reread {before : List String} {x : String} (s : Ranked ring round a h)
    (old : ring ~r round) (turned : ring ~r before ++ [x]) (started : h.coordinator.started = true)
    (free : ¬ h.coordinator.HeadsFor x) : Ranked ring (before ++ [x]) a h := by
  have proper := s.orderly.proper
  refine ⟨s.toSeated, fun _ t points => ?_, fun u hu => ?_⟩
  · have there : t ∈ h.coordinator.membership.candidates := by
      have inside := List.idxOf_lt_length_iff.2 (old.mem_iff.1 s.listed)
      rw [s.candidates, old.mem_iff]
      exact List.idxOf_lt_length_iff.1 (Nat.lt_of_le_of_lt (s.pointer started t points) inside)
    rw [← s.candidates] at turned
    rw [← s.self]
    by_cases own : h.coordinator.membership.isSelf t = true
    · rw [(proper.isSelf_iff there).1 own]
      exact Nat.le_refl _
    · have other : h.coordinator.membership.isSelf t = false := by simpa using own
      exact proper.idxOf_le_self_of_free turned rfl there
        (fun itself => free ⟨t, points, other, .inl itself⟩)
        (fun rest came => free ⟨t, points, other, .inr ⟨rest, came⟩⟩)
  · -- the start of this node is over
    have fits := s.orderly.fits u hu
    obtain ⟨e, reply⟩ := u
    cases e with
    | seekPeer | seekSelf => exact absurd (fits.1.symm.trans started) Bool.false_ne_true
    | _ => trivial

end Ranked

namespace Cluster

/-! ## Followers -/

/-- The live node at `a` is a slave of `b`. -/
def Follows (c : Cluster) (a b : String) : Prop :=
  ∃ p, c a = some p ∧ p.member.coordinator.role = .slave ∧ p.member.coordinator.master = some b

/-- Every live node is ranked in the ring as it is read, and one that starts is the last. -/
structure AllRanked (ring round : List String) (c : Cluster) : Prop where
  turned : ring ~r round
  ranked : ∀ a p, c a = some p → Ranked ring round a p.pointerState
  last : ∀ a p, c a = some p → p.member.coordinator.started = false →
    ∀ b, c.up b = true → round.idxOf b ≤ round.idxOf a

/-- A candidate of a ring that is fit for a cluster. -/
theorem Listed.proper {ring : List String} {m : Membership} (start : Listed ring m)
    (distinct : ring.Nodup) (normal : ∀ a ∈ ring, normalizeAddress a = a) : m.Proper := by
  refine ⟨?_, ?_, ?_⟩ <;> rw [start.candidates]
  exacts [distinct, normal, start.listed]

/-- A start in turn: all live nodes have started, and none is heading for the new one. -/
structure InTurn (ring : List String) (c : Cluster) (m : Membership) : Prop
    extends Listed ring m where
  started : ∀ a p, c a = some p → p.member.coordinator.started = true
  free : ∀ a p, c a = some p → ¬ p.member.coordinator.HeadsFor m.self

namespace AllRanked

variable {ring round : List String} {a : String} {c d : Cluster} {m : Membership}

/-- Whoever is live is a candidate. -/
theorem listed (s : AllRanked ring round c) (up : c.up a = true) : a ∈ ring := by
  obtain ⟨p, live⟩ := Option.isSome_iff_exists.1 up
  exact (s.ranked a p live).listed

/-- What a live node does keeps all ranked, -/
theorem acts (s : AllRanked ring round c) (acts : Acts c d) : AllRanked ring round d := by
  refine ⟨s.turned, fun a q live => ?_, fun a q live starting => ?_⟩
  -- nobody comes or goes, and a node that is starting now was starting before
  · obtain ⟨p, lived, step⟩ := acts.step_at live
    exact (s.ranked a p lived).step s.turned (s.last a p lived) (up_of_some lived)
      (fun b r told => told) step
  · obtain ⟨p, lived, step⟩ := acts.step_at live
    rw [acts.up]
    refine s.last a p lived ?_
    by_contra started
    have ended := step.started (Bool.not_eq_false _ ▸ started)
    exact Bool.false_ne_true (starting.symm.trans ended)

/-- and so does a crash. -/
theorem crash (s : AllRanked ring round c) : AllRanked ring round (c.set a none) := by
  refine ⟨s.turned, fun b q live => s.ranked b q (some_of_crash live), fun b q live starting => ?_⟩
  exact fun x up => s.last b q (some_of_crash live) starting x (up_of_up_crash up)

/-- After a start in turn the ring is read so that it ends with the new node. -/
theorem start (s : AllRanked ring round c) (distinct : ring.Nodup)
    (normal : ∀ a ∈ ring, normalizeAddress a = a) (turn : InTurn ring c m) :
    ∃ round', AllRanked ring round' (c.set m.self (some (.launch m))) := by
  -- the ring is cut behind the new node
  obtain ⟨u, v, cut⟩ := List.append_of_mem turn.listed
  have turned : ring ~r (v ++ u) ++ [m.self] := by
    have around : (u ++ [m.self]) ++ v ~r v ++ (u ++ [m.self]) := List.isRotated_append
    rwa [List.append_assoc, List.singleton_append, ← cut, ← List.append_assoc] at around
  have proper := turn.toListed.proper distinct normal
  refine ⟨(v ++ u) ++ [m.self], turned, fun a p live => ?_, fun a p live starting b up => ?_⟩
  · by_cases eq : a = m.self
    · subst eq
      rw [set_self] at live
      cases live
      exact turn.candidates ▸ .launch proper
    · rw [set_other eq] at live
      exact (s.ranked a p live).reread s.turned turned (turn.started a p live) (turn.free a p live)
  · by_cases eq : a = m.self
    · subst eq
      have there : b ∈ ring := by
        by_cases itself : b = m.self
        · exact itself ▸ turn.listed
        · rw [Cluster.up, set_other itself] at up
          exact s.listed up
      rcases List.mem_append.1 (turned.mem_iff.1 there) with before | itself
      · exact Nat.le_of_lt (idxOf_lt_of_mem_before (turned.nodup_iff.1 distinct) rfl before)
      · rw [List.mem_singleton.1 itself]
    · rw [set_other eq] at live
      exact absurd (starting.symm.trans (turn.started a p live)) Bool.false_ne_true

/-- A node is later in the ring than the one it follows. -/
theorem idxOf_lt_of_follows {b : String} (s : AllRanked ring round c) (follows : c.Follows a b) :
    round.idxOf b < round.idxOf a := by
  obtain ⟨p, live, slave, points⟩ := follows
  have ranked := s.ranked a p live
  obtain ⟨started, others⟩ := Coordinator.role_eq_slave_iff.1 slave
  -- a slave points at another one, so the places differ
  refine Nat.lt_of_le_of_ne (ranked.pointer started b points) fun same => ?_
  have itself : a = b := (List.idxOf_inj (s.turned.mem_iff.1 ranked.listed)).1 same.symm
  exact ranked.ne_of_isSelf (others b points) itself.symm

/-- A chain of followers goes down in the ring. -/
theorem idxOf_lt_of_chain {b : String} (s : AllRanked ring round c)
    (chain : Relation.TransGen c.Follows a b) : round.idxOf b < round.idxOf a := by
  induction chain with
  | single follows => exact s.idxOf_lt_of_follows follows
  | tail _ follows ih => exact Nat.lt_trans (s.idxOf_lt_of_follows follows) ih

end AllRanked

/-- As long as nodes start in turn, the ring can be read so that all are ranked. -/
theorem reaches_allRanked {ring : List String} {c : Cluster} (distinct : ring.Nodup)
    (normal : ∀ a ∈ ring, normalizeAddress a = a)
    (reach : Reaches (InTurn ring) nobody c) : ∃ round, AllRanked ring round c := by
  induction reach with
  | refl =>
    exact ⟨ring, .refl ring, fun _ _ live => (not_live_nobody live).elim,
      fun _ _ live => (not_live_nobody live).elim⟩
  | tail _ step ih =>
    obtain ⟨round, ranked⟩ := ih
    cases step with
    | act acts => exact ⟨round, ranked.acts acts⟩
    | crash a => exact ⟨round, ranked.crash⟩
    | start m down turn => exact ranked.start distinct normal turn

/-- Let nodes start only in turn.  Then the slaves that follow each other never form a cycle: what
    is forwarded from one to the next does not come back. -/
theorem acyclic_of_inTurn {ring : List String} {c : Cluster} (distinct : ring.Nodup)
    (normal : ∀ a ∈ ring, normalizeAddress a = a)
    (reach : Reaches (InTurn ring) nobody c) (a : String) :
    ¬ Relation.TransGen c.Follows a a := by
  intro cycle
  obtain ⟨round, ranked⟩ := reaches_allRanked distinct normal reach
  exact Nat.lt_irrefl _ (ranked.idxOf_lt_of_chain cycle)

/-! ## Two nodes, and their starts -/

/-- Of two nodes, the one at `a`. -/
private def oneOfTwo (a : String) : Membership := ⟨a, ["a", "b"], "a"⟩

/-- A node whose start is over. -/
private def begun (n : Membership) (master : String) : Process :=
  .after [] ((Member.fresh n).settleOn master)

/-- The first of the two nodes is the master. -/
private def single : Cluster := nobody.set "a" (some (begun (oneOfTwo "a") "a"))

/-- The second one has started as its slave, and the first one has crashed. -/
private def orphan : Cluster := (single.set "b" (some (begun (oneOfTwo "b") "a"))).set "a" none

/-- That can happen, if both starts are allowed. -/
private theorem reaches_orphan (may : Cluster → Membership → Prop)
    (first : may nobody (oneOfTwo "a")) (second : may single (oneOfTwo "b")) :
    Reaches may nobody orphan := by
  have one : Reaches may nobody single :=
    reaches_alone may (n := oneOfTwo "a") rfl first fun _ _ => rfl
  have two : Reaches may single (single.set "b" (some (begun (oneOfTwo "b") "a"))) :=
    reaches_adopted may (n := oneOfTwo "b") rfl second
      (show (oneOfTwo "b").peers = [] ++ "a" :: [] by decide) nofun rfl
  exact (one.trans two).tail (.crash "a")

/-- The failover of the second one has ended at itself. -/
private def relieved : Cluster :=
  orphan.set "b" (some (.after (begun (oneOfTwo "b") "a").underway
    ((begun (oneOfTwo "b") "a").member.enter (some "a"))))

/-- While the only live node is master, every start is in turn. -/
private theorem inTurn_of_single {c : Cluster} {ring : List String} {n : Membership} {p : Process}
    (only : ∀ a q, c a = some q → q = p) (candidates : n.candidates = ring)
    (listed : n.self ∈ ring) (master : p.member.isMaster = true) : InTurn ring c n := by
  obtain ⟨started, t, points, own⟩ := Coordinator.isMaster_iff.1 master
  refine ⟨⟨candidates, listed⟩, fun a q live => ?_, fun a q live heads => ?_⟩
  · rw [only a q live]
    exact started
  · rw [only a q live] at heads
    obtain ⟨t', points', other, -⟩ := heads
    cases points.symm.trans points'
    exact Bool.false_ne_true (other.symm.trans own)

/-- A master crashes, its slave takes over, and the old master starts again in turn: now it is the
    one that follows, and there is no cycle. -/
theorem acyclic_of_takeover :
    ∃ c, Reaches (InTurn ["a", "b"]) nobody c ∧ c.Follows "a" "b"
      ∧ ¬ Relation.TransGen c.Follows "a" "a" := by
  have first_alone : ∀ a q, single a = some q → q = begun (oneOfTwo "a") "a" := by
    intro a q live
    by_cases eq : a = "a"
    · subst eq
      exact (Option.some.inj live).symm
    · rw [single, set_other eq] at live
      exact nomatch live
  have second_alone : ∀ a q, relieved a = some q → relieved "b" = some q := by
    intro a q live
    by_cases eq : a = "b"
    · exact eq ▸ live
    · rw [relieved, set_other eq] at live
      have there := some_of_crash live
      rw [set_other eq, single] at there
      by_cases eq' : a = "a"
      · subst eq'
        exact nomatch live
      · rw [set_other eq'] at there
        exact nomatch there
  have orphaned : Reaches (InTurn ["a", "b"]) nobody orphan := by
    refine reaches_orphan _ ⟨⟨rfl, by decide⟩, ?_, ?_⟩
      (inTurn_of_single first_alone rfl (by decide) rfl)
    all_goals exact fun _ _ live => (not_live_nobody live).elim
  have takes_over : Reaches (InTurn ["a", "b"]) orphan relieved :=
    (calm_failover (t := "a") rfl rfl rfl rfl rfl rfl).reaches _
  -- the slave has taken over before the old master is back, which is what in turn means
  have again := reaches_adopted (InTurn ["a", "b"]) (c := relieved) (n := oneOfTwo "a") rfl
    (inTurn_of_single (fun a q live => Option.some.inj ((second_alone a q live).symm)) rfl
      (by decide) rfl)
    (show (oneOfTwo "a").peers = [] ++ "b" :: [] by decide) nofun rfl
  have reach := (orphaned.trans takes_over).trans again
  exact ⟨_, reach, ⟨_, rfl, rfl, rfl⟩, acyclic_of_inTurn (by decide) (by decide) reach "a"⟩

/-! ## Starts at any time -/

/-- A node that has settled on another candidate is its slave. -/
theorem follows_settledOn {c : Cluster} {n : Membership} {b : String} {l : List Underway}
    (proper : n.Proper) (listed : b ∈ n.candidates) (ne : b ≠ n.self)
    (live : c n.self = some (.after l ((Member.fresh n).settleOn b))) : c.Follows n.self b := by
  have settled : (Process.after l ((Member.fresh n).settleOn b)).member.coordinator
      = ({ membership := n } : Coordinator).settledOn b := by simp
  generalize Process.after l ((Member.fresh n).settleOn b) = p at live settled
  have slave : p.member.coordinator.role = .slave := by
    rw [settled]
    refine Coordinator.role_eq_slave_iff.2 ⟨rfl, fun t points => ?_⟩
    cases points
    exact Bool.eq_false_iff.2 fun own => ne ((proper.isSelf_iff listed).1 own)
  have points : p.member.coordinator.master = some b := by
    rw [settled]
    rfl
  exact ⟨p, live, slave, points⟩

/-- Who follows whom is told at the follower alone. -/
theorem Follows.set_other {c : Cluster} {a b x : String} {p : Option Process}
    (follows : c.Follows a b) (ne : a ≠ x) : (c.set x p).Follows a b := by
  obtain ⟨q, live, slave, points⟩ := follows
  exact ⟨q, (Cluster.set_other ne).trans live, slave, points⟩

section OutOfTurn

variable {ring : List String} {c : Cluster} {a : String} {p : Process} {n : Membership}

/-- All others may crash, and then a node that starts adopts the one that is left. -/
theorem reaches_adopting_last (distinct : ring.Nodup) (normal : ∀ a ∈ ring, normalizeAddress a = a)
    (known : ∀ b, c.up b = true → b ∈ ring) (live : c a = some p) (start : Listed ring n)
    (ne : a ≠ n.self) :
    ∃ d, Reaches (AnyTime ring) c d ∧ d a = some p ∧ d.Follows n.self a
      ∧ ∀ b, b ≠ a → d.up b = decide (b = n.self) := by
  have left : (c.only a).up a = true := up_of_some (only_self.trans live)
  have gone : ∀ b, b ≠ a → (c.only a).up b = false := by
    intro b other
    rw [Cluster.up, only_other other]
    rfl
  have here : a ∈ n.candidates := start.candidates ▸ known a (up_of_some live)
  have peer : a ∈ n.peers := List.mem_filter.2 ⟨here, by simpa using ne⟩
  obtain ⟨silent, rest, order, fresh⟩ := List.eq_append_cons_of_mem peer
  have adopts := reaches_adopted (AnyTime ring) (gone _ ne.symm) start order
    (fun b hb => gone b fun eq => fresh (eq ▸ hb)) left
  refine ⟨_, (reaches_only _ known a).trans adopts, ?_, ?_, fun b other => ?_⟩
  · rw [set_other ne, only_self, live]
  · exact follows_settledOn (start.proper distinct normal) here ne set_self
  · by_cases new : b = n.self
    · rw [new, up_of_some set_self]
      simp
    · rw [Cluster.up, set_other new, only_other other]
      simp [new]

/-- Starts one at a time are needed: of two nodes that start together, each may adopt the other. -/
theorem follow_each_other_of_starting {m : Membership} (distinct : ring.Nodup)
    (normal : ∀ a ∈ ring, normalizeAddress a = a) (known : ∀ b, c.up b = true → b ∈ ring)
    (live : c m.self = some (.launch m)) (same : m.candidates = ring) (start : Listed ring n)
    (down : c.up n.self = false) :
    ∃ d, Reaches (AnyTime ring) c d ∧ d.Follows m.self n.self ∧ d.Follows n.self m.self := by
  have ne : m.self ≠ n.self := by
    intro eq
    exact Bool.false_ne_true (down.symm.trans (eq ▸ up_of_some live))
  have listed : n.self ∈ m.candidates := same ▸ start.listed
  obtain ⟨d, adopts, there, back, up⟩ := reaches_adopting_last distinct normal known live start ne
  have peer : n.self ∈ m.peers := List.mem_filter.2 ⟨listed, by simpa using ne.symm⟩
  obtain ⟨silent, rest, order, fresh⟩ := List.eq_append_cons_of_mem peer
  have seeks : d m.self = some (.after [] ((Member.fresh m).seek (silent ++ n.self :: rest))) := by
    rw [there, ← order]
    rfl
  have silence : ∀ b ∈ silent, d.up b = false := by
    intro b hb
    have asked : b ∈ m.peers := by rw [order]; exact List.mem_append_left _ hb
    rw [up b (Membership.ne_self_of_mem_peers asked), decide_eq_false_iff_not]
    exact fun eq => fresh (eq ▸ hb)
  have settles := calm_settled silence ((up _ ne.symm).trans (by simp)) seeks
  have proper : m.Proper := Listed.proper ⟨same, same ▸ known _ (up_of_some live)⟩ distinct
    normal
  exact ⟨_, adopts.trans (settles.reaches _), follows_settledOn proper listed ne.symm set_self,
    back.set_other ne.symm⟩

/-- A free way is needed: when a slave heads for a node that starts, the two may come to follow each
    other. -/
theorem follow_each_other_of_headsFor (distinct : ring.Nodup)
    (normal : ∀ a ∈ ring, normalizeAddress a = a) (reach : Reaches (InTurn ring) nobody c)
    (live : c a = some p) (started : p.member.coordinator.started = true)
    (free : p.member.coordinator.failingOver = false) (start : Listed ring n)
    (down : c.up n.self = false) (heads : p.member.coordinator.HeadsFor n.self) :
    ∃ d, Reaches (AnyTime ring) c d ∧ d.Follows a n.self ∧ d.Follows n.self a := by
  obtain ⟨round, ranked⟩ := reaches_allRanked distinct normal reach
  have here := ranked.ranked a p live
  have ne : a ≠ n.self := by
    rintro rfl
    exact Bool.false_ne_true (down.symm.trans (up_of_some live))
  have new_is_other : p.pointerState.coordinator.membership.isSelf n.self = false := by
    exact Bool.eq_false_iff.2 fun own => ne ((here.isSelf_iff start.listed).1 own).symm
  obtain ⟨d, adopts, there, back, up⟩ :=
    reaches_adopting_last distinct normal (fun _ => ranked.listed) live start ne
  obtain ⟨t, points, other, comes⟩ := heads
  by_cases already : t = n.self
  · subst already
    refine ⟨d, adopts, ⟨p, there, Coordinator.role_eq_slave_iff.2 ⟨started, ?_⟩, points⟩, back⟩
    intro t points'
    cases points.symm.trans points'
    exact other
  · -- its master is dead, and the failover comes to the new node
    obtain ⟨_, came⟩ := comes.resolve_left already
    obtain ⟨passed, rest, order, fresh, others⟩ := came.fresh
    have others_only : ∀ b ∈ passed ++ [n.self],
        p.pointerState.coordinator.membership.isSelf b = false := by
      intro b hb
      rcases List.mem_append.1 hb with hb | hb
      · exact others b hb
      · rw [List.mem_singleton.1 hb]
        exact new_is_other
    have silence : ∀ b ∈ passed, d.up b = false := by
      intro b hb
      rw [up b (here.ne_of_isSelf (others b hb)), decide_eq_false_iff_not]
      exact fun eq => fresh (eq ▸ hb)
    have dead : d.up t = false := (up t (here.ne_of_isSelf other)).trans (by simpa using already)
    obtain ⟨q, follows, same, started', points'⟩ := calm_followed there started
      points other free dead order silence others_only ((up _ ne.symm).trans (by simp))
    refine ⟨_, adopts.trans (follows.reaches _), ⟨q, set_self, ?_, points'⟩, back.set_other ne.symm⟩
    refine Coordinator.role_eq_slave_iff.2 ⟨started', fun t points => ?_⟩
    cases points'.symm.trans points
    rw [same]
    exact new_is_other

end OutOfTurn

/-- A master crashes and starts again before its slave has noticed: each of the two follows the
    other. -/
theorem follow_each_other :
    ∃ c, Reaches (AnyTime ["a", "b"]) nobody c ∧ c.Follows "a" "b" ∧ c.Follows "b" "a" := by
  have orphaned := reaches_orphan (AnyTime ["a", "b"]) ⟨rfl, by decide⟩ ⟨rfl, by decide⟩
  have again := reaches_adopted (AnyTime ["a", "b"]) (c := orphan) (n := oneOfTwo "a") rfl
    ⟨rfl, by decide⟩ (show (oneOfTwo "a").peers = [] ++ "b" :: [] by decide) nofun rfl
  exact ⟨_, orphaned.trans again, ⟨_, rfl, rfl, rfl⟩, ⟨_, rfl, rfl, rfl⟩⟩

end Cluster

end ServiceRegistry
