/-
  One master while nodes crash, and agreement when crashes stop.

  Let all nodes know the same ring of candidates and point at the same live one, `m`.

  1. `AllSteady.reaches`: whatever crashes and checks follow, every live node is `Steady`.
  2. `AllSteady.first_of_isMaster`: so only the first live candidate from `m` on can be master.
  3. Without further crashes, a check is `Headed` for a live pointer from its beginning: the node
     points at a live candidate, or some task will find out.  When nothing is under way any more,
     the pointer is live (`good_of_checked`), and stays so (`Good.step`).

  `failover_agreement` puts the parts together.  A failover that was queued from `m` before `m`
  crashed and came back goes by old news, and may end with a second master (`two_masters`).
-/
import ServiceRegistry.Proofs.Cluster.Failover
import ServiceRegistry.Proofs.Cluster.Outcomes

namespace ServiceRegistry

/-! ## A check from its beginning to its end -/

namespace PointerState

/-- The pointer is at a live node. -/
def Good (live : String → Bool) (h : PointerState) : Prop :=
  ∃ t, h.coordinator.master = some t ∧ live t = true

/-- All answers under way say who is live now. -/
def Informed (live : String → Bool) (h : PointerState) : Prop :=
  ∀ u ∈ h.tasks, ∀ a r, u.task.call = some (.probe a) → u.reply = some r → healthy r = live a

/-- A task that looks after the present pointer. -/
def LooksAfter (master : Option String) : Task → Prop
  | .check => True
  | .probeMaster t => master = some t
  | .awaitTurn failed => master = failed
  | .scan _ _ _ => True
  | _ => False

/-- The pointer is live, or a task looks after it: either it is right, or something is under way
    that will put it right. -/
def Headed (live : String → Bool) (h : PointerState) : Prop :=
  Good live h ∨ ∃ u ∈ h.tasks, LooksAfter h.coordinator.master u.task

variable {ring : List String} {first a : String} {live : String → Bool} {h h' : PointerState}
  {answers : PeerCall → Option Relayed → Prop}

/-- Truthful answers keep all informed: only an answer that comes now is new. -/
theorem Informed.step (i : Informed live h)
    (honest : ∀ b r, answers (.probe b) r → healthy r = live b) (step : Step answers h h') :
    Informed live h' := by
  intro u hu b r probes replied
  cases step with
  | checks n =>
    -- a check that has become due has no reply yet
    rcases List.mem_append.1 hu with hu | hu
    · exact i u hu b r probes replied
    · rw [List.eq_of_mem_replicate hu] at replied
      exact nomatch replied
  | @answer l k e b' reply split probes' given =>
    rw [Informed, split] at i
    rcases mem_split.1 hu with rfl | hu
    · cases replied
      cases probes'.symm.trans probes
      exact honest _ _ given
    · exact i u (mem_of_mem_others hu) b r probes replied
  | @turn l w k c next split turn =>
    rw [Informed, split] at i
    rcases List.mem_append.1 hu with old | new
    · exact i u (mem_of_mem_others old) b r probes replied
    · obtain ⟨e, he, rfl⟩ := List.mem_map.1 new
      exact nomatch replied

section Turns

variable {l r : List Underway} {u : Underway} {c : Coordinator} {next : Option Task}

/-- A pointer that is live stays where it is. -/
theorem Good.coordinator_turn (g : Good live h) (s : Steady ring first live a h)
    (split : h.tasks = l ++ u :: r) (turn : Turn h.coordinator u c next) :
    c = h.coordinator := by
  obtain ⟨fits, -⟩ := s.orderly.fits_of_split split
  have known := s.evidence u (by rw [split]; simp)
  obtain ⟨t, points, up⟩ := g
  -- a failover begins and goes on only while the pointer is dead
  have never : ∀ {failed}, h.coordinator.master = some failed → live failed ≠ false := by
    intro failed there down
    rw [points] at there
    cases there
    exact Bool.false_ne_true (down.symm.trans up)
  cases turn with
  | adopt | begin => exact absurd (fits.1.symm.trans s.started) Bool.false_ne_true
  | elect free same | enter free same | nobody free same =>
    obtain ⟨-, failed, rfl, -⟩ := fits
    exact absurd known (never same)
  | follow | promote | giveUp =>
    obtain ⟨-, -, -, failed, rfl, there, -⟩ := fits
    exact absurd known.1 (never there)
  | _ => rfl

/-- A turn keeps the pointer headed for a live node: the task that looks after it hands it on to the
    next, or ends with a live pointer. -/
theorem Headed.turn (headed : Headed live h) (s : Steady ring first live a h)
    (alive : live a = true) (i : Informed live h) (split : h.tasks = l ++ u :: r)
    (turn : Turn h.coordinator u c next) :
    Headed live ⟨c, l ++ r ++ next.toList.map fun e => { task := e }⟩ := by
  obtain ⟨fits, -⟩ := s.orderly.fits_of_split split
  have told := i u (by rw [split]; simp)
  have self_up : live h.coordinator.self = true := s.self ▸ alive
  have pointed := s.orderly.pointed_turn fits turn (turn.started s.started)
  rcases headed with good | ⟨v, hv, looks⟩
  · have same := good.coordinator_turn s split turn
    exact .inl (same ▸ good)
  -- the task that looks after the pointer has its turn, or waits on
  have waits : c = h.coordinator → v ∈ l ++ r →
      Headed live ⟨c, l ++ r ++ next.toList.map fun e => { task := e }⟩ :=
    fun same others => .inr ⟨v, List.mem_append_left _ others, same ▸ looks⟩
  have goes_on : ∀ e, next = some e → LooksAfter c.master e →
      Headed live ⟨c, l ++ r ++ next.toList.map fun e => { task := e }⟩ := by
    rintro e rfl looks
    exact .inr ⟨{ task := e }, by simp, looks⟩
  rw [split] at hv
  cases turn with
  | adopt | begin | seekNext | seekSelf =>
    exact absurd (fits.1.symm.trans s.started) Bool.false_ne_true
  | early starting => exact absurd (starting.symm.trans s.started) Bool.false_ne_true
  | master started points own =>
    have itself := (s.isSelf_iff (mem_roundFrom.1 (s.pointer _ points).mem)).1 own
    exact .inl ⟨_, points, itself ▸ alive⟩
  | probe started points other => exact goes_on _ rfl points
  | lost started nowhere => exact goes_on _ rfl nowhere
  | fine up =>
    -- the check that looks after the pointer has found the master up, and answers are true
    rcases mem_split.1 hv with rfl | others
    · exact .inl ⟨_, looks, (told _ _ rfl rfl).symm.trans up⟩
    · exact waits rfl others
  | failed down =>
    rcases mem_split.1 hv with rfl | others
    · exact goes_on _ rfl looks
    · exact waits rfl others
  | stale free moved =>
    -- a failover that the pointer has left does not look after it
    rcases mem_split.1 hv with rfl | others
    · exact absurd looks moved
    · exact waits rfl others
  | elect | promote => exact .inl ⟨_, rfl, self_up⟩
  | enter => exact goes_on _ rfl trivial
  | follow up => exact .inl ⟨_, rfl, (told _ _ rfl rfl).symm.trans up⟩
  | scanNext => exact goes_on _ rfl trivial
  | nobody | giveUp => exact absurd pointed (by simp [Coordinator.failedOver])

end Turns

/-- So no step moves it. -/
theorem Good.step (g : Good live h) (s : Steady ring first live a h) (step : Step answers h h') :
    Good live h' := by
  cases step with
  | checks n => exact g
  | answer => exact g
  | turn split turn =>
    have same := g.coordinator_turn s split turn
    exact same ▸ g

/-- A step keeps the pointer headed for a live node. -/
theorem Headed.step (headed : Headed live h) (s : Steady ring first live a h)
    (alive : live a = true) (i : Informed live h) (step : Step answers h h') :
    Headed live h' := by
  cases step with
  | checks n =>
    rcases headed with good | ⟨v, hv, looks⟩
    · exact .inl good
    · exact .inr ⟨v, List.mem_append_left _ hv, looks⟩
  | @answer l r e b reply split probes given =>
    rcases headed with good | ⟨v, hv, looks⟩
    · exact .inl good
    · rw [split] at hv
      rcases mem_split.1 hv with rfl | others
      · exact .inr ⟨⟨e, some reply⟩, by simp, looks⟩
      · exact .inr ⟨v, mem_of_mem_others others, looks⟩
  | turn split turn => exact headed.turn s alive i split turn

end PointerState

/-- Nothing is under way that can move the pointer of a node. -/
def Process.Idle (p : Process) : Prop := p.pointerState.tasks = []

namespace Cluster

/-! ## Runs with crashes -/

/-- All live nodes know the ring, have started and point at `m`, which is live. -/
structure Pointing (ring : List String) (m : String) (c : Cluster) : Prop where
  live : c.up m = true
  self : ∀ a p, c a = some p → p.member.coordinator.self = a
  candidates : ∀ a p, c a = some p → p.member.coordinator.membership.candidates = ring
  listed : ∀ a p, c a = some p → a ∈ ring
  started : ∀ a p, c a = some p → p.member.coordinator.started = true
  points : ∀ a p, c a = some p → p.member.coordinator.master = some m

/-- What a check or a queued failover has heard is still so: a probe of a node that is live has not
    failed, no failover is queued from a node that is live, and none is past its turn. -/
def Current (m : Membership) (live : String → Bool) : Underway → Prop
  | ⟨.check, _⟩ => True
  | ⟨.probeMaster t, reply⟩ =>
    m.isSelf t = false ∧ ∀ r, reply = some r → healthy r = false → live t = false
  | ⟨.awaitTurn failed, _⟩ => ∃ t, failed = some t ∧ m.isSelf t = false ∧ live t = false
  | _ => False

/-- All live nodes point at `m`, and nothing that is under way goes by old news. -/
structure Agreed (ring : List String) (m : String) (c : Cluster) : Prop
    extends Pointing ring m c where
  current : ∀ a p, c a = some p → ∀ u ∈ p.pointerState.tasks,
    Current p.pointerState.coordinator.membership c.up u

/-- Every live node is steady. -/
def AllSteady (ring : List String) (first : String) (c : Cluster) : Prop :=
  ∀ a p, c a = some p → Steady ring first c.up a p.pointerState

variable {ring : List String} {first a : String} {c d : Cluster}

/-- Every live node of such a cluster is in its place, for all that is under way fits its
    coordinator. -/
theorem Agreed.seated {m : String} {p : Process} (agreed : Agreed ring m c) (distinct : ring.Nodup)
    (normal : ∀ a ∈ ring, normalizeAddress a = a) (live : c a = some p) :
    PointerState.Seated ring a p.pointerState := by
  have candidates : p.pointerState.coordinator.membership.candidates = ring :=
    agreed.candidates a p live
  have self : p.pointerState.coordinator.membership.self = a := agreed.self a p live
  refine ⟨⟨⟨?_, ?_, ?_⟩, fun _ => ⟨m, agreed.points a p live⟩, fun u hu => ?_, ?_⟩, self,
    candidates⟩
  · rw [candidates]
    exact distinct
  · rw [candidates]
    exact normal
  · rw [candidates, self]
    exact agreed.listed a p live
  · have current := agreed.current a p live u hu
    have started := agreed.started a p live
    obtain ⟨e, reply⟩ := u
    cases e with
    | check => trivial
    | probeMaster t => exact ⟨started, current.1⟩
    | awaitTurn failed =>
      obtain ⟨t, rfl, other, -⟩ := current
      exact ⟨started, t, rfl, other⟩
    | _ => exact current.elim
  · -- a search is never among what is under way at the beginning
    have no_search : p.pointerState.tasks.countP (·.task.searches) = 0 := by
      refine List.countP_eq_zero.2 fun u hu search => ?_
      have current := agreed.current a p live u hu
      obtain ⟨e, reply⟩ := u
      cases e with
      | seekPeer | seekSelf | scan => exact current.elim
      | _ => exact nomatch search
    omega

/-- So it is steady in the ring that is read from `m` on. -/
theorem Agreed.allSteady {m : String} (agreed : Agreed ring m c) (distinct : ring.Nodup)
    (normal : ∀ a ∈ ring, normalizeAddress a = a) : AllSteady ring m c := by
  intro a p live
  obtain ⟨q, up⟩ := Option.isSome_iff_exists.1 agreed.live
  obtain ⟨rest, round⟩ := roundFrom_head (agreed.listed m q up)
  refine ⟨agreed.seated distinct normal live, agreed.started a p live, fun t points => ?_,
    fun u hu => ?_⟩
  · -- the ring is read from the pointer on, so nobody is before it
    cases (agreed.points a p live).symm.trans points
    exact ⟨[], rest, round, by simp⟩
  · -- what has been heard is still so, which is all the evidence that is asked for
    have current := agreed.current a p live u hu
    obtain ⟨e, reply⟩ := u
    cases e with
    | probeMaster t =>
      cases reply with
      | none => trivial
      | some r => exact current.2 r rfl
    | awaitTurn failed =>
      obtain ⟨t, rfl, -, down⟩ := current
      exact down
    | scan => exact current.elim
    | _ => trivial

/-- What a live node does keeps all steady, -/
theorem AllSteady.acts (s : AllSteady ring first c) (acts : Acts c d) :
    AllSteady ring first d := by
  intro a q live
  obtain ⟨p, lived, step⟩ := acts.step_at live
  rw [acts.up]
  exact (s a p lived).step (up_of_some lived) (fun b r told => told) step

/-- and so do crashes, after which fewer are live. -/
theorem AllSteady.reaches (s : AllSteady ring first c) (reach : Reaches NoStarts c d) :
    AllSteady ring first d := by
  induction reach with
  | refl => exact s
  | tail _ step ih =>
    cases step with
    | act acts => exact ih.acts acts
    | crash a =>
      intro b q live
      exact (ih b q (some_of_crash live)).mono fun _ => up_of_up_crash
    | start m down allowed => exact allowed.elim

/-- A live node that points at a live node points at the first of the ring. -/
theorem AllSteady.find?_of_good {p : Process} (s : AllSteady ring first c) (live : c a = some p)
    (good : p.pointerState.Good c.up) :
    p.member.coordinator.master = (roundFrom ring first).find? c.up := by
  obtain ⟨t, points, up⟩ := good
  rw [((s a p live).pointer t points).find? up]
  exact points

/-- Only the first live candidate can be master. -/
theorem AllSteady.first_of_isMaster {p : Process} (s : AllSteady ring first c)
    (live : c a = some p) (master : p.member.isMaster = true) :
    (roundFrom ring first).find? c.up = some a := by
  obtain ⟨-, t, points, own⟩ := Coordinator.isMaster_iff.1 master
  have steady := s a p live
  have reached := steady.pointer t points
  have eq : t = a := (steady.isSelf_iff (mem_roundFrom.1 reached.mem)).1 own
  exact eq ▸ reached.find? (eq ▸ up_of_some live)

/-! ## Runs without crashes -/

/-- On a way without crashes from `c` to `d`, the node at `a` runs a check from its beginning to its
    end, with nothing else under way when it begins and nothing left when it has ended. -/
def CheckedOnce (a : String) (c d : Cluster) : Prop :=
  ∃ c₁ c₂ p q, Calm c c₁ ∧ c₁ a = some p ∧ p.Idle
    ∧ Calm (c₁.set a (some p.dueCheck)) c₂ ∧ c₂ a = some q ∧ q.Idle ∧ Calm c₂ d

/-- A way without crashes is such a way. -/
theorem AllSteady.calm (s : AllSteady ring first c) (calm : Calm c d) : AllSteady ring first d := by
  induction calm with
  | refl => exact s
  | tail _ acts ih => exact ih.acts acts

/-- A live pointer stays while nobody crashes. -/
theorem good_of_calm (s : AllSteady ring first c)
    (good : ∀ p, c a = some p → p.pointerState.Good c.up)
    (calm : Calm c d) : ∀ q, d a = some q → q.pointerState.Good d.up := by
  induction calm with
  | refl => exact good
  | tail before acts ih =>
    intro q live
    obtain ⟨p, lived, step⟩ := acts.step_at live
    rw [acts.up]
    exact (ih p lived).step (s.calm before a p lived) step

/-- While nobody crashes, a pointer that is headed for a live node remains so. -/
theorem headed_of_calm (s : AllSteady ring first c)
    (headed : ∀ p, c a = some p → p.pointerState.Informed c.up ∧ p.pointerState.Headed c.up)
    (calm : Calm c d) :
    ∀ q, d a = some q → q.pointerState.Informed d.up ∧ q.pointerState.Headed d.up := by
  induction calm with
  | refl => exact headed
  | tail before acts ih =>
    intro q live
    obtain ⟨p, lived, step⟩ := acts.step_at live
    obtain ⟨informed, headed⟩ := ih p lived
    rw [acts.up]
    exact ⟨informed.step (fun b r told => told) step,
      headed.step (s.calm before a p lived) (up_of_some lived) informed step⟩

/-- After a whole check a node points at a live one. -/
theorem good_of_checked (s : AllSteady ring first c) (checked : CheckedOnce a c d) :
    ∀ q, d a = some q → q.pointerState.Good d.up := by
  obtain ⟨c₁, c₂, p, q, before, live, idle, during, live', idle', after⟩ := checked
  have due : Acts c₁ (c₁.set a (some p.dueCheck)) := .node a live .check
  have tasks : p.dueCheck.pointerState.tasks = [{ task := .check }] := by
    rw [Process.pointerState_dueCheck, idle]
    rfl
  have begins : ∀ p', c₁.set a (some p.dueCheck) a = some p' →
      p'.pointerState.Informed (c₁.set a (some p.dueCheck)).up
        ∧ p'.pointerState.Headed (c₁.set a (some p.dueCheck)).up := by
    intro p' there
    rw [set_self] at there
    cases there
    refine ⟨fun u hu b r probes replied => ?_, .inr ⟨{ task := .check }, ?_, trivial⟩⟩
    · rw [tasks] at hu
      rw [List.mem_singleton.1 hu] at replied
      exact nomatch replied
    · rw [tasks]
      exact .head _
  have steady := (s.calm before).acts due
  -- at the end nothing is left that could still find out
  have good : ∀ q, c₂ a = some q → q.pointerState.Good c₂.up := by
    intro q' there
    cases live'.symm.trans there
    rcases (headed_of_calm steady begins during q live').2 with good | ⟨u, hu, -⟩
    · exact good
    · rw [idle'] at hu
      exact absurd hu List.not_mem_nil
  exact good_of_calm (steady.calm during) good after

/-! ## Agreement -/

/-- Let all live nodes of a cluster have started and point at the same live candidate `m`, and let
    nothing under way go by old news.  Then after any crashes and checks at most one live node is
    master.  And once crashes stop and each live node runs a whole check, all point at the first
    live candidate from `m` on, and that one alone is master. -/
theorem failover_agreement {m : String} {c₀ : Cluster} (distinct : ring.Nodup)
    (normal : ∀ a ∈ ring, normalizeAddress a = a) (agreed : Agreed ring m c₀)
    (reach : Reaches NoStarts c₀ c) :
    (∀ a b p q, c a = some p → c b = some q → p.member.isMaster = true →
      q.member.isMaster = true → a = b)
    ∧ ∀ d, (∀ a, d.up a = true → CheckedOnce a c d) →
      ∀ a p, d a = some p →
        p.member.coordinator.master = (roundFrom ring m).find? d.up
          ∧ (p.member.isMaster = true ↔ (roundFrom ring m).find? d.up = some a) := by
  have steady := (agreed.allSteady distinct normal).reaches reach
  refine ⟨fun a b p q hp hq master master' => ?_, fun d checked a p live => ?_⟩
  · -- two masters would both be the first live candidate
    exact Option.some.inj ((steady.first_of_isMaster hp master).symm.trans
      (steady.first_of_isMaster hq master'))
  · have up := up_of_some live
    obtain ⟨c₁, c₂, p', q', before, lived, -, during, -, -, after⟩ := checked a up
    have due : Acts c₁ (c₁.set a (some p'.dueCheck)) := .node a lived .check
    have steady' := (((steady.calm before).acts due).calm during).calm after
    have good := good_of_checked steady (checked a up) p live
    have points := steady'.find?_of_good live good
    refine ⟨points, steady'.first_of_isMaster live, fun first => ?_⟩
    have here := steady' a p live
    exact Coordinator.isMaster_iff.2 ⟨here.started, a, points.trans first, here.isSelf_self⟩

/-! ## Two nodes, and a crash -/

/-- One of two nodes that have started and follow the first of them. -/
private def follower (a : String) : Process where
  member := { coordinator :=
    { membership := ⟨a, ["a", "b"], "a"⟩, master := some "a", started := true } }

/-- Two nodes that have started, with the first as master. -/
private def pair : Cluster := fun x =>
  if x = "a" then some (follower "a") else if x = "b" then some (follower "b") else none

/-- Whoever is live is one of them. -/
private theorem follower_of_pair {a : String} {p : Process} (live : pair a = some p) :
    (a = "a" ∨ a = "b") ∧ p = follower a := by
  unfold pair at live
  split at live
  · rename_i eq
    cases live
    exact ⟨.inl eq, eq ▸ rfl⟩
  · split at live
    · rename_i eq
      cases live
      exact ⟨.inr eq, eq ▸ rfl⟩
    · exact nomatch live

/-- They agree, and nothing is under way. -/
private theorem agreed_pair : Agreed ["a", "b"] "a" pair := by
  refine ⟨⟨rfl, fun a p live => ?self, fun a p live => ?candidates, fun a p live => ?listed,
    fun a p live => ?started, fun a p live => ?points⟩, fun a p live => ?current⟩
  all_goals obtain ⟨here, rfl⟩ := follower_of_pair live
  case listed => simpa using here
  case current => exact fun u hu => absurd hu List.not_mem_nil
  all_goals rfl

/-- The second node checks after the first one has crashed: its probe finds no connection, and the
    failover comes to the node itself. -/
private theorem check_of_pair :
    ∃ q : Process, Calm ((pair.set "a" none).set "b" (some (follower "b").dueCheck))
        ((pair.set "a" none).set "b" (some q)) ∧ q.Idle := by
  -- the check begins, the probe fails, the failover waits for its turn, the node promotes itself
  refine ⟨_, (((Relation.ReflTransGen.refl.tail
    (acts_set (.run (l := []) (r := []) rfl rfl))).tail
    (acts_set (.answer (l := []) (r := []) rfl rfl
      (show Truthful _ (.probe "a") none by rfl)))).tail
    (acts_set (.hear (l := []) (r := []) 0 rfl rfl))).tail
    (acts_set (.run (l := []) (r := []) rfl rfl)), by rfl⟩

/-- The first of two nodes crashes; once the other one has checked, it is the only master. -/
theorem failover_agreement_of_pair :
    ∃ d p, CheckedOnce "b" (pair.set "a" none) d ∧ d "b" = some p
      ∧ p.member.coordinator.master = some "b" ∧ p.member.isMaster = true
      ∧ ∀ a q, d a = some q → q.member.isMaster = true → a = "b" := by
  obtain ⟨q, calm, idle⟩ := check_of_pair
  have checked : CheckedOnce "b" (pair.set "a" none) ((pair.set "a" none).set "b" (some q)) :=
    ⟨_, _, follower "b", q, .refl, rfl, rfl, calm, set_self, idle, .refl⟩
  have alone : ∀ a, ((pair.set "a" none).set "b" (some q)).up a = true → a = "b" := by
    intro a up
    by_contra other
    rw [Cluster.up, set_other other] at up
    obtain ⟨p, there⟩ := Option.isSome_iff_exists.1 up
    rcases (follower_of_pair (some_of_crash there)).1 with rfl | rfl
    · rw [set_self] at there
      cases there
    · exact other rfl
  obtain ⟨-, agreement⟩ := failover_agreement (by decide) (by decide) agreed_pair
    (.single (.crash "a"))
  have settled := agreement _ (fun a up => by obtain rfl := alone a up; exact checked)
  have first : (roundFrom ["a", "b"] "a").find? ((pair.set "a" none).set "b" (some q)).up
      = some "b" := rfl
  obtain ⟨points, master⟩ := settled "b" q set_self
  refine ⟨_, q, checked, set_self, points.trans first, master.2 first, ?_⟩
  intro a p there elected
  exact Option.some.inj (((settled a p there).2.1 elected).symm.trans first)

/-! ## Three nodes, and a failover queued too early -/

/-- One of three nodes. -/
private def ofThree (a : String) : Membership := ⟨a, ["p", "m", "b"], "p"⟩

/-- One of them, whose start has ended with this master. -/
private def startedAt (a master : String) : Process :=
  .after [] ((Member.fresh (ofThree a)).settleOn master)

/-- The last one has followed `m` and found it dead, and its failover waits for its turn. -/
private def queued : Process :=
  .after (startedAt "b" "m").underway
    { member := (startedAt "b" "m").member, next := some (.awaitTurn (some "m")) }

/-- The first node has come back, has followed another one, and takes over from that. -/
private def returned : Process :=
  .after (startedAt "m" "p").underway ((startedAt "m" "p").member.enter (some "p"))

/-- `m` starts as master and `b` as its slave, and `m` crashes. -/
private def bereft : Cluster :=
  ((nobody.set "m" (some (startedAt "m" "m"))).set "b" (some (startedAt "b" "m"))).set "m" none

/-- `b` finds `m` dead; then `p` starts and follows `b`, `m` starts again and follows `p`, and `p`
    crashes. -/
private def rejoined : Cluster :=
  (((bereft.set "b" (some queued)).set "p" (some (startedAt "p" "b"))).set "m"
    (some (startedAt "m" "p"))).set "p" none

/-- Both starts can be gone through, for each finds whom it should. -/
private theorem reaches_bereft : Reaches (AnyTime ["p", "m", "b"]) nobody bereft := by
  have one := reaches_alone (AnyTime ["p", "m", "b"]) (c := nobody) (n := ofThree "m") rfl
    ⟨rfl, by decide⟩ fun _ _ => rfl
  have two := reaches_adopted (AnyTime ["p", "m", "b"]) (n := ofThree "b")
    (c := nobody.set "m" (some (startedAt "m" "m"))) rfl ⟨rfl, by decide⟩
    (show (ofThree "b").peers = ["p"] ++ "m" :: [] by decide) (by simp; rfl) rfl
  exact (one.trans two).tail (.crash "m")

/-- A check of `b` is due, asks `m`, and hears that it is dead. -/
private theorem calm_queued : Calm bereft (bereft.set "b" (some queued)) := by
  have live : bereft "b" = some (startedAt "b" "m") := rfl
  have due : Calm bereft _ := calm_of_move live .check
  have checks := calm_ran (l := (startedAt "b" "m").underway)
    (Member.Turn.eq_run (.probe (t := "m") rfl rfl (by decide)))
    (set_self (c := bereft) (a := "b") (p := some (startedAt "b" "m").dueCheck))
  obtain ⟨r, honest, heard⟩ := calm_told (m := (startedAt "b" "m").member)
    (l := (startedAt "b" "m").underway) (e := .probeMaster "m") rfl
    (set_self (c := bereft) (a := "b") (p := some _))
  have down : bereft.up "m" = false := rfl
  rw [up_set_live live, down] at honest
  rw [Member.Turn.eq_hear (.failed honest)] at heard
  rw [set_set] at checks heard
  exact due.trans (checks.trans heard)

/-- Then the failover of `b` is queued, and `m` comes back. -/
private theorem reaches_rejoined : Reaches (AnyTime ["p", "m", "b"]) bereft rejoined := by
  have one := reaches_adopted (AnyTime ["p", "m", "b"]) (n := ofThree "p")
    (c := bereft.set "b" (some queued)) rfl ⟨rfl, by decide⟩
    (show (ofThree "p").peers = ["m"] ++ "b" :: [] by decide) (by simp; rfl) rfl
  have two := reaches_adopted (AnyTime ["p", "m", "b"]) (n := ofThree "m")
    (c := (bereft.set "b" (some queued)).set "p" (some (startedAt "p" "b"))) rfl ⟨rfl, by decide⟩
    (show (ofThree "m").peers = [] ++ "p" :: ["b"] by decide) nofun rfl
  exact (((calm_queued.reaches _).trans one).trans two).tail (.crash "p")

/-- `m` takes over from `p`, and now is the master that `b` points at as well. -/
private theorem reaches_returned :
    Reaches (AnyTime ["p", "m", "b"]) rejoined (rejoined.set "m" (some returned)) :=
  (calm_failover (p := startedAt "m" "p") (t := "p") rfl rfl rfl rfl rfl rfl).reaches _

/-- Whoever is live at the end is `m` or `b`. -/
private theorem live_returned {a : String} {x : Process}
    (live : rejoined.set "m" (some returned) a = some x) :
    (a = "m" ∧ x = returned) ∨ (a = "b" ∧ x = queued) := by
  by_cases first : a = "m"
  · subst first
    exact .inl ⟨rfl, (Option.some.inj live).symm⟩
  by_cases last : a = "b"
  · subst last
    exact .inr ⟨rfl, (Option.some.inj live).symm⟩
  -- nobody else is there: the only other one that started has crashed
  rw [set_other first, rejoined] at live
  have before := some_of_crash live
  by_cases gone : a = "p"
  · subst gone
    rw [set_self] at live
    exact nomatch live
  rw [set_other first, set_other gone, set_other last, bereft] at before
  have early := some_of_crash before
  rw [set_other last, set_other first] at early
  exact (not_live_nobody early).elim

/-- Without a word on what is under way, agreement may fail.  All live nodes point at `m`, which is
    live and master.  But one of them has queued a failover from `m` when `m` was dead; it has its
    turn now, finds the pointer where it was, and makes that node a second master. -/
theorem two_masters :
    ∃ c d, Reaches (AnyTime ["p", "m", "b"]) nobody c ∧ Pointing ["p", "m", "b"] "m" c
      ∧ Reaches NoStarts c d
      ∧ ∃ x y, d "m" = some x ∧ d "b" = some y ∧ x.member.isMaster = true
        ∧ y.member.isMaster = true := by
  let c := rejoined.set "m" (some returned)
  have reach := (reaches_bereft.trans reaches_rejoined).trans reaches_returned
  have pointing : Pointing ["p", "m", "b"] "m" c := by
    refine ⟨rfl, fun a p live => ?_, fun a p live => ?_, fun a p live => ?_,
      fun a p live => ?_, fun a p live => ?_⟩
    all_goals rcases live_returned live with ⟨rfl, rfl⟩ | ⟨rfl, rfl⟩
    all_goals first | rfl | decide
  -- the failover of `b` comes to `b` itself at once
  have order : (ofThree "b").failoverOrder "m" = ["b", "p"] := by decide
  have own : (ofThree "b").isSelf "b" = true := by decide
  have live : c "b" = some queued := rfl
  have turn : Acts c _ := .node "b" live (.run (l := (startedAt "b" "m").underway) (r := []) rfl
    (Member.Turn.eq_run (.elect rfl rfl order own)))
  exact ⟨c, _, reach, pointing, .single (.act turn), returned, _, rfl, rfl, rfl, rfl⟩

end Cluster

end ServiceRegistry
