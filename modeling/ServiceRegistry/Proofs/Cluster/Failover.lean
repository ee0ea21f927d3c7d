/-
  Failovers agree while nodes crash and none starts.

  Let all nodes point at the same live candidate, and read the ring of candidates from it on.

  1. `Reached`: everyone before a node's pointer in the ring is dead.  A crash keeps that, and so
     does a failover, since it passes over a candidate only when it is dead (`Evidence`), and comes
     round to the node itself before it comes to where it began.  `Steady` is the whole invariant of
     a node: `Steady.step` for what it does, `Steady.mono` for what happens to others.
  2. So a node that is master is the first of the ring that is live: there is at most one.

  What follows for whole clusters is in Agreement.
-/
import ServiceRegistry.Proofs.Cluster.Basic
import ServiceRegistry.Proofs.Cluster.ListedOrder

namespace ServiceRegistry

/-! ## Places in the ring -/

/-- The ring comes to `t` past nobody who is live. -/
def Reached (round : List String) (live : String → Bool) (t : String) : Prop :=
  ∃ before after, round = before ++ t :: after ∧ ∀ b ∈ before, live b = false

namespace Reached

variable {round : List String} {live live' : String → Bool} {t x : String}

/-- Whoever the ring comes to is in it. -/
theorem mem (h : Reached round live t) : t ∈ round := by
  obtain ⟨before, after, rfl, -⟩ := h
  simp

/-- When fewer are live, it still comes there past nobody who is. -/
theorem mono (h : Reached round live t) (fewer : ∀ b, live' b = true → live b = true) :
    Reached round live' t := by
  obtain ⟨before, after, split, dead⟩ := h
  refine ⟨before, after, split, fun b hb => ?_⟩
  by_contra up
  exact Bool.false_ne_true ((dead b hb).symm.trans (fewer b (by simpa using up)))

/-- A live node that the ring comes to is the first live one. -/
theorem find? (h : Reached round live t) (up : live t = true) : round.find? live = some t := by
  obtain ⟨before, after, rfl, dead⟩ := h
  rw [List.find?_append, List.find?_eq_none.2 (by simpa using dead), List.find?_cons_of_pos up]
  rfl

/-- From a dead node that the ring comes to, a failover that has passed only dead candidates comes
    to the first live one. -/
theorem next {m : Membership} {first : String} {rest : List String} (proper : m.Proper)
    (h : Reached (roundFrom m.candidates first) live t) (down : live t = false)
    (came : m.CameTo (fun a => live a = false) t (x :: rest)) (up : live x = true) :
    Reached (roundFrom m.candidates first) live x := by
  have normal := proper.normal t (mem_roundFrom.1 h.mem)
  obtain ⟨before, after, split, dead⟩ := h
  obtain ⟨passed, order, all_dead⟩ := came
  -- the order of the failover: what is after `t` in the ring, then what is before it
  rw [Membership.failoverOrder_of_round (isRotated_roundFrom _ _) proper.distinct normal split]
    at order
  have ahead : x ∉ before := fun hx => Bool.false_ne_true ((dead x hx).symm.trans up)
  rcases List.append_eq_append_iff.1 order with ⟨w, -, behind⟩ | ⟨w, cut, left⟩
  · -- the failover would have gone round to where the reading begins
    exact absurd (by rw [behind]; simp) ahead
  · rcases List.cons_eq_append_iff.1 left with ⟨-, behind⟩ | ⟨w, rfl, -⟩
    · exact absurd (by rw [behind]; simp) ahead
    · refine ⟨before ++ t :: passed, w, by rw [split, cut]; simp, fun b hb => ?_⟩
      rcases List.mem_append.1 hb with hb | hb
      · exact dead b hb
      · rcases List.mem_cons.1 hb with rfl | hb
        · exact down
        · exact all_dead b hb

end Reached

/-! ## The invariant of a node -/

/-- What a task knows of the others: whom it takes for dead, is dead, and a candidate that answered
    is one that the ring comes to.  Nodes only die here, so such knowledge does not become false,
    and a task may act on it however late it has its turn. -/
def Evidence (m : Membership) (round : List String) (live : String → Bool) : Underway → Prop
  | ⟨.probeMaster t, some r⟩ => healthy r = false → live t = false
  | ⟨.awaitTurn (some t), _⟩ => live t = false
  | ⟨.scan (some t) candidate rest, reply⟩ =>
    live t = false ∧ m.CameTo (fun a => live a = false) t (candidate :: rest) ∧
      ∀ r, reply = some r →
        (healthy r = true → Reached round live candidate)
          ∧ (healthy r = false → live candidate = false)
  | _ => True

/-- What a task knows stays true when others die. -/
theorem Evidence.mono {m : Membership} {round : List String} {live live' : String → Bool}
    {u : Underway} (fewer : ∀ b, live' b = true → live b = true)
    (h : Evidence m round live u) : Evidence m round live' u := by
  have dies : ∀ b, live b = false → live' b = false := by
    intro b down
    by_contra up
    exact Bool.false_ne_true (down.symm.trans (fewer b (by simpa using up)))
  obtain ⟨e, reply⟩ := u
  cases e with
  | probeMaster t =>
    cases reply with
    | none => trivial
    | some r => exact fun unhealthy => dies t (h unhealthy)
  | awaitTurn failed =>
    cases failed with
    | none => trivial
    | some t => exact dies t h
  | scan failed candidate rest =>
    cases failed with
    | none => trivial
    | some t =>
      obtain ⟨down, came, answered⟩ := h
      refine ⟨dies t down, came.mono fun b => dies b, fun r hr => ?_⟩
      obtain ⟨up, unhealthy⟩ := answered r hr
      exact ⟨fun healthy => (up healthy).mono fewer, fun sick => dies _ (unhealthy sick)⟩
  | _ => trivial

/-- A node that has started, in a ring that is read from `first` on.  Its pointer has passed nobody
    who is live, and no failover of it will; so if it points at a live node, this is the first live
    one of the ring, the same for all. -/
structure Steady (ring : List String) (first : String) (live : String → Bool) (a : String)
    (h : PointerState) : Prop extends PointerState.Seated ring a h where
  started : h.coordinator.started = true
  /-- Everyone before the pointer is dead. -/
  pointer : ∀ t, h.coordinator.master = some t → Reached (roundFrom ring first) live t
  evidence : ∀ u ∈ h.tasks,
    Evidence h.coordinator.membership (roundFrom ring first) live u

namespace Steady

variable {ring : List String} {first a : String} {live live' : String → Bool} {h h' : PointerState}
  {answers : PeerCall → Option Relayed → Prop}

/-- A node stays steady when others die. -/
theorem mono (s : Steady ring first live a h) (fewer : ∀ b, live' b = true → live b = true) :
    Steady ring first live' a h :=
  { s with
    pointer := fun t ht => (s.pointer t ht).mono fewer
    evidence := fun u hu => (s.evidence u hu).mono fewer }

/-- A live candidate that a failover comes to is one that the ring comes to. -/
theorem next {t x : String} {rest : List String} (s : Steady ring first live a h)
    (points : h.coordinator.master = some t) (down : live t = false)
    (came : h.coordinator.membership.CameTo (fun b => live b = false) t (x :: rest))
    (up : live x = true) : Reached (roundFrom ring first) live x := by
  have reached := s.pointer t points
  rw [← s.candidates] at reached ⊢
  exact reached.next s.orderly.proper down came up

/-- A candidate that a node takes for itself is itself. -/
theorem eq_self {t x : String} {rest : List String} (s : Steady ring first live a h)
    {P : String → Prop} (came : h.coordinator.membership.CameTo P t (x :: rest))
    (own : h.coordinator.membership.isSelf x = true) : x = h.coordinator.self :=
  (s.orderly.proper.isSelf_iff came.mem_candidates).1 own

section Turns

variable {l r : List Underway} {u : Underway} {c : Coordinator} {next : Option Task}

/-- A turn leaves the pointer where the ring comes to past nobody live. -/
theorem pointer_turn (s : Steady ring first live a h) (alive : live a = true)
    (split : h.tasks = l ++ u :: r) (turn : PointerState.Turn h.coordinator u c next) :
    ∀ t, c.master = some t → Reached (roundFrom ring first) live t := by
  obtain ⟨fits, -⟩ := s.orderly.fits_of_split split
  have known := s.evidence u (by rw [split]; simp)
  have self_up : live h.coordinator.self = true := s.self ▸ alive
  cases turn with
  | adopt | begin => exact absurd (fits.1.symm.trans s.started) Bool.false_ne_true
  -- the node itself is live, and everyone whom its failover has passed is dead
  | elect free same order own =>
    rintro t ⟨⟩
    obtain ⟨-, failed, rfl, -⟩ := fits
    have came : h.coordinator.membership.CameTo (fun b => live b = false) failed _ := .first order
    rw [s.eq_self came own] at came
    exact s.next same known came self_up
  | follow up =>
    rintro t ⟨⟩
    obtain ⟨-, -, -, failed, rfl, -⟩ := fits
    exact (known.2.2 _ rfl).1 up
  | promote down own =>
    rintro t ⟨⟩
    obtain ⟨-, -, -, failed, rfl, points, -⟩ := fits
    obtain ⟨dead, came, answered⟩ := known
    have on := came.next ((answered _ rfl).2 down)
    rw [s.eq_self on own] at on
    exact s.next points dead on self_up
  | nobody | giveUp => exact nofun
  | _ => exact s.pointer

/-- What goes on knows as much. -/
theorem evidence_next (s : Steady ring first live a h) (split : h.tasks = l ++ u :: r)
    (turn : PointerState.Turn h.coordinator u c next) :
    ∀ e ∈ next.toList, Evidence c.membership (roundFrom ring first) live { task := e } := by
  intro e he
  obtain rfl := Option.mem_toList.1 he
  obtain ⟨fits, -⟩ := s.orderly.fits_of_split split
  have known := s.evidence u (by rw [split]; simp)
  cases turn with
  | failed down => exact known down
  | enter free same order other =>
    obtain ⟨-, failed, rfl, -⟩ := fits
    exact ⟨known, .first order, nofun⟩
  | scanNext down other =>
    obtain ⟨-, -, -, failed, rfl, -⟩ := fits
    obtain ⟨dead, came, answered⟩ := known
    exact ⟨dead, came.next ((answered _ rfl).2 down), nofun⟩
  | _ => trivial

end Turns

/-- A true answer is evidence. -/
theorem evidence_answer {e : Task} {b : String} {reply : Option Relayed}
    (s : Steady ring first live a h) (fits : h.coordinator.FitsListed e)
    (known : Evidence h.coordinator.membership (roundFrom ring first) live { task := e })
    (probes : e.call = some (.probe b)) (honest : healthy reply = live b) :
    Evidence h.coordinator.membership (roundFrom ring first) live ⟨e, some reply⟩ := by
  cases e with
  | probeMaster t =>
    cases probes
    exact fun sick => honest.symm.trans sick
  | scan failed candidate rest =>
    cases probes
    obtain ⟨-, -, -, t, rfl, points, -⟩ := fits
    obtain ⟨dead, came, -⟩ := known
    refine ⟨dead, came, ?_⟩
    rintro r ⟨⟩
    exact ⟨fun up => s.next points dead came (honest.symm.trans up),
      fun sick => honest.symm.trans sick⟩
  | awaitTurn => exact nomatch probes
  | _ => trivial

/-- A step of a live node, with truthful answers to its probes. -/
theorem step (s : Steady ring first live a h) (alive : live a = true)
    (honest : ∀ b r, answers (.probe b) r → healthy r = live b)
    (step : PointerState.Step answers h h') : Steady ring first live a h' := by
  have seated := s.toSeated.step step
  cases step with
  | checks n =>
    refine ⟨seated, s.started, s.pointer, fun u hu => ?_⟩
    rcases List.mem_append.1 hu with hu | hu
    · exact s.evidence u hu
    · rw [List.eq_of_mem_replicate hu]
      trivial
  | @answer l r e b reply split probes given =>
    obtain ⟨fits, -⟩ := s.orderly.fits_of_split split
    have known := s.evidence
    rw [split] at known
    refine ⟨seated, s.started, s.pointer, fun u hu => ?_⟩
    rcases mem_split.1 hu with rfl | others
    · exact s.evidence_answer fits (known _ (by simp)) probes (honest b reply given)
    · exact known u (mem_of_mem_others others)
  | @turn l u r c next split turn =>
    have known := s.evidence
    rw [split] at known
    refine ⟨seated, turn.started s.started, s.pointer_turn alive split turn, fun v hv => ?_⟩
    rcases List.mem_append.1 hv with old | new
    · show Evidence c.membership _ _ v
      rw [turn.membership]
      exact known v (mem_of_mem_others old)
    · obtain ⟨e, he, rfl⟩ := List.mem_map.1 new
      exact s.evidence_next split turn e he

end Steady

end ServiceRegistry
