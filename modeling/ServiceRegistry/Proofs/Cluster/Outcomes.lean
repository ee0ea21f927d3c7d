/-
  How starts and failovers end, when nothing comes in between.

    * `reaches_adopted`    a start ends at the first peer that is up;
    * `reaches_alone`      or, when none is, at the node itself;
    * `calm_followed`     a failover from a dead master ends at the first candidate that is up;
    * `reaches_only`       all nodes but one may crash.
-/
import ServiceRegistry.Proofs.Cluster.Basic

namespace ServiceRegistry

open Process (after)

/-- There is a reply to tell either way. -/
theorem exists_reply (up : Bool) : ∃ r, healthy r = up := by
  cases up
  · exact ⟨none, rfl⟩
  · exact ⟨some { status := 200, body := [] }, rfl⟩

/-- A peer is not the node itself. -/
theorem Membership.ne_self_of_mem_peers {m : Membership} {a : String} (h : a ∈ m.peers) :
    a ≠ m.self := by
  simpa using (List.mem_filter.1 h).2

namespace Cluster

variable {c : Cluster} {a : String} {m : Member} {l : List Underway}

/-- Nothing but acts: no start needs to be allowed. -/
theorem Calm.reaches {d : Cluster} (calm : Calm c d)
    (may : Cluster → Membership → Prop) : Reaches may c d :=
  Relation.ReflTransGen.mono (fun _ _ acts => Step.act acts) _ _ calm

/-! ## One task -/

/-- One move of a live node. -/
theorem calm_of_move {p q : Process} (live : c a = some p) (move : p.Move c.Truthful q) :
    Calm c (c.set a (some q)) := .single (.node a live move)

/-- A probe is answered, and its reply heard. -/
theorem calm_told {e : Task} {b : String} (calls : e.call = some (.probe b))
    (live : c a = some ⟨m, l ++ [{ task := e }]⟩) :
    ∃ r, healthy r = c.up b ∧ Calm c (c.set a (some (after l (m.hear 0 e r)))) := by
  obtain ⟨r, honest⟩ := exists_reply (c.up b)
  have asked : Calm c (c.set a (some ⟨m, l ++ [⟨e, some r⟩]⟩)) :=
    calm_of_move live (.answer rfl calls honest)
  have hears : Calm (c.set a (some ⟨m, l ++ [⟨e, some r⟩]⟩)) _ :=
    calm_of_move set_self (.hear 0 rfl calls)
  rw [set_set, List.append_nil] at hears
  exact ⟨r, honest, asked.trans hears⟩

/-- A task that waits for no reply has its turn. -/
theorem calm_ran {e : Task} {progress : Progress} (turn : m.run e = some progress)
    (live : c a = some ⟨m, l ++ [{ task := e }]⟩) :
    Calm c (c.set a (some (after l progress))) := by
  have runs : Calm c _ := calm_of_move live (.run rfl turn)
  rwa [List.append_nil] at runs

/-! ## Starts -/

/-- The peers that are down are passed over. -/
theorem calm_seek {silent rest : List String} (down : ∀ b ∈ silent, c.up b = false)
    (live : c a = some (after l (m.seek (silent ++ rest)))) :
    Calm c (c.set a (some (after l (m.seek rest)))) := by
  induction silent generalizing c with
  | nil =>
    rw [List.nil_append] at live
    rw [set_same live]
  | cons b silent ih =>
    obtain ⟨r, honest, heard⟩ := calm_told rfl
      (show c a = some ⟨m, l ++ [{ task := .seekPeer b (silent ++ rest) }]⟩ from live)
    have goes_on : m.hear 0 (.seekPeer b (silent ++ rest)) r = m.seek (silent ++ rest) := by
      rw [down b (.head _)] at honest
      simp [Member.hear, honest]
    rw [goes_on] at heard
    have more := ih (fun b' hb => by rw [up_set_live live]; exact down b' (.tail _ hb)) set_self
    rw [set_set] at more
    exact heard.trans more

/-- The search of a start ends at the first peer that is up, whatever that one does. -/
theorem calm_settled {silent rest : List String} {peer : String}
    (down : ∀ b ∈ silent, c.up b = false) (up : c.up peer = true)
    (live : c a = some (after l (m.seek (silent ++ peer :: rest)))) :
    Calm c (c.set a (some (after l (m.settleOn peer)))) := by
  have asks := calm_seek down live
  obtain ⟨r, honest, heard⟩ := calm_told (m := m) (l := l) (e := .seekPeer peer rest) rfl
    (set_self (c := c) (a := a) (p := some _))
  rw [up_set_live live, up] at honest
  simp only [Member.hear, honest, if_true] at heard
  rw [set_set] at heard
  exact asks.trans heard

section Starts

variable {n : Membership}

/-- A start that has begun ends at the first peer that is up. -/
theorem calm_adopted {silent rest : List String} {peer : String}
    (order : n.peers = silent ++ peer :: rest) (silence : ∀ b ∈ silent, c.up b = false)
    (up : c.up peer = true) :
    Calm (c.set n.self (some (.launch n)))
      (c.set n.self (some (after [] ((Member.fresh n).settleOn peer)))) := by
  have others_same : ∀ b ∈ n.peers, (c.set n.self (some (.launch n))).up b = c.up b := by
    intro b hb
    rw [Cluster.up, set_other (Membership.ne_self_of_mem_peers hb), Cluster.up]
  have seeks : c.set n.self (some (.launch n)) n.self
      = some (after [] ((Member.fresh n).seek (silent ++ peer :: rest))) := by
    rw [set_self, ← order]
    rfl
  rw [order] at others_same
  have settles := calm_settled
    (fun b hb => (others_same b (List.mem_append_left _ hb)).trans (silence b hb))
    ((others_same peer (by simp)).trans up) seeks
  rwa [set_set] at settles

/-- When no peer is up, it ends at the node itself. -/
theorem calm_alone (silence : ∀ b ∈ n.peers, c.up b = false) :
    Calm (c.set n.self (some (.launch n)))
      (c.set n.self (some (after [] ((Member.fresh n).settleOn n.self)))) := by
  have seeks : c.set n.self (some (.launch n)) n.self
      = some (after [] ((Member.fresh n).seek (n.peers ++ []))) := by
    rw [set_self, List.append_nil]
    rfl
  have asks := calm_seek (fun b hb => ?_) seeks
  · obtain ⟨r, honest, heard⟩ := calm_told (m := .fresh n) (l := []) (e := .seekSelf n.self)
      rfl (set_self (c := c) (a := n.self) (p := some _))
    rw [up_of_some set_self] at honest
    simp only [Member.hear, honest, if_true] at heard
    rw [set_set] at asks heard
    exact asks.trans heard
  · rw [Cluster.up, set_other (Membership.ne_self_of_mem_peers hb)]
    exact silence b hb

variable (may : Cluster → Membership → Prop)

/-- A node may start, and ends at the first peer that is up. -/
theorem reaches_adopted {silent rest : List String} {peer : String} (down : c.up n.self = false)
    (allowed : may c n) (order : n.peers = silent ++ peer :: rest)
    (silence : ∀ b ∈ silent, c.up b = false) (up : c.up peer = true) :
    Reaches may c (c.set n.self (some (after [] ((Member.fresh n).settleOn peer)))) :=
  .head (.start n down allowed) ((calm_adopted order silence up).reaches may)

/-- It ends at itself when no peer is. -/
theorem reaches_alone (down : c.up n.self = false) (allowed : may c n)
    (silence : ∀ b ∈ n.peers, c.up b = false) :
    Reaches may c (c.set n.self (some (after [] ((Member.fresh n).settleOn n.self)))) :=
  .head (.start n down allowed) ((calm_alone silence).reaches may)

end Starts

/-! ## Failovers -/

/-- The candidates that are down are passed over. -/
theorem calm_scan (failed : Option String) (silent rest : List String)
    (down : ∀ b ∈ silent, c.up b = false)
    (others_only : ∀ b ∈ silent, m.coordinator.membership.isSelf b = false)
    (live : c a = some (after l (m.scan failed (silent ++ rest)))) :
    Calm c (c.set a (some (after l (m.scan failed rest)))) := by
  induction silent generalizing c with
  | nil =>
    rw [List.nil_append] at live
    rw [set_same live]
  | cons b silent ih =>
    rw [List.cons_append, Member.scan, others_only b (.head _)] at live
    obtain ⟨r, honest, heard⟩ := calm_told rfl
      (show c a = some ⟨m, l ++ [{ task := .scan failed b (silent ++ rest) }]⟩ from live)
    have goes_on : m.hear 0 (.scan failed b (silent ++ rest)) r
        = m.scan failed (silent ++ rest) := by
      rw [down b (.head _)] at honest
      simp [Member.hear, honest]
    rw [goes_on] at heard
    have more := ih (fun b' hb => by rw [up_set_live live]; exact down b' (.tail _ hb))
      (fun b' hb => others_only b' (.tail _ hb)) set_self
    rw [set_set] at more
    exact heard.trans more

section Failovers

variable {p : Process} {t : String}

/-- A check finds the master dead, and its failover has its turn. -/
theorem calm_failover (live : c a = some p) (started : p.member.coordinator.started = true)
    (points : p.member.coordinator.master = some t)
    (other : p.member.coordinator.membership.isSelf t = false)
    (free : p.member.coordinator.failingOver = false) (down : c.up t = false) :
    Calm c (c.set a (some (after p.underway (p.member.enter (some t))))) := by
  have due : Calm c (c.set a (some p.dueCheck)) := calm_of_move live .check
  have checks := calm_ran (l := p.underway) (Member.Turn.probe started points other).eq_run
    (set_self (c := c) (a := a) (p := some p.dueCheck))
  obtain ⟨r, honest, heard⟩ := calm_told (m := p.member) (l := p.underway)
    (e := .probeMaster t) rfl (set_self (c := c) (a := a) (p := some _))
  rw [up_set_live live, down] at honest
  rw [(Member.Turn.failed honest).eq_hear] at heard
  have enters := calm_ran (m := p.member) (l := p.underway)
    (e := .awaitTurn (some t)) (show _ = some (p.member.enter (some t)) by simp [Member.run, free])
    (set_self (c := c) (a := a) (p := some _))
  rw [set_set] at checks heard enters
  exact due.trans (checks.trans (heard.trans enters))

/-- A failover from a dead master ends at the first candidate that is up, whatever that one does. -/
theorem calm_followed {silent rest : List String} {x : String} (live : c a = some p)
    (started : p.member.coordinator.started = true)
    (points : p.member.coordinator.master = some t)
    (other : p.member.coordinator.membership.isSelf t = false)
    (free : p.member.coordinator.failingOver = false) (down : c.up t = false)
    (order : p.member.coordinator.membership.failoverOrder t = silent ++ x :: rest)
    (silence : ∀ b ∈ silent, c.up b = false)
    (others_only : ∀ b ∈ silent ++ [x], p.member.coordinator.membership.isSelf b = false)
    (up : c.up x = true) :
    ∃ q, Calm c (c.set a (some q))
      ∧ q.member.coordinator.membership = p.member.coordinator.membership
      ∧ q.member.coordinator.started = true ∧ q.member.coordinator.master = some x := by
  have fails := calm_failover live started points other free down
  let entered : Member :=
    { p.member with coordinator := { p.member.coordinator with failingOver := true } }
  have enter : p.member.enter (some t) = entered.scan (some t) (silent ++ x :: rest) := by
    simp [Member.enter, points, entered, ← order]
  rw [enter] at fails
  have scans := calm_scan (m := entered) (l := p.underway) (some t) silent (x :: rest)
    (fun b hb => by rw [up_set_live live]; exact silence b hb)
    (fun b hb => others_only b (List.mem_append_left _ hb)) (set_self (c := c) (a := a))
  rw [Member.scan, others_only x (by simp)] at scans
  obtain ⟨r, honest, heard⟩ := calm_told (m := entered) (l := p.underway)
    (e := .scan (some t) x rest) rfl (set_self (c := c) (a := a) (p := some _))
  rw [up_set_live live, up] at honest
  simp only [Member.hear, honest, if_true] at heard
  rw [set_set] at scans heard
  exact ⟨_, fails.trans (scans.trans heard), rfl, started, rfl⟩

end Failovers

/-! ## Crashes -/

variable (may : Cluster → Membership → Prop)

/-- The cluster with one node left. -/
def only (c : Cluster) (a : String) : Cluster := fun b => if b = a then c b else none

/-- The one that is left is as it was, -/
@[simp] theorem only_self : c.only a a = c a := if_pos rfl

/-- and all others are gone. -/
theorem only_other {b : String} (ne : b ≠ a) : c.only a b = none := if_neg ne

/-- The nodes of a list may crash, but one. -/
theorem reaches_crashed (a : String) (l : List String) :
    Reaches may c (fun b => if b ∈ l ∧ b ≠ a then none else c b) := by
  induction l with
  | nil => simpa using Relation.ReflTransGen.refl
  | cons x l ih =>
    by_cases itself : x = a
    · have same : (fun b => if b ∈ x :: l ∧ b ≠ a then none else c b)
          = fun b => if b ∈ l ∧ b ≠ a then none else c b := by
        funext b
        by_cases eq : b = a <;> simp [eq, itself]
      rwa [same]
    · have crashed : (fun b => if b ∈ x :: l ∧ b ≠ a then none else c b)
          = Cluster.set (fun b => if b ∈ l ∧ b ≠ a then none else c b) x none := by
        funext b
        by_cases eq : b = x <;> simp [Cluster.set, eq, itself]
      rw [crashed]
      exact ih.tail (.crash x)

/-- All nodes but one may crash. -/
theorem reaches_only {ring : List String} (known : ∀ b, c.up b = true → b ∈ ring) (a : String) :
    Reaches may c (c.only a) := by
  -- nobody outside the ring is live, so it is enough that the nodes of the ring crash
  have all : (fun b => if b ∈ ring ∧ b ≠ a then none else c b) = c.only a := by
    funext b
    by_cases eq : b = a
    · simp [only, eq]
    · rw [only_other eq]
      by_cases there : b ∈ ring
      · simp [there, eq]
      · have absent : c b = none := Classical.byContradiction fun live =>
          there (known b (Option.isSome_iff_ne_none.2 live))
        simp [there, absent]
  rw [← all]
  exact reaches_crashed may a ring

end Cluster

end ServiceRegistry
