/-
  Clusters: nodes that come, go, and ask each other whether they are up.

  A cluster holds the live nodes by address.  One at a time
    * a node acts (`Acts`): anything of `Process.Move`, where a node that is asked whether it is up
      answers just when it is live at that moment (`Truthful`; `healthy_of_live` is the reason);
    * a node crashes and is gone;
    * a node starts with an empty table, where it may.

  Calls of other kinds are answered in any way, or not at all.
-/
import ServiceRegistry.Proofs.Calls
import ServiceRegistry.Proofs.Cluster.Process
import Mathlib.Logic.Relation

namespace ServiceRegistry

/-- A live node answers a probe with success, whatever its role. -/
theorem Node.healthy_of_live (m : Member) (now : Int64) (uptime : Nat) (address : String) :
    ∃ answer, ((Node.member m).receive now uptime (PeerCall.probe address).request).handled
        = .answered answer
      ∧ healthy (some answer.relayed) = true := by
  unfold receive
  rw [PeerCall.inquiry_probe]
  exact ⟨_, rfl, rfl⟩

/-- The live nodes by address. -/
abbrev Cluster := String → Option Process

namespace Cluster

/-- Whether a node is live. -/
def up (c : Cluster) (a : String) : Bool := (c a).isSome

/-- The cluster with a change at one address. -/
def set (c : Cluster) (a : String) (p : Option Process) : Cluster :=
  fun b => if b = a then p else c b

/-- The replies that calls can have: a probe tells whether the node is up. -/
def Truthful (c : Cluster) : PeerCall → Option Relayed → Prop
  | .probe a, reply => healthy reply = c.up a
  | _, _ => True

/-- One live node does something. -/
inductive Acts (c : Cluster) : Cluster → Prop
  | node {p q : Process} (a : String) (live : c a = some p) (move : p.Move c.Truthful q) :
      Acts c (c.set a (some q))

/-- What can happen to a cluster, when nodes may start as `may` allows. -/
inductive Step (may : Cluster → Membership → Prop) (c : Cluster) : Cluster → Prop
  | act {d} (acts : Acts c d) : Step may c d
  | crash (a : String) : Step may c (c.set a none)
  | start (m : Membership) (down : c.up m.self = false) (allowed : may c m) :
      Step may c (c.set m.self (some (.launch m)))

/-- Anything that can happen, in any order. -/
abbrev Reaches (may : Cluster → Membership → Prop) : Cluster → Cluster → Prop :=
  Relation.ReflTransGen (Step may)

/-- The live nodes act, and none crashes or starts. -/
abbrev Calm : Cluster → Cluster → Prop := Relation.ReflTransGen Acts

/-- No node is live. -/
def nobody : Cluster := fun _ => none

/-- Nobody is live where no node is. -/
@[simp] theorem not_live_nobody {a : String} {p : Process} : ¬ nobody a = some p := by simp [nobody]

/-- No node may start. -/
def NoStarts (_ : Cluster) (_ : Membership) : Prop := False

/-- The node is one of the candidates of a ring. -/
structure Listed (ring : List String) (m : Membership) : Prop where
  candidates : m.candidates = ring
  listed : m.self ∈ ring

/-- A start of a candidate, at any time. -/
abbrev AnyTime (ring : List String) (_ : Cluster) (m : Membership) : Prop := Listed ring m

/-! ## Who is there after a step -/

section Set

variable {c : Cluster} {a b : String} {p : Option Process} {q r : Process}

/-- The node that was changed is as it was made, -/
@[simp] theorem set_self : c.set a p a = p := if_pos rfl

/-- and all others are as they were. -/
theorem set_other (ne : b ≠ a) : c.set a p b = c b := if_neg ne

/-- The last change of a node counts. -/
@[simp] theorem set_set {q : Option Process} : (c.set a p).set a q = c.set a q := by
  funext b
  by_cases eq : b = a
  · rw [eq, set_self, set_self]
  · rw [set_other eq, set_other eq, set_other eq]

/-- To change nothing changes nothing. -/
@[simp] theorem set_same (same : c a = p) : c.set a p = c := by
  funext b
  by_cases eq : b = a
  · rw [eq, set_self, same]
  · rw [set_other eq]

/-- A node that has just been set acts. -/
theorem acts_set (move : q.Move (c.set a (some q)).Truthful r) :
    Acts (c.set a (some q)) (c.set a (some r)) := by
  have acts := Acts.node a (set_self (c := c) (p := some q)) move
  rwa [set_set] at acts

/-- A node that is there is up. -/
theorem up_of_some (h : c a = some q) : c.up a = true := by rw [up, h]; rfl

/-- A node that acts stays where it is. -/
theorem up_set_live (live : c a = some q) : (c.set a (some r)).up = c.up := by
  funext b
  by_cases eq : b = a
  · rw [eq, up, up, set_self, live]
    rfl
  · rw [up, up, set_other eq]

/-- What a node came from that is there after another, or it, has acted. -/
theorem Acts.step_at {d : Cluster} (acts : Acts c d) (live : d a = some r) :
    ∃ q, c a = some q ∧ PointerState.Step c.Truthful q.pointerState r.pointerState := by
  cases acts with
  | @node p p' b live' move =>
    by_cases eq : a = b
    · subst eq
      rw [set_self] at live
      cases live
      exact ⟨p, live', move.step⟩
    · rw [set_other eq] at live
      exact ⟨r, live, .refl _⟩

/-- While nodes act, the same ones are up. -/
theorem Acts.up {d : Cluster} (acts : Acts c d) : d.up = c.up := by
  cases acts with
  | node a live move => exact up_set_live live

/-- Who is up after a crash was up before, -/
theorem up_of_up_crash (h : (c.set a none).up b = true) : c.up b = true := by
  by_cases eq : b = a
  · rw [eq, up, set_self] at h
    exact nomatch h
  · rwa [up, set_other eq] at h

/-- and is as before. -/
theorem some_of_crash (h : c.set a none b = some q) : c b = some q := by
  by_cases eq : b = a
  · rw [eq, set_self] at h
    exact nomatch h
  · rwa [set_other eq] at h

end Set

end Cluster

end ServiceRegistry
