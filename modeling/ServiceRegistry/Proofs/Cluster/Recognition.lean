/-
  How a node recognises itself.

  A node compares addresses in two ways.  Whom it takes for a peer, and whether it is listed, goes
  by the texts as they are kept; whom it takes for itself goes by the normal form of what it is
  given.  The two agree as long as what is kept is its own normal form.  But a normal form is made
  in one pass: blanks go at both ends, then slashes go at the end, and a blank that stood before
  the slashes is left over.

  1. `Frayed`: a blank stands before the slashes at the end of an address.  The normal form of an
     address is its own just when the address is not frayed (`canonical_normalizeAddress`).
  2. `Membership.KnowsItself`: the two ways of comparing agree.  They do just when the node's own
     address is canonical and no candidate is another form of it (`knowsItself_iff`).
  3. `Member.PointsHome`: a node that points at its own address, as a start and a promotion can
     leave it, is master if it recognises the address and a slave of itself otherwise.
  4. `recognition`: what all this comes to in terms of the addresses that were given; a node with a
     frayed address can start as a slave of itself (`slave_of_itself`).
-/
import Mathlib.Data.List.DropRight
import ServiceRegistry.Proofs.Cluster.Outsider

namespace ServiceRegistry

/-! ## Trimming -/

namespace Text

variable {p : Char → Bool} {cs ds : List Char} {c : Char}

/-- To trim the end is to drop from the right. -/
theorem trimEnd_eq_rdropWhile (p : Char → Bool) (cs : List Char) :
    trimEnd p cs = cs.rdropWhile p := rfl

/-- What begins a text that has lost its first blanks has no blank in front. -/
theorem dropWhile_of_prefix_dropWhile (h : cs <+: ds.dropWhile p) : cs.dropWhile p = cs := by
  cases cs with
  | nil => rfl
  | cons c cs =>
    obtain ⟨rest, whole⟩ := h
    have first := List.head?_dropWhile_not p ds
    rw [← whole, List.cons_append, List.head?_cons] at first
    exact List.dropWhile_cons_of_neg (by simpa using first)

/-- The last character that trimming leaves is none that it drops. -/
theorem last_trimEnd (h : trimEnd p cs = ds ++ [c]) : p c = false := by
  have nonempty : cs.rdropWhile p ≠ [] := by
    rw [← trimEnd_eq_rdropWhile, h]
    simp
  have last := List.rdropWhile_last_not p cs nonempty
  simp only [← trimEnd_eq_rdropWhile, h, List.getLast_append_singleton] at last
  exact Bool.eq_false_iff.2 last

/-- Trimming drops characters of the kind that it is for. -/
theorem exists_trimEnd_append (p : Char → Bool) (cs : List Char) :
    ∃ dropped, cs = trimEnd p cs ++ dropped ∧ ∀ d ∈ dropped, p d = true :=
  ⟨cs.rtakeWhile p, List.rdropWhile_append_rtakeWhile.symm, fun _ hd => List.mem_rtakeWhile_imp hd⟩

/-- It never makes a text longer. -/
theorem length_trimEnd_le (p : Char → Bool) (cs : List Char) :
    (trimEnd p cs).length ≤ cs.length := (List.rdropWhile_prefix p cs).length_le

end Text

/-! ## Normal forms -/

/-- An address that is its own normal form. -/
def Canonical (address : String) : Prop := normalizeAddress address = address

/-- A blank stands before the slashes at the end of an address, whatever blanks are around it. -/
def Frayed (address : String) : Prop :=
  ∃ (body : List Char) (blank : Char) (n : Nat), Text.isBlank blank = true
    ∧ Text.trim address.toList = body ++ blank :: List.replicate (n + 1) '/'

section Forms

open Text

variable {address : String}

/-- The characters of a normal form: blanks go first, then slashes at the end. -/
theorem toList_normalizeAddress (address : String) :
    (normalizeAddress address).toList = trimEnd (· = '/') (trim address.toList) := by
  rw [normalizeAddress, String.toList_ofList]

/-- A normal form has no blank in front, so that trimming it is trimming its end. -/
theorem trim_normalizeAddress (address : String) :
    trim (normalizeAddress address).toList
      = trimEnd isBlank (normalizeAddress address).toList := by
  have begins : (normalizeAddress address).toList <+: address.toList.dropWhile isBlank := by
    rw [toList_normalizeAddress]
    exact (List.rdropWhile_prefix _ _).trans (List.rdropWhile_prefix _ _)
  rw [trim, dropWhile_of_prefix_dropWhile begins]

/-- The normal form of a frayed address ends with the blank. -/
theorem frayed_iff : Frayed address
    ↔ ∃ body blank, isBlank blank = true
        ∧ (normalizeAddress address).toList = body ++ [blank] := by
  rw [toList_normalizeAddress]
  constructor
  · rintro ⟨body, blank, n, isBlank_blank, whole⟩
    have no_slash : decide (blank = '/') = false := by
      refine decide_eq_false fun slash => ?_
      rw [slash] at isBlank_blank
      exact absurd isBlank_blank (by decide)
    have slashes : ∀ d ∈ List.replicate (n + 1) '/', decide (d = '/') = true :=
      fun d hd => decide_eq_true (List.eq_of_mem_replicate hd)
    refine ⟨body, blank, isBlank_blank, ?_⟩
    rw [whole, List.append_cons, trimEnd_append_of_all _ _ _ slashes]
    exact trimEnd_of_last _ _ _ no_slash
  · rintro ⟨body, blank, isBlank_blank, ends⟩
    obtain ⟨dropped, whole, slashes⟩ := exists_trimEnd_append (· = '/') (trim address.toList)
    have all_slashes : dropped = List.replicate dropped.length '/' :=
      List.eq_replicate_of_mem fun d hd => of_decide_eq_true (slashes d hd)
    rw [ends] at whole
    cases count : dropped.length with
    | zero =>
      -- then the blank would have been at the end, where trimming leaves none
      rw [List.length_eq_zero_iff.1 count, List.append_nil] at whole
      have last : isBlank blank = false := last_trimEnd whole
      exact absurd (last.symm.trans isBlank_blank) Bool.false_ne_true
    | succ n =>
      rw [count] at all_slashes
      exact ⟨body, blank, n, isBlank_blank, by rw [whole, all_slashes]; simp⟩

/-- A second pass drops the blank, so that the text gets shorter. -/
theorem not_canonical_of_frayed (frayed : Frayed address) :
    ¬ Canonical (normalizeAddress address) := by
  obtain ⟨body, blank, isBlank_blank, ends⟩ := frayed_iff.1 frayed
  have shorter : (normalizeAddress (normalizeAddress address)).toList.length ≤ body.length := by
    rw [toList_normalizeAddress, trim_normalizeAddress, ends,
      trimEnd_append_of_all isBlank body [blank] (by simpa using isBlank_blank)]
    exact (length_trimEnd_le _ _).trans (length_trimEnd_le _ _)
  intro canonical
  rw [Canonical] at canonical
  rw [canonical, ends, List.length_append, List.length_singleton] at shorter
  omega

/-- Without a blank at the end a second pass has nothing to drop. -/
theorem canonical_of_not_frayed (whole : ¬ Frayed address) :
    Canonical (normalizeAddress address) := by
  have no_blank : trimEnd isBlank (normalizeAddress address).toList
      = (normalizeAddress address).toList := by
    rcases List.eq_nil_or_concat (normalizeAddress address).toList with empty | ⟨body, c, ends⟩
    · rw [empty]
      rfl
    · rw [List.concat_eq_append] at ends
      rw [ends]
      refine trimEnd_of_last _ _ _ (Bool.eq_false_iff.2 fun isBlank_c => whole ?_)
      exact frayed_iff.2 ⟨body, c, isBlank_c, ends⟩
  have no_slash : trimEnd (· = '/') (normalizeAddress address).toList
      = (normalizeAddress address).toList := by
    rw [toList_normalizeAddress]
    exact List.rdropWhile_idempotent _ _
  rw [Canonical, normalizeAddress, trim_normalizeAddress, no_blank, no_slash, String.ofList_toList]

/-- One pass makes a normal form of every address that is not frayed, and of no other one. -/
theorem canonical_normalizeAddress : Canonical (normalizeAddress address) ↔ ¬ Frayed address :=
  ⟨fun canonical frayed => not_canonical_of_frayed frayed canonical, canonical_of_not_frayed⟩

/-- An address that ends with neither a blank nor a slash is not frayed. -/
theorem not_frayed_of_last {body : List Char} {c : Char} (ends : address.toList = body ++ [c])
    (no_blank : isBlank c = false) (no_slash : c ≠ '/') : ¬ Frayed address := by
  rintro ⟨front, blank, n, -, whole⟩
  have kept : (body ++ [c]).dropWhile isBlank = body.dropWhile isBlank ++ [c] := by
    rw [List.dropWhile_append]
    split
    · rename_i all_blank
      rw [List.isEmpty_iff.1 all_blank, List.dropWhile_cons_of_neg (by simp [no_blank]),
        List.nil_append]
    · rfl
  rw [trim, ends, kept, trimEnd_of_last _ _ _ no_blank, List.replicate_succ', ← List.cons_append,
    ← List.append_assoc] at whole
  exact no_slash (List.singleton_inj.1 (List.append_inj_right' whole rfl))

end Forms

namespace NodeSettings

/-- A node that goes by its name and port has an address that ends with a digit. -/
theorem not_frayed_of_named {s : NodeSettings} (named : s.nodeAddress = none) :
    ¬ Frayed s.selfAddress := by
  obtain ⟨front, c, digits_end⟩ : ∃ front c, Text.digits s.port.toNat = front ++ [c] := by
    rcases List.eq_nil_or_concat (Text.digits s.port.toNat) with none_left | ⟨front, c, ends⟩
    · exact absurd none_left Nat.toDigits_ne_nil
    · exact ⟨front, c, by rw [ends, List.concat_eq_append]⟩
  have digit : c.isDigit = true := by
    have written : c ∈ Text.digits s.port.toNat := by
      rw [digits_end]
      simp
    exact Nat.isDigit_of_mem_toDigits (by decide) (by decide) written
  have bounds : 48 ≤ c.toNat ∧ c.toNat ≤ 57 := by
    simpa [Char.isDigit, UInt32.le_iff_toNat_le] using digit
  have no_blank : Text.isBlank c = false := by
    simp only [Text.isBlank]
    grind
  have no_slash : c ≠ '/' := by
    rintro rfl
    exact absurd digit (by decide)
  have ends : s.selfAddress.toList = s!"http://{s.instanceId}:".toList ++ front ++ [c] := by
    have written : s.selfAddress = s!"http://{s.instanceId}:" ++ s.portText := by
      rw [selfAddress, named]
      rfl
    rw [written, String.toList_append, portText, String.toList_ofList, digits_end,
      List.append_assoc]
  exact not_frayed_of_last ends no_blank no_slash

end NodeSettings

/-! ## A node and its own address -/

namespace Membership

variable {m : Membership}

/-- A node recognises itself: by its address, among its candidates, and in what it says of being
    listed. -/
structure KnowsItself (m : Membership) : Prop where
  own : m.isSelf m.self = true
  candidates : ∀ c ∈ m.candidates, (m.isSelf c = true ↔ c = m.self) ∧ (c = m.self ↔ c ∉ m.peers)
  listed : m.containsSelf = true ↔ ∃ c ∈ m.candidates, m.isSelf c = true

/-- An address is the node itself when its normal form is the own address as it stands. -/
theorem isSelf_iff {address : String} :
    m.isSelf address = true ↔ normalizeAddress address = m.self := decide_eq_true_iff

/-- So a node knows its own address just when that is canonical. -/
theorem isSelf_self : m.isSelf m.self = true ↔ Canonical m.self := isSelf_iff

/-- The peers are the candidates that are written otherwise. -/
theorem eq_self_iff {c : String} (candidate : c ∈ m.candidates) : c = m.self ↔ c ∉ m.peers := by
  rw [peers, List.mem_filter, decide_eq_true_iff]
  constructor
  · rintro rfl ⟨-, other⟩
    exact other rfl
  · intro no_peer
    by_contra other
    exact no_peer ⟨candidate, other⟩

/-- A node recognises itself just when its address is canonical and no candidate is another form of
    it. -/
theorem knowsItself_iff : m.KnowsItself
    ↔ Canonical m.self ∧ ∀ c ∈ m.candidates, normalizeAddress c = m.self → c = m.self := by
  constructor
  · intro knows
    exact ⟨isSelf_self.1 knows.own,
      fun c hc own => (knows.candidates c hc).1.1 (isSelf_iff.2 own)⟩
  · rintro ⟨canonical, forms⟩
    have same : ∀ c ∈ m.candidates, m.isSelf c = true ↔ c = m.self := by
      intro c hc
      constructor
      · intro own
        exact forms c hc (isSelf_iff.1 own)
      · rintro rfl
        exact isSelf_self.2 canonical
    refine ⟨isSelf_self.2 canonical, fun c hc => ⟨same c hc, eq_self_iff hc⟩, ?_⟩
    rw [containsSelf, List.contains_iff_mem]
    constructor
    · intro listed
      exact ⟨m.self, listed, isSelf_self.2 canonical⟩
    · rintro ⟨c, hc, own⟩
      rwa [(same c hc).1 own] at hc

end Membership

/-! ## Pointing at one's own address -/

/-- A node is a slave that passes all calls on to itself. -/
structure Member.FollowsItself (n : Member) : Prop where
  role : n.coordinator.role = .slave
  forwards : n.forwardTo = .ok n.coordinator.self

/-- A node that points at its own address is master if it recognises the address, and otherwise
    follows itself. -/
structure Member.PointsHome (n : Member) : Prop where
  master : n.isMaster = true ↔ Canonical n.coordinator.self
  slave : n.FollowsItself ↔ ¬ Canonical n.coordinator.self

namespace Member

variable {n : Member}

/-- A node that has started and points at its own address is master, or follows itself. -/
theorem pointsHome (started : n.coordinator.started = true)
    (points : n.coordinator.master = some n.coordinator.self) : n.PointsHome := by
  have master : n.isMaster = true ↔ Canonical n.coordinator.self := by
    rw [isMaster, Coordinator.isMaster_iff, points]
    constructor
    · rintro ⟨-, t, there, own⟩
      obtain rfl := Option.some.inj there
      exact Membership.isSelf_self.1 own
    · intro canonical
      exact ⟨started, _, rfl, Membership.isSelf_self.2 canonical⟩
  refine ⟨master, ?_, ?_⟩
  · intro follows canonical
    have leads : n.coordinator.role = .master := of_decide_eq_true (master.2 canonical)
    exact absurd (follows.role.symm.trans leads) (by decide)
  · intro unlike
    refine ⟨Coordinator.role_eq_slave_iff.2 ⟨started, fun t there => ?_⟩, ?_⟩
    · obtain rfl := Option.some.inj (points.symm.trans there)
      exact Bool.eq_false_iff.2 fun own => unlike (Membership.isSelf_self.1 own)
    · rw [forwardTo, points]

/-- A start that ends with the node itself. -/
theorem pointsHome_settleOn (n : Member) :
    (n.settleOn n.coordinator.self).member.PointsHome := by
  exact pointsHome (by simp) (by simp [Coordinator.self])

/-- So does a promotion leave it. -/
theorem pointsHome_promote (started : n.coordinator.started = true) (previous : Option String) :
    (n.promote previous).member.PointsHome := pointsHome started rfl

end Member

/-- How a node that is made of these addresses recognises itself. -/
structure Recognises (self : String) (candidates : List String) (m : Membership) : Prop where
  /-- It recognises its own address unless that is frayed. -/
  own : m.isSelf m.self = true ↔ ¬ Frayed self
  /-- Its peers are the candidates other than itself. -/
  peers : ∀ c ∈ m.candidates, c = m.self ↔ c ∉ m.peers
  /-- All its ways of recognising itself agree just when its own address is not frayed, nor a
      candidate that comes to the same address when it is taken twice. -/
  knows : m.KnowsItself ↔ ¬ Frayed self ∧ ∀ c ∈ candidates, Frayed c →
    normalizeAddress (normalizeAddress c) ≠ normalizeAddress self
  /-- A start that ends with its own address, and a promotion, make it master unless its address is
      frayed; if it is, the node follows itself. -/
  leads : ∀ n : Member, n.coordinator.membership = m →
    ((n.settleOn m.self).member.isMaster = true ↔ ¬ Frayed self)
    ∧ ((n.settleOn m.self).member.FollowsItself ↔ Frayed self)
    ∧ (n.coordinator.started = true → ∀ previous,
        ((n.promote previous).member.isMaster = true ↔ ¬ Frayed self)
        ∧ ((n.promote previous).member.FollowsItself ↔ Frayed self))

/-- Which of the two it is, its address as it was given decides. -/
theorem Member.PointsHome.of_frayed {n : Member} {self : String} (home : n.PointsHome)
    (own : n.coordinator.self = normalizeAddress self) :
    (n.isMaster = true ↔ ¬ Frayed self) ∧ (n.FollowsItself ↔ Frayed self) := by
  have canonical : Canonical n.coordinator.self ↔ ¬ Frayed self := own ▸ canonical_normalizeAddress
  exact ⟨home.master.trans canonical, home.slave.trans ((not_congr canonical).trans not_not)⟩

/-- Candidates that are not frayed come to one address however often they are taken. -/
theorem Membership.knowsItself_of_iff {self fallback : String} {candidates : List String} :
    (of self candidates fallback).KnowsItself
      ↔ ¬ Frayed self ∧ ∀ c ∈ candidates, Frayed c →
          normalizeAddress (normalizeAddress c) ≠ normalizeAddress self := by
  rw [knowsItself_iff]
  show Canonical (normalizeAddress self) ∧ (∀ c ∈ candidates.map normalizeAddress,
    normalizeAddress c = normalizeAddress self → c = normalizeAddress self) ↔ _
  rw [canonical_normalizeAddress, List.forall_mem_map]
  refine and_congr_right fun whole => forall₂_congr fun c hc => ?_
  have canonical : Canonical (normalizeAddress self) := canonical_normalizeAddress.2 whole
  constructor
  · intro forms frayed twice
    have once := forms twice
    rw [← once] at canonical
    exact canonical_normalizeAddress.1 canonical frayed
  · intro others twice
    by_cases frayed : Frayed c
    · exact absurd twice (others frayed)
    · rwa [canonical_of_not_frayed frayed] at twice

/-- Every node recognises itself in this way. -/
theorem recognises_of (self : String) (candidates : List String) (fallback : String) :
    Recognises self candidates (.of self candidates fallback) where
  own := Membership.isSelf_self.trans canonical_normalizeAddress
  peers c hc := Membership.eq_self_iff hc
  knows := Membership.knowsItself_of_iff
  leads n same := by
    have own : n.coordinator.self = normalizeAddress self := by
      rw [Coordinator.self, same]
      rfl
    have settled := n.pointsHome_settleOn
    rw [own] at settled
    have still := n.coordinator_settleOn (normalizeAddress self)
    obtain ⟨leads, follows⟩ := settled.of_frayed (by rw [still]; exact own)
    refine ⟨leads, follows, fun started previous => ?_⟩
    exact (Member.pointsHome_promote started previous).of_frayed own

/-- A node recognises itself, in all its ways and in what role it takes, unless its own address is
    frayed or a candidate is frayed and its own address in another form.  So it is for a node that
    is made from addresses and for one that is made from settings, and the latter has no frayed
    address when it goes by its name and port. -/
theorem recognition (self : String) (candidates : List String) (fallback : String) :
    Recognises self candidates (.of self candidates fallback)
    ∧ ∀ s : NodeSettings, Recognises s.selfAddress s.candidates s.membership
        ∧ (s.nodeAddress = none → ¬ Frayed s.selfAddress) :=
  ⟨recognises_of self candidates fallback,
    fun s => ⟨recognises_of _ _ s.fallbackMaster, NodeSettings.not_frayed_of_named⟩⟩

/-- A node whose address has a blank before the slash at its end, and another one. -/
def frayedPair : Membership :=
  .of "http://n1:8180 /" ["http://n1:8180 /", "http://n2:8181"] "http://n2:8181"

/-- The settings of such a node, with one more blank and slash. -/
def frayedSettings : NodeSettings where
  nodeAddress := some "http://n1:8180 / /"
  cluster := ["http://n1:8180 / /", "http://n2:8181"]

/-- A node with a frayed address is listed but does not recognise itself.  Made from settings, it
    starts as a slave of itself. -/
theorem slave_of_itself :
    (frayedPair.containsSelf = true ∧ frayedPair.isSelf frayedPair.self = false
      ∧ frayedPair.candidates.any frayedPair.isSelf = false ∧ ¬ frayedPair.KnowsItself)
    ∧ ∃ turns events p, Process.Life Process.unasked frayedSettings.membership true turns events p
      ∧ p.member.coordinator.master = some frayedSettings.membership.self
      ∧ p.member.coordinator.membership.containsSelf = true
      ∧ p.member.FollowsItself := by
  constructor
  · have unknown : frayedPair.isSelf frayedPair.self = false := by decide +kernel
    refine ⟨by decide +kernel, unknown, by decide +kernel, fun knows => ?_⟩
    exact Bool.false_ne_true (unknown.symm.trans knows.own)
  · obtain ⟨turns, events, life, -⟩ :=
      Process.Life.exists_settled Process.unasked frayedSettings.membership (some ⟨200, []⟩)
    refine ⟨turns, events, _, life, by decide +kernel, by decide +kernel, ?_⟩
    exact ⟨by decide +kernel, by decide +kernel⟩

end ServiceRegistry
