/-
  What a table becomes when it takes over a record.

  The record comes to stand under its id, whoever else held its endpoint goes, and all others stay
  what and where they were (`TakenOver`).

  1. **Timestamps.**  A record keeps the timestamps it carries; for one that is missing it gets the
     stored one, or the clock's (`Stamp.settled`).  The stored one comes as it is because no
     readable form is missing in a table (`filled_run`).
  2. **Cursors.**  A table that only sheds records starts the lists anew that lose some of them
     (`Sheds`); to shed twice is to shed once (`Sheds.trans`).  What is taken over sheds the holder
     of the endpoint and, when it moves to another service, the old record of its id.
  3. **ServiceMap.**  A record that is listed under its service is replaced in its place
     (`merge_listed`), any other comes last (`merge_unlisted`).

  `merge_takes_over` puts them together, and says that a second time nothing changes.
-/
import ServiceRegistry.Proofs.Store.Lookups
import ServiceRegistry.Proofs.Store.Merging
import Mathlib.Data.List.Perm.Subperm
import Mathlib.Data.List.Nodup

namespace ServiceRegistry

/-! ## Timestamps -/

namespace Stamp

/-- The timestamp that a record has after it was taken over: its own when it is set, with its
    readable form derived when it is missing, else the stored one, else the clock's. -/
def settled (now : Int64) (stored : Option Stamp) (t : Stamp) : Stamp :=
  if 0 < t.secs then (if t.readable = "" then .ofSecs t.secs else t)
  else stored.getD (.ofSecs now)

/-- A timestamp whose readable form is not missing, unless it is not set. -/
def Filled (t : Stamp) : Prop := t.completed = t

/-- Every way to make a timestamp fills in the readable form, so that completing it again changes
    nothing. -/
theorem filled_of (secs : Int64) (readable : String) : (of secs readable).Filled :=
  completed_of secs readable

theorem filled_ofSecs (secs : Int64) : (ofSecs secs).Filled := filled_of secs ""

/-- A timestamp that is handed over counts when it is positive; else the stored one does, and else
    the clock. -/
theorem completed_orElse (now : Int64) (stored : Option Stamp) (t : Stamp)
    (filled : ∀ u, stored = some u → u.Filled) :
    (t.orElse (stored.getD (.ofSecs now))).completed = t.settled now stored := by
  unfold settled orElse
  by_cases pos : 0 < t.secs
  · have own : ¬ t.secs ≤ 0 := Int64.not_le.2 pos
    rw [if_pos pos, if_neg own, completed, if_pos pos]
    by_cases missing : t.readable = ""
    · rw [if_pos missing, of, if_pos (String.isEmpty_iff.2 missing)]
    · rw [if_neg missing, of_readable_ne missing]
  · have missing : t.secs ≤ 0 := Int64.not_lt.1 pos
    rw [if_neg pos, if_pos missing]
    cases stored with
    | none => exact filled_ofSecs now
    | some u => exact filled u rfl

end Stamp

/-- A record in which no readable form is missing. -/
def Instance.Filled (x : Instance) : Prop := x.registered.Filled ∧ x.heartbeat.Filled

namespace Store

/-- The record as it stands after it was taken over. -/
def settled (now : Int64) (s : Store) (x : Instance) : Instance where
  id := x.id
  identity := x.identity
  registered := x.registered.settled now ((s.find? x.id).map (·.registered))
  heartbeat := x.heartbeat.settled now ((s.find? x.id).map (·.heartbeat))

/-- In a record that has been taken over no readable form is missing. -/
theorem filled_takenOver (now : Int64) (old : Option Instance) (x : Instance) :
    (takenOver now old x).Filled := by
  unfold takenOver
  cases old <;> exact ⟨Stamp.completed_completed _, Stamp.completed_completed _⟩

/-- Whatever is written has its readable forms, whatever the clock shows. -/
theorem keeps_filled (now : Int64) (o : Operation) : Keeps now Instance.Filled o := by
  have beaten (secs : Int64) : (Stamp.ofSecs secs).Filled := Stamp.filled_ofSecs secs
  cases o with
  | register x => exact ⟨fun _ => ⟨beaten now, beaten now⟩, fun y hy => ⟨hy.1, beaten _⟩⟩
  | heartbeat c => exact fun y hy => ⟨hy.1, beaten now⟩
  | merge x => exact fun old _ => filled_takenOver now old x
  | touch id secs readable =>
    intro y hy
    refine ⟨hy.1, ?_⟩
    show Stamp.Filled (if 0 < secs then _ else _)
    split
    · exact Stamp.filled_of secs readable
    · exact beaten now
  | unregister | remove | removeIfExpired | discover | adopt => trivial

/-- So none is missing anywhere, after any operations. -/
theorem filled_run (past : List (Int64 × Operation)) : ∀ x ∈ (run past {}).all, x.Filled :=
  coherent_empty.forall_mem_run (fun _ hx => absurd hx List.not_mem_nil)
    fun o _ => keeps_filled o.1 o.2

/-- Where none is missing, what is taken over is what the two timestamps settle on. -/
theorem Coherent.takenOver_eq_settled {s : Store} (h : s.Coherent)
    (filled : ∀ y ∈ s.all, y.Filled) (now : Int64) (x : Instance) :
    takenOver now (s.find? x.id) x = s.settled now x := by
  unfold takenOver settled
  cases found : s.find? x.id with
  | none =>
    have unknown : ∀ u, (none : Option Stamp) = some u → u.Filled := by
      intro u eq
      cases eq
    have registered := Stamp.completed_orElse now none x.registered unknown
    have heartbeat := Stamp.completed_orElse now none x.heartbeat unknown
    simp only [Option.getD_none] at registered heartbeat
    simp only [registered, heartbeat, Option.map_none]
  | some old =>
    obtain ⟨since, last⟩ := filled old (h.find?_eq_some_iff.1 found).1
    have registered := Stamp.completed_orElse now (some old.registered) x.registered
      fun u eq => Option.some.inj eq ▸ since
    have heartbeat := Stamp.completed_orElse now (some old.heartbeat) x.heartbeat
      fun u eq => Option.some.inj eq ▸ last
    simp only [Option.getD_some] at registered heartbeat
    simp only [registered, heartbeat, Option.map_some]

/-! ## Records go -/

/-- The cursor of a list of which some records are left: it stays while none is lost, goes with
    the last one, and otherwise starts anew. -/
def cursorAfter (list left : List Instance) (cursor : Option Nat) : Option Nat :=
  if left.length = list.length then cursor else if left.isEmpty then none else some 0

/-- The table `t` is the table `s` after some of its records went.  The cursors depend only on how
    many are left in each list, so that it makes no difference which records went, in what order, or
    in how many steps (`Sheds.trans`). -/
structure Sheds (s t : Store) : Prop where
  lists : ∀ name, (t.ofService name).Sublist (s.ofService name)
  cursors : ∀ name, t.cursors.get? name
    = cursorAfter (s.ofService name) (t.ofService name) (s.cursors.get? name)

namespace Sheds

variable {s t u : Store}

/-- Tables that shed nothing, and more than once, are instances of the same relation. -/
theorem refl (s : Store) : s.Sheds s :=
  ⟨fun _ => .refl _, fun _ => (if_pos rfl).symm⟩

theorem trans (h : s.Sheds t) (h' : t.Sheds u) : s.Sheds u := by
  refine ⟨fun name => (h'.lists name).trans (h.lists name), fun name => ?_⟩
  have fewer := (h.lists name).length_le
  have fewer' := (h'.lists name).length_le
  rw [h'.cursors, h.cursors]
  unfold cursorAfter
  by_cases same : (u.ofService name).length = (t.ofService name).length
  · -- the second time nothing went
    rw [if_pos same, (h'.lists name).eq_of_length same]
  · have lost : (u.ofService name).length ≠ (s.ofService name).length := by omega
    rw [if_neg same, if_neg lost]

end Sheds

namespace Coherent

variable {s : Store} {x : Instance} {name : String}

/-- A removal sheds one record at most: its list grows shorter and its cursor starts anew, or the
    list is gone with its cursor. -/
theorem sheds_remove (h : s.Coherent) (id : String) : s.Sheds (s.remove id).2 := by
  cases found : s.find? id with
  | none =>
    rw [h.remove_unknown found]
    exact Sheds.refl s
  | some x =>
    obtain ⟨hx, rfl⟩ := h.find?_eq_some_iff.1 found
    have here := h.mem_all_iff.1 hx
    refine ⟨fun name => ?_, fun name => ?_⟩
    · rw [h.ofService_remove]
      exact List.filter_sublist
    · rw [h.ofService_remove, h.cursor_remove found]
      unfold cursorAfter
      by_cases own : name = x.service
      · subst own
        have lost : (without x.id (s.ofService x.service)).length
            < (s.ofService x.service).length :=
          List.length_filter_lt_length_iff_exists.2 ⟨x, here, by simp⟩
        rw [if_pos rfl, if_neg (Nat.ne_of_lt lost)]
      · rw [if_neg own, without_of_absent (h.absent_elsewhere found own), if_pos rfl]

/-- Driving out an owner sheds at most one record as well. -/
theorem sheds_clear (h : s.Coherent) (x : Instance) : s.Sheds (s.clear x) := by
  unfold Store.clear
  split
  · split
    · exact Sheds.refl s
    · exact h.sheds_remove _
  · exact Sheds.refl s

/-- Of each list only the record goes that holds the endpoint under another id. -/
theorem ofService_clear (h : s.Coherent) (x : Instance) (name : String) :
    (s.clear x).ofService name
      = (s.ofService name).filter fun y => y.id = x.id ∨ y.endpoint ≠ x.endpoint := by
  unfold Store.clear
  cases owned : s.owner? x.endpoint with
  | none =>
    have free := h.owner?_eq_none_iff.1 owned
    refine (List.filter_eq_self.2 fun y hy => ?_).symm
    exact decide_eq_true (.inr (free y (mem_all.2 ⟨name, hy⟩)))
  | some stale =>
    obtain ⟨z, hz, at_, rfl⟩ := h.owner?_eq_some_iff.1 owned
    -- one record holds the endpoint, so it may be told by its id
    have holder : ∀ y ∈ s.ofService name, y.endpoint = x.endpoint ↔ y.id = z.id := by
      intro y hy
      have there : y ∈ s.all := mem_all.2 ⟨name, hy⟩
      constructor
      · intro hat
        rw [h.eq_of_endpoint there hz (hat.trans at_.symm)]
      · intro same
        rw [h.eq_of_id there hz same, at_]
    dsimp only
    split
    · rename_i own
      refine (List.filter_eq_self.2 fun y hy => decide_eq_true ?_).symm
      rw [ne_eq, holder y hy, own]
      exact Decidable.em _
    · rename_i other
      rw [h.ofService_remove]
      refine List.filter_congr fun y hy => decide_eq_decide.2 ?_
      rw [ne_eq, ne_eq, holder y hy]
      constructor
      · exact .inr
      · rintro (own | away)
        · exact fun same => other (same.symm.trans own)
        · exact away

end Coherent

/-! ## A record comes -/

/-- A service lists an id. -/
def Lists (s : Store) (name id : String) : Prop := ∃ y ∈ s.ofService name, y.id = id

section Merge

variable {s : Store} {x : Instance}

/-- A record that is listed under its service is replaced in its place. -/
theorem Coherent.merge_listed (h : s.Coherent) (given : x.id ≠ "")
    (listed : s.Lists x.service x.id) (now : Int64) :
    (s.merge now x).2.cursors = (s.clear x).cursors
      ∧ ∀ name, (s.merge now x).2.ofService name
        = substitute (takenOver now (s.find? x.id) x) ((s.clear x).ofService name) := by
  obtain ⟨old, here, same⟩ := listed
  let new := takenOver now (s.find? x.id) x
  have cleared := h.clear x
  have left : old ∈ (s.clear x).all := h.mem_all_clear.2 ⟨mem_all.2 ⟨_, here⟩, fun _ => same⟩
  have found : (s.clear x).find? new.id = some old := cleared.find?_eq_some_iff.2 ⟨left, same⟩
  have put : (s.clear x).put new = (s.clear x).swap old new :=
    cleared.put_known found (h.listed _ old here)
  rw [merge_given given, put]
  exact ⟨cursors_replace (s.clear x) new, fun name => cleared.ofService_replace new name⟩

/-- Any other record comes last under its service. -/
theorem Coherent.merge_unlisted (h : s.Coherent) (given : x.id ≠ "")
    (unlisted : ¬ s.Lists x.service x.id) (now : Int64) :
    (s.merge now x).2
      = ((s.clear x).remove x.id).2.insert (takenOver now (s.find? x.id) x) := by
  let new := takenOver now (s.find? x.id) x
  have cleared := h.clear x
  have elsewhere : ∀ old, (s.clear x).find? new.id = some old → old.service ≠ new.service := by
    intro old found same
    obtain ⟨left, hid⟩ := cleared.find?_eq_some_iff.1 found
    have here := h.mem_all_iff.1 (h.mem_all_clear.1 left).1
    rw [same] at here
    exact unlisted ⟨old, here, hid⟩
  rw [merge_given given]
  exact cleared.put_moved elsewhere

/-! ## A record comes again -/

/-- Taking a record over twice comes to the same, whatever the clock reads the second time: where
    the clock would count, there is a stored time by then. -/
theorem takenOver_again (now later : Int64) (old : Option Instance) (x : Instance) :
    takenOver later (some (takenOver now old x)) x = takenOver now old x := by
  have again (t fallback : Stamp) :
      (t.orElse (t.orElse fallback).completed).completed = (t.orElse fallback).completed := by
    unfold Stamp.orElse
    split
    · exact Stamp.completed_completed fallback
    · rfl
  cases old <;> simp only [takenOver, again]

/-- A record that takes its own place changes nothing. -/
theorem Coherent.replace_self (h : s.Coherent) (hx : x ∈ s.all) : s.replace x = s := by
  have kept := h.replace (x := x) fun old found =>
    congrArg Instance.identity (Option.some.inj (found.symm.trans (h.find?_of_mem hx)))
  have lists : ∀ name, (s.replace x).ofService name = s.ofService name := by
    intro name
    rw [h.ofService_replace]
    refine (List.map_congr_left fun y hy => ?_).trans (List.map_id _)
    split
    · rename_i same
      exact h.eq_of_id hx (mem_all.2 ⟨name, hy⟩) same.symm
    · rfl
  have services : (s.replace x).services = s.services :=
    ServiceMap.eq_of_get kept.occupied h.occupied lists
  rw [h.replace_known (h.find?_of_mem hx)] at services ⊢
  exact congrArg (fun services => { s with services }) services

/-- Whoever is put owns its endpoint. -/
theorem Coherent.owners_put (h : s.Coherent) (x : Instance) :
    ∃ owners : Index Endpoint String, (s.put x).owners = owners.set x.endpoint x.id := by
  by_cases stays : ∃ old, s.find? x.id = some old ∧ old.service = x.service
  · obtain ⟨old, found, service⟩ := stays
    rw [h.put_known found service]
    exact ⟨_, rfl⟩
  · rw [h.put_moved fun old found same => stays ⟨old, found, same⟩]
    exact ⟨_, rfl⟩

/-- A record that was taken over may come again at any time: nothing changes. -/
theorem Coherent.merge_merge (h : s.Coherent) (given : x.id ≠ "") (now later : Int64) :
    (s.merge now x).2.merge later x = (.ok (), (s.merge now x).2) := by
  let new := takenOver now (s.find? x.id) x
  let after := (s.merge now x).2
  have coherent : after.Coherent := h.merge now x
  have there : new ∈ after.all := (h.mem_all_merge_takenOver given now).2 (.inl rfl)
  have found : after.find? x.id = some new := coherent.find?_of_mem there
  have owned : after.owner? x.endpoint = some x.id :=
    coherent.owner?_eq_some_iff.2 ⟨new, there, rfl, rfl⟩
  have untouched : after.clear x = after :=
    clear_of_free fun id owner => (Option.some.inj (owned.symm.trans owner)).symm
  have owners : after.owners.set new.endpoint new.id = after.owners := by
    obtain ⟨owners, put⟩ := (h.clear x).owners_put new
    have merged : after = (s.clear x).put new := congrArg Prod.snd (merge_given given now s)
    rw [merged, put, Index.set_set]
  have swapped : after.swap new new = after := by
    unfold swap
    rw [coherent.replace_self there, if_pos rfl]
    exact congrArg (fun owners => { after with owners }) owners
  have put : after.put new = after := (coherent.put_known (x := new) found rfl).trans swapped
  rw [merge_given given, untouched, found, takenOver_again]
  exact congrArg (Prod.mk (Except.ok ())) put

end Merge

/-! ## What a table becomes -/

/-- The table `after` is the table `s` after it took over the record `x` at a clock reading. -/
structure TakenOver (now : Int64) (x : Instance) (s after : Store) : Prop where
  /-- The id finds the record, with its identity and with settled timestamps. -/
  record : after.find? x.id = some (s.settled now x)
  /-- Any other id finds what it found, unless that held the endpoint. -/
  others : ∀ id, id ≠ x.id →
    after.find? id = (s.find? id).filter fun y => y.endpoint ≠ x.endpoint
  /-- A record that was listed under its service keeps its place, and the others theirs. -/
  inPlace : s.Lists x.service x.id → ∀ name, after.ofService name
    = ((s.ofService name).filter fun y => y.id = x.id ∨ y.endpoint ≠ x.endpoint).map
        fun y => if y.id = x.id then s.settled now x else y
  /-- Any other record stands last, and the others keep their places. -/
  last : ¬ s.Lists x.service x.id → ∀ name, after.ofService name
    = ((s.ofService name).filter fun y => y.id ≠ x.id ∧ y.endpoint ≠ x.endpoint)
        ++ if name = x.service then [s.settled now x] else []
  /-- A service that lost no record keeps its cursor. -/
  kept : ∀ name, (∀ y ∈ s.ofService name, after.Lists name y.id) →
    after.cursors.get? name = s.cursors.get? name
  /-- A service that lost some record, but not all, starts anew. -/
  reset : ∀ name, (∃ y ∈ s.ofService name, ¬ after.Lists name y.id) →
    (∃ y ∈ s.ofService name, after.Lists name y.id) → after.cursors.get? name = some 0
  /-- A service that lost all its records has no cursor, even when the record that came is the first
      of its new ones. -/
  dropped : ∀ name, s.ofService name ≠ [] →
    (∀ y ∈ s.ofService name, ¬ after.Lists name y.id) → after.cursors.get? name = none

section Cursors

variable {s left after : Store} (sheds : s.Sheds left)
  (lists : ∀ name, ∀ y ∈ s.ofService name, after.Lists name y.id ↔ y ∈ left.ofService name)
include sheds lists

/-- A list that has lost a record is shorter. -/
theorem Sheds.length_ne {name : String} {y : Instance} (here : y ∈ s.ofService name)
    (gone : ¬ after.Lists name y.id) :
    (left.ofService name).length ≠ (s.ofService name).length := by
  intro same
  refine gone ((lists name y here).2 ?_)
  rwa [(sheds.lists name).eq_of_length same]

variable (same : after.cursors = left.cursors)
include same

/-- A list that has lost nothing keeps its cursor. -/
theorem Sheds.cursor_kept (h : s.Coherent) (name : String)
    (all : ∀ y ∈ s.ofService name, after.Lists name y.id) :
    after.cursors.get? name = s.cursors.get? name := by
  have nodup : (s.ofService name).Nodup := List.Nodup.of_map Instance.id (h.distinct name)
  have subset : s.ofService name ⊆ left.ofService name := fun y hy => (lists name y hy).1 (all y hy)
  have most := (List.subperm_of_subset nodup subset).length_le
  have least := (sheds.lists name).length_le
  rw [same, sheds.cursors, cursorAfter, if_pos (Nat.le_antisymm least most)]

/-- A list that has lost some of its records, but not all, starts anew. -/
theorem Sheds.cursor_reset (name : String)
    (some_gone : ∃ y ∈ s.ofService name, ¬ after.Lists name y.id)
    (some_left : ∃ y ∈ s.ofService name, after.Lists name y.id) :
    after.cursors.get? name = some 0 := by
  obtain ⟨y, here, gone⟩ := some_gone
  obtain ⟨z, there, listed⟩ := some_left
  have fewer := sheds.length_ne lists here gone
  have occupied : (left.ofService name).isEmpty = false :=
    List.isEmpty_eq_false_iff.2 (List.ne_nil_of_mem ((lists name z there).1 listed))
  rw [same, sheds.cursors, cursorAfter, if_neg fewer, occupied]
  rfl

/-- A list that has lost all its records is gone, and its cursor with it. -/
theorem Sheds.cursor_dropped (name : String) (occupied : s.ofService name ≠ [])
    (all_gone : ∀ y ∈ s.ofService name, ¬ after.Lists name y.id) :
    after.cursors.get? name = none := by
  obtain ⟨y, here⟩ := List.exists_mem_of_ne_nil _ occupied
  have fewer := sheds.length_ne lists here (all_gone y here)
  have empty : left.ofService name = [] := by
    refine List.eq_nil_iff_forall_not_mem.2 fun z there => ?_
    have before := (sheds.lists name).subset there
    exact all_gone z before ((lists name z before).2 there)
  rw [same, sheds.cursors, cursorAfter, if_neg fewer, empty]
  rfl

end Cursors

section Result

variable {s left : Store} {x : Instance} {name : String}

/-- Where records only went, an id is listed just when its record is left. -/
theorem Coherent.lists_iff_of_sheds (h : s.Coherent) (sheds : s.Sheds left) {y : Instance}
    (here : y ∈ s.ofService name) : left.Lists name y.id ↔ y ∈ left.ofService name := by
  constructor
  · rintro ⟨z, there, same⟩
    have before := (sheds.lists name).subset there
    rwa [← h.eq_of_id (mem_all.2 ⟨name, before⟩) (mem_all.2 ⟨name, here⟩) same]
  · exact fun there => ⟨y, there, rfl⟩

/-- What was shed on the way, and that the rest is listed as before. -/
theorem Coherent.exists_sheds_merge (h : s.Coherent) (given : x.id ≠ "") (now : Int64) :
    ∃ left, s.Sheds left ∧ (s.merge now x).2.cursors = left.cursors
      ∧ ∀ name, ∀ y ∈ s.ofService name,
        (s.merge now x).2.Lists name y.id ↔ y ∈ left.ofService name := by
  by_cases listed : s.Lists x.service x.id
  · obtain ⟨cursors, lists⟩ := h.merge_listed given listed now
    refine ⟨s.clear x, h.sheds_clear x, cursors, fun name y here => ?_⟩
    rw [← h.lists_iff_of_sheds (h.sheds_clear x) here]
    unfold Lists
    -- a record that is replaced keeps its id
    simp only [← List.mem_map, lists, ids_substitute]
  · have cleared := h.clear x
    have sheds : s.Sheds ((s.clear x).remove x.id).2 :=
      (h.sheds_clear x).trans (cleared.sheds_remove x.id)
    rw [h.merge_unlisted given listed]
    refine ⟨_, sheds, rfl, fun name y here => ?_⟩
    rw [← h.lists_iff_of_sheds sheds here]
    constructor
    · rintro ⟨z, there, same⟩
      rcases mem_ofService_insert.1 there with left | ⟨rfl, rfl⟩
      · exact ⟨z, left, same⟩
      · -- the id of the record that came was not listed here
        exact absurd ⟨y, here, same.symm⟩ listed
    · rintro ⟨z, there, same⟩
      exact ⟨z, mem_ofService_insert.2 (.inl there), same⟩

/-- All of it for one merge. -/
theorem Coherent.takenOver (h : s.Coherent) (filled : ∀ y ∈ s.all, y.Filled) (given : x.id ≠ "")
    (now : Int64) : TakenOver now x s (s.merge now x).2 := by
  have settled := h.takenOver_eq_settled filled now x
  obtain ⟨left, sheds, cursors, lists⟩ := h.exists_sheds_merge given now
  refine ⟨?record, ?others, ?inPlace, ?last, sheds.cursor_kept lists cursors h,
    sheds.cursor_reset lists cursors, sheds.cursor_dropped lists cursors⟩
  case record => rw [h.find?_merge given, if_pos rfl, settled]
  case others =>
    intro id ne
    rw [h.find?_merge given, if_neg ne]
  case inPlace =>
    intro listed name
    rw [(h.merge_listed given listed now).2, h.ofService_clear, settled]
    rfl
  case last =>
    intro unlisted name
    rw [h.merge_unlisted given unlisted, settled, ofService_insert, (h.clear x).ofService_remove,
      h.ofService_clear, without, List.filter_filter]
    have others : (s.ofService name).filter (fun y => decide (y.id ≠ x.id)
          && decide (y.id = x.id ∨ y.endpoint ≠ x.endpoint))
        = (s.ofService name).filter fun y => y.id ≠ x.id ∧ y.endpoint ≠ x.endpoint := by
      refine List.filter_congr fun y _ => ?_
      by_cases same : y.id = x.id <;> simp [same]
    have service : (s.settled now x).service = x.service := rfl
    rw [others, service]
    by_cases own : name = x.service
    · rw [if_pos own, if_pos own]
    · rw [if_neg own, if_neg own, List.append_nil]

end Result

/-- A record with an id is taken over at any clock reading: it stands under its id, with its
    identity and settled timestamps, whoever else held its endpoint is gone, everything else is what
    and where it was, and the lists that lost records start anew.  When it comes again, at
    whatever time, nothing changes. -/
theorem merge_takes_over (past : List (Int64 × Operation)) (now : Int64) (x : Instance)
    (given : x.id ≠ "") :
    let s := run past {}
    (s.merge now x).1 = .ok ()
      ∧ TakenOver now x s (s.merge now x).2
      ∧ ∀ later, (s.merge now x).2.merge later x = (.ok (), (s.merge now x).2) := by
  intro s
  have coherent : s.Coherent := coherent_empty.run past
  have succeeds : (s.merge now x).1 = .ok () := congrArg Prod.fst (merge_given given now s)
  exact ⟨succeeds, coherent.takenOver (filled_run past) given now,
    coherent.merge_merge given now⟩

/-- A record without timestamps moves to another service, onto the endpoint of another record: it
    keeps the timestamps it had there. -/
theorem merge_takes_over_of_moved :
    let record (id service : String) (port : UInt32) : Instance :=
      { id, identity := ⟨service, "h", port⟩ }
    let s := run [(1, .register (record "i" "s" 1)), (1, .register (record "k" "s" 3)),
      (2, .register (record "j" "t" 2))] {}
    let x := record "j" "s" 1
    x.id ≠ "" ∧ TakenOver 5 x s (s.merge 5 x).2
      ∧ (s.merge 5 x).2.find? "j"
        = some { x with registered := .ofSecs 2, heartbeat := .ofSecs 2 } := by
  intro record s x
  have given : x.id ≠ "" := by decide
  have taken : TakenOver 5 x s (s.merge 5 x).2 := (merge_takes_over _ 5 x given).2.1
  exact ⟨given, taken, taken.record.trans (by decide)⟩

end Store

end ServiceRegistry
