/-
  The round robin.

  A query for a service finds the record under the cursor of the service and moves the cursor on by
  one place, round the list.

  1. **Undisturbed.**  An operation does not disturb a list when afterwards the same ids stand in
     it in the same order, and it takes over no cursor for it.  Then it leaves the cursor alone as
     well, unless it is a query for the service (`cursor_carryOut`): a cursor starts anew only where
     some record went.
  2. **Queries.**  So in a run that does not disturb a list its cursor moves with the queries
     alone (`Undisturbed.round`), and each of them finds a record (`Undisturbed.exists_picks`).
  3. **Rounds.**  As many queries in a row as there are records find the list, turned to where the
     cursor stood when they began (`window_eq_rotate`).

  `picks_in_turn` puts them together: which record each query finds, and that each record is found
  once in every round.
-/
import ServiceRegistry.Proofs.Store.Cursors
import ServiceRegistry.Proofs.Store.Takeover
import Mathlib.Data.List.Rotate

namespace ServiceRegistry.Store

variable {s : Store} {name : String}

/-! ## ServiceMap and their cursors -/

/-- The ids of a list, in the order of the round robin. -/
def idsOf (s : Store) (name : String) : List String := (s.ofService name).map (·.id)

/-- Where the cursor of a list stands: at its beginning when it is not set. -/
def cursorOf (s : Store) (name : String) : Nat := (s.cursors.get? name).getD 0

/-- A cursor is taken over for a service. -/
def Operation.SetsCursor (name : String) : Operation → Prop
  | .adopt cursors => name ∈ cursors.map (·.1)
  | _ => False

/-- A run that does not disturb the list of a service: none of its operations changes which ids
    stand in it or their order, and none takes over a cursor for it. -/
def Undisturbed (name : String) : List (Int64 × Operation) → Store → Prop
  | [], _ => True
  | o :: os, s =>
    ((s.carryOut o.1 o.2).idsOf name = s.idsOf name ∧ ¬ o.2.SetsCursor name)
      ∧ Undisturbed name os (s.carryOut o.1 o.2)

section Ids

variable {t : Store} (same : t.idsOf name = s.idsOf name)
include same

/-- Tables with the same ids in a list: the lists are equally long. -/
theorem length_of_ids : (t.ofService name).length = (s.ofService name).length := by
  simpa [idsOf] using congrArg List.length same

theorem occupied_of_ids (occupied : s.ofService name ≠ []) : t.ofService name ≠ [] :=
  List.ne_nil_of_length_pos (length_of_ids same ▸ List.length_pos_iff.2 occupied)

theorem lists_of_ids : ∀ y ∈ s.ofService name, t.Lists name y.id := by
  intro y hy
  have there : y.id ∈ t.idsOf name := same ▸ List.mem_map_of_mem hy
  exact List.mem_map.1 there

/-- A list that lost nothing keeps its cursor. -/
theorem Sheds.cursor_of_ids (sheds : s.Sheds t) : t.cursors.get? name = s.cursors.get? name := by
  rw [sheds.cursors, cursorAfter, if_pos (length_of_ids same)]

end Ids

/-- The cursor of a list that is not disturbed stays, except for the queries of its service. -/
theorem Coherent.cursor_carryOut (h : s.Coherent) {now : Int64} {o : Operation}
    (same : (s.carryOut now o).idsOf name = s.idsOf name) (unset : ¬ o.SetsCursor name)
    (other : o ≠ .discover name) :
    (s.carryOut now o).cursors.get? name = s.cursors.get? name := by
  have step := step_carryOut now o s
  generalize s.carryOut now o = t at step same ⊢
  cases step with
  | idle | inserts => rfl
  | beats => exact congrArg (·.get? name) (cursors_replace s _)
  | removes => exact Sheds.cursor_of_ids same (h.sheds_remove _)
  | merges given =>
    -- some records may have been driven out, but none of this list
    obtain ⟨left, sheds, cursors, lists⟩ := h.exists_sheds_merge given now
    exact sheds.cursor_kept lists cursors h name (lists_of_ids same)
  | @turns asked i inside =>
    have ne : name ≠ asked := fun eq => other (congrArg Operation.discover eq.symm)
    exact (Index.get?_set ..).trans (if_neg ne)
  | adopts cursors => exact get?_adopt_of_absent s unset

/-! ## Queries -/

/-- How many queries for a service there are in a run. -/
def queries (name : String) (ops : List (Int64 × Operation)) : Nat :=
  ops.countP (·.2 = .discover name)

/-- What the queries for a service return in the course of a run, one after another. -/
def answers (name : String) :
    List (Int64 × Operation) → Store → List (Except RegistryError (List Instance))
  | [], _ => []
  | o :: os, s =>
    (if o.2 = .discover name then [(s.discover name).1] else [])
      ++ answers name os (s.carryOut o.1 o.2)

/-- The answers to the queries of a run are those of its beginning and those of its rest. -/
theorem answers_append (before after : List (Int64 × Operation)) (s : Store) :
    answers name (before ++ after) s
      = answers name before s ++ answers name after (s.run before) := by
  induction before generalizing s with
  | nil => rfl
  | cons o os ih =>
    rw [List.cons_append, answers, answers, ih, List.append_assoc]
    rfl

/-- Every query for the service has one answer. -/
theorem length_answers (ops : List (Int64 × Operation)) (s : Store) :
    (answers name ops s).length = queries name ops := by
  unfold queries
  induction ops generalizing s with
  | nil => rfl
  | cons o os ih =>
    rw [answers, List.length_append, ih, List.countP_cons]
    by_cases query : o.2 = .discover name
    · simp [query, Nat.add_comm]
    · simp [query]

/-- A query finds the record under the cursor, and moves the cursor on. -/
theorem discover_of_under (named : name ≠ "") {x : Instance} {n : Nat}
    (size : (s.ofService name).length = n)
    (under : (s.ofService name)[s.cursorOf name % n]? = some x) :
    s.discover name
      = (.ok [x], { s with cursors := s.cursors.set name ((s.cursorOf name % n + 1) % n) }) := by
  subst size
  unfold cursorOf at under ⊢
  unfold discover
  rw [if_neg (by simpa using named)]
  simp only [under]

/-- A run is split at any of its queries. -/
theorem exists_split_of_lt {ops : List (Int64 × Operation)} {i : Nat}
    (inside : i < queries name ops) :
    ∃ before now after, ops = before ++ (now, .discover name) :: after
      ∧ queries name before = i := by
  unfold queries at inside ⊢
  induction ops generalizing i with
  | nil => exact absurd inside (Nat.not_lt_zero i)
  | cons o os ih =>
    by_cases query : o.2 = .discover name
    · cases i with
      | zero => exact ⟨[], o.1, os, by rw [← query]; rfl, rfl⟩
      | succ i =>
        rw [List.countP_cons_of_pos (by simpa using query)] at inside
        obtain ⟨before, now, after, split, count⟩ := ih (Nat.lt_of_succ_lt_succ inside)
        refine ⟨o :: before, now, after, by rw [split]; rfl, ?_⟩
        rw [List.countP_cons_of_pos (by simpa using query), count]
    · rw [List.countP_cons_of_neg (by simpa using query)] at inside
      obtain ⟨before, now, after, split, count⟩ := ih inside
      refine ⟨o :: before, now, after, by rw [split]; rfl, ?_⟩
      rw [List.countP_cons_of_neg (by simpa using query), count]

/-- The answer to a query stands behind those to the queries before it. -/
theorem getElem?_answers (name : String) (before after : List (Int64 × Operation)) (now : Int64)
    (s : Store) :
    (answers name (before ++ (now, .discover name) :: after) s)[queries name before]?
      = some ((s.run before).discover name).1 := by
  rw [answers_append, ← length_answers before s, List.getElem?_append_right (Nat.le_refl _),
    Nat.sub_self, answers, if_pos rfl]
  rfl

/-- There is a record under the cursor of a list that is not empty. -/
theorem exists_under (occupied : s.ofService name ≠ []) (i : Nat) :
    ∃ x, (s.ofService name)[i % (s.ofService name).length]? = some x :=
  ⟨_, List.getElem?_eq_getElem (Nat.mod_lt i (List.length_pos_iff.2 occupied))⟩

namespace Undisturbed

variable {ops before after : List (Int64 × Operation)}

/-- A run that does not disturb a service may be cut anywhere. -/
theorem of_append (quiet : Undisturbed name (before ++ after) s) :
    Undisturbed name before s ∧ Undisturbed name after (s.run before) := by
  induction before generalizing s with
  | nil => exact ⟨trivial, quiet⟩
  | cons o os ih =>
    obtain ⟨first, rest⟩ := quiet
    obtain ⟨left, right⟩ := ih rest
    exact ⟨⟨first, left⟩, right⟩

/-- One operation that does not disturb a list moves its cursor by the queries that it is. -/
theorem cursor_step (h : s.Coherent) (named : name ≠ "") (occupied : s.ofService name ≠ [])
    {o : Int64 × Operation} (quiet : Undisturbed name [o] s) :
    (s.carryOut o.1 o.2).cursorOf name % (s.ofService name).length
      = (s.cursorOf name + queries name [o]) % (s.ofService name).length := by
  obtain ⟨⟨same, unset⟩, -⟩ := quiet
  by_cases query : o.2 = .discover name
  · obtain ⟨x, under⟩ := exists_under occupied (s.cursorOf name)
    have one : queries name [o] = 1 := by simp [queries, query]
    have moved : (s.carryOut o.1 o.2).cursorOf name
        = (s.cursorOf name % (s.ofService name).length + 1) % (s.ofService name).length := by
      rw [query]
      show Option.getD ((s.discover name).2.cursors.get? name) 0 = _
      rw [discover_of_under named rfl under]
      exact congrArg (Option.getD · 0) ((Index.get?_set ..).trans (if_pos rfl))
    rw [moved, one, Nat.mod_mod, Nat.mod_add_mod]
  · have none_of : queries name [o] = 0 := by simp [queries, query]
    rw [cursorOf, h.cursor_carryOut same unset query, none_of, cursorOf, Nat.add_zero]

/-- After a run that does not disturb a list the same ids stand in it in the same order, and the
    cursor stands as many places further on as there were queries. -/
theorem round (h : s.Coherent) (named : name ≠ "") (occupied : s.ofService name ≠ [])
    (quiet : Undisturbed name ops s) :
    (s.run ops).idsOf name = s.idsOf name
      ∧ (s.run ops).cursorOf name % (s.ofService name).length
        = (s.cursorOf name + queries name ops) % (s.ofService name).length := by
  induction ops generalizing s with
  | nil => exact ⟨rfl, rfl⟩
  | cons o os ih =>
    obtain ⟨first, rest⟩ := quiet
    have step := cursor_step h named occupied (o := o) ⟨first, trivial⟩
    have still := occupied_of_ids first.1 occupied
    obtain ⟨ids, cursor⟩ := ih (h.carryOut o.1 o.2) still rest
    refine ⟨ids.trans first.1, ?_⟩
    have split : queries name (o :: os) = queries name [o] + queries name os :=
      @List.countP_append _ _ [o] os
    rw [length_of_ids first.1] at cursor
    rw [split, ← Nat.add_assoc, ← Nat.mod_add_mod, ← step, Nat.mod_add_mod]
    exact cursor

/-- The query after a beginning of the run finds the record that stands as many places after the
    cursor as there were queries before it. -/
theorem found (h : s.Coherent) (named : name ≠ "") (occupied : s.ofService name ≠ [])
    (quiet : Undisturbed name before s) :
    ∃ x, ((s.run before).ofService name)[(s.cursorOf name + queries name before)
          % (s.ofService name).length]? = some x
      ∧ ((s.run before).discover name).1 = .ok [x] := by
  obtain ⟨ids, cursor⟩ := quiet.round h named occupied
  have still := occupied_of_ids ids occupied
  obtain ⟨x, under⟩ := exists_under still ((s.run before).cursorOf name)
  refine ⟨x, ?_, congrArg Prod.fst (discover_of_under named rfl under)⟩
  rwa [length_of_ids ids, cursor] at under

/-- Every query of the run finds one record. -/
theorem exists_picks (h : s.Coherent) (named : name ≠ "") (occupied : s.ofService name ≠ [])
    (quiet : Undisturbed name ops s) :
    ∃ picks : List Instance, answers name ops s = picks.map fun x => .ok [x] := by
  induction ops generalizing s with
  | nil => exact ⟨[], rfl⟩
  | cons o os ih =>
    obtain ⟨first, rest⟩ := quiet
    obtain ⟨picks, later⟩ := ih (h.carryOut o.1 o.2) (occupied_of_ids first.1 occupied) rest
    by_cases query : o.2 = .discover name
    · have start : Undisturbed name [] s := trivial
      obtain ⟨x, -, answer⟩ := start.found h named occupied
      refine ⟨x :: picks, ?_⟩
      rw [answers, if_pos query, later, show (s.discover name).1 = _ from answer]
      rfl
    · refine ⟨picks, ?_⟩
      rw [answers, if_neg query, later]
      rfl

end Undisturbed

/-! ## Rounds -/

/-- What stands in a row, read from a place on round its end, is the row turned. -/
theorem window_eq_rotate {picks ids : List String} {c k : Nat}
    (turns : ∀ i, i < picks.length → picks[i]? = ids[(c + i) % ids.length]?)
    (inside : k + ids.length ≤ picks.length) :
    (picks.drop k).take ids.length = ids.rotate (c + k) := by
  refine List.ext_getElem? fun j => ?_
  rw [List.getElem?_take]
  by_cases within : j < ids.length
  · rw [if_pos within, List.getElem?_drop, turns (k + j) (by omega), List.getElem?_rotate within]
    congr 2
    omega
  · rw [if_neg within, List.getElem?_eq_none (by simpa using within)]

/-- The queries for a service go round its list: `picks` is what they find in the course of a run.
    Each position comes after the one before it, also across what else is done to the table
    meanwhile. -/
structure GoesRound (name : String) (s : Store) (ops : List (Int64 × Operation))
    (picks : List Instance) : Prop where
  /-- Every query finds one record. -/
  found : answers name ops s = picks.map fun x => .ok [x]
  /-- It is the record as it stands, at that time, as many places after the cursor as there were
      queries before. -/
  turn : ∀ before now after, ops = before ++ (now, .discover name) :: after →
    ∃ x, ((s.run before).ofService name)[(s.cursorOf name + queries name before)
          % (s.ofService name).length]? = some x
      ∧ ((s.run before).discover name).1 = .ok [x] ∧ picks[queries name before]? = some x
  /-- As many queries in a row as there are records find each of them once. -/
  once : ∀ k, k + (s.ofService name).length ≤ picks.length →
    (((picks.drop k).take (s.ofService name).length).map (·.id)).Perm (s.idsOf name)

/-- The main step: by induction over the run, each operation either is a query, which takes the
    record under the cursor and moves it on, or leaves ids and cursor as they are. -/
theorem Undisturbed.goesRound {ops : List (Int64 × Operation)} (quiet : Undisturbed name ops s)
    (h : s.Coherent) (named : name ≠ "") (occupied : s.ofService name ≠ []) :
    ∃ picks, GoesRound name s ops picks := by
  obtain ⟨picks, found⟩ := quiet.exists_picks h named occupied
  have turn : ∀ before now after, ops = before ++ (now, .discover name) :: after →
      ∃ x, ((s.run before).ofService name)[(s.cursorOf name + queries name before)
            % (s.ofService name).length]? = some x
        ∧ ((s.run before).discover name).1 = .ok [x] ∧ picks[queries name before]? = some x := by
    rintro before now after rfl
    obtain ⟨x, under, answer⟩ := quiet.of_append.1.found h named occupied
    have there := getElem?_answers name before after now s
    rw [found, List.getElem?_map, answer, Option.map_eq_some_iff] at there
    obtain ⟨y, pick, same⟩ := there
    cases same
    exact ⟨x, under, answer, pick⟩
  refine ⟨picks, found, turn, fun k inside => ?_⟩
  -- the ids in the list never change, so each pick has the id that stood in its place at first
  have turns : ∀ i, i < (picks.map (·.id)).length → (picks.map (·.id))[i]?
      = (s.idsOf name)[(s.cursorOf name + i) % (s.idsOf name).length]? := by
    intro i hi
    have counted : i < queries name ops := by
      rw [← length_answers ops s, found]
      simpa using hi
    obtain ⟨before, now, after, split, count⟩ := exists_split_of_lt counted
    obtain ⟨x, under, -, pick⟩ := turn before now after split
    subst split
    obtain ⟨ids, -⟩ := quiet.of_append.1.round h named occupied
    rw [count] at pick under
    have place := congrArg (Option.map (·.id)) under
    rw [← List.getElem?_map] at place
    rw [List.getElem?_map, pick, ← ids, idsOf, List.length_map, length_of_ids ids, place]
  have window := window_eq_rotate (k := k) turns (by simpa [idsOf] using inside)
  rw [← List.map_drop, ← List.map_take, idsOf, List.length_map] at window
  rw [window]
  exact List.rotate_perm _ _

/-- A record that has just been registered stands in the list of its service. -/
theorem mem_idsOf_of_registered {now : Int64} {x y : Instance}
    (registered : (s.register now x).1 = .ok (.registered y)) :
    y.id ∈ (s.register now x).2.idsOf y.service := by
  rcases s.register_cases now x with ⟨e, eq⟩ | ⟨old, -, -, eq⟩ | ⟨-, -, -, eq⟩
  · rw [eq] at registered
    cases registered
  · rw [eq] at registered
    cases registered
  · rw [eq] at registered ⊢
    cases registered
    exact List.mem_map_of_mem (mem_ofService_insert.2 (.inr ⟨rfl, rfl⟩))

/-- After whatever was done to a table, in a run that does not disturb the list of a service, the
    queries for the service go round the list from its cursor on.  If the last thing done before
    was to register a record there, as many queries as there are records find it. -/
theorem picks_in_turn (past ops : List (Int64 × Operation)) (name : String) (named : name ≠ "")
    (occupied : 1 ≤ ((run past {}).ofService name).length)
    (quiet : Undisturbed name ops (run past {})) :
    let s := run past {}
    ∃ picks, GoesRound name s ops picks
      ∧ ∀ earlier now x y, past = earlier ++ [(now, .register x)] →
          ((run earlier {}).register now x).1 = .ok (.registered y) → y.service = name →
          (s.ofService name).length ≤ queries name ops →
          ∃ z ∈ picks.take (s.ofService name).length, z.id = y.id := by
  intro s
  have coherent : s.Coherent := coherent_empty.run past
  obtain ⟨picks, round⟩ := quiet.goesRound coherent named (List.length_pos_iff.1 occupied)
  refine ⟨picks, round, ?_⟩
  rintro earlier now x y rfl registered rfl enough
  have last : s = ((run earlier {}).register now x).2 := run_concat ..
  have listed : y.id ∈ s.idsOf y.service := last ▸ mem_idsOf_of_registered registered
  have enough : 0 + (s.ofService y.service).length ≤ picks.length := by
    rw [← length_answers ops s, round.found, List.length_map] at enough
    rwa [Nat.zero_add]
  have there := (round.once 0 enough).mem_iff.2 listed
  exact List.mem_map.1 there

/-- While other things are done, three queries find the three records of a service, the newest of
    them second. -/
theorem picks_in_turn_amid_others :
    let record (id service : String) (port : UInt32) : Instance :=
      { id, identity := ⟨service, "h", port⟩ }
    let past : List (Int64 × Operation) :=
      [(1, .register (record "a" "s" 1)), (1, .register (record "b" "t" 2)),
        (1, .register (record "e" "s" 4)), (2, .discover "s"), (2, .register (record "c" "s" 3))]
    let ops : List (Int64 × Operation) :=
      [(3, .heartbeat (record "a" "s" 1).claim), (3, .discover "s"), (4, .discover ""),
        (4, .merge (record "e" "s" 2)), (5, .discover "s"), (6, .touch "a" 5 ""),
        (6, .discover "t"), (7, .adopt [("t", 1)]), (7, .discover "s")]
    "s" ≠ "" ∧ 1 ≤ ((run past {}).ofService "s").length ∧ Undisturbed "s" ops (run past {})
      ∧ ∃ picks, GoesRound "s" (run past {}) ops picks ∧ picks.map (·.id) = ["e", "c", "a"]
        ∧ ∃ z ∈ picks.take 3, z.id = "c" := by
  intro record past ops
  have occupied : 1 ≤ ((run past {}).ofService "s").length := by decide
  have quiet : Undisturbed "s" ops (run past {}) :=
    ⟨⟨by decide, id⟩, ⟨by decide, id⟩, ⟨by decide, id⟩, ⟨by decide, id⟩, ⟨by decide, id⟩,
      ⟨by decide, id⟩, ⟨by decide, id⟩, ⟨by decide, show "s" ∉ ["t"] by decide⟩, ⟨by decide, id⟩,
      trivial⟩
  obtain ⟨picks, round, newcomer⟩ := picks_in_turn past ops "s" (by decide) occupied quiet
  refine ⟨by decide, occupied, quiet, picks, round, ?_, ?_⟩
  · have ids : (answers "s" ops (run past {})).flatMap (fun r => (r.toOption.getD []).map (·.id))
        = ["e", "c", "a"] := by decide
    rw [round.found] at ids
    simpa [List.flatMap_map, Except.toOption, ← List.map_eq_flatMap] using ids
  · let new : Instance :=
      { record "c" "s" 3 with registered := .ofSecs 2, heartbeat := .ofSecs 2 }
    have three : ((run past {}).ofService "s").length = 3 := by decide
    have registered : ((run (past.take 4) {}).register 2 (record "c" "s" 3)).1
        = .ok (.registered new) := by decide
    have enough : ((run past {}).ofService "s").length ≤ queries "s" ops := by
      rw [three]
      decide
    obtain ⟨z, hz, same⟩ := newcomer (past.take 4) 2 _ new rfl registered rfl enough
    rw [three] at hz
    exact ⟨z, hz, same⟩

end ServiceRegistry.Store
