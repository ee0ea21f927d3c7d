/-
  Runs of a table.

  A run carries out any operations one after another, each at its own clock reading, in whatever
  order clients, followers and sweepers ask for them.

  1. `Step` says once what an operation can do to a table (`step_carryOut`).  What an operation
     keeps is shown change by change, and so are the facts about runs in the modules that follow.
  2. `Step.coherent`, `Coherent.run`: one operation keeps a table coherent, so a run does.
  3. `Sound` says what that means for those who look at the table, and `run_sound` that the table is
     sound after every run that begins with the empty one.
-/
import ServiceRegistry.Proofs.Store.Listing
import ServiceRegistry.Proofs.Store.Operations

namespace ServiceRegistry.Store

/-! ## Runs -/

/-- What can be asked of a table, with all arguments. -/
inductive Operation
  | register (x : Instance)
  | heartbeat (c : Claim)
  | unregister (c : Claim)
  | merge (x : Instance)
  | remove (id : String)
  | removeIfExpired (id : String) (now : Int64) (timeout : UInt64)
  | touch (id : String) (secs : Int64) (readable : String)
  | discover (name : String)
  | adopt (cursors : List (String × Int64))
  deriving DecidableEq, Repr

/-- The table after an operation, whatever its result. -/
def carryOut (now : Int64) (o : Operation) (s : Store) : Store :=
  match o with
  | .register x => (s.register now x).2
  | .heartbeat c => (s.heartbeat now c).2
  | .unregister c => (s.unregister c).2
  | .merge x => (s.merge now x).2
  | .remove id => (s.remove id).2
  | .removeIfExpired id now timeout => (s.removeIfExpired id now timeout).2
  | .touch id secs readable => (s.touch now id secs readable).2
  | .discover name => (s.discover name).2
  | .adopt cursors => (s.adopt cursors).2

/-- The table after operations, each at a clock reading. -/
def run (ops : List (Int64 × Operation)) (s : Store) : Store :=
  ops.foldl (fun s o => s.carryOut o.1 o.2) s

/-- A run by its last operation. -/
@[simp] theorem run_concat (ops : List (Int64 × Operation)) (o : Int64 × Operation) (s : Store) :
    s.run (ops ++ [o]) = (s.run ops).carryOut o.1 o.2 := List.foldl_append ..

/-- The heartbeat that an operation writes into a record. -/
inductive Operation.Stamps (now : Int64) (x : Instance) : Operation → Stamp → Prop
  | refresh (y : Instance) :
      Stamps now x (.register y) (.ofSecs (refreshedAt now y.heartbeat.secs x.heartbeat.secs))
  | heartbeat (c : Claim) : Stamps now x (.heartbeat c) (.ofSecs now)
  | touch (id : String) (secs : Int64) (readable : String) :
      Stamps now x (.touch id secs readable)
        (if 0 < secs then .of secs readable else .ofSecs now)

/-- The id that an operation takes out. -/
inductive Operation.Drops : Operation → String → Prop
  | unregister (c : Claim) : Drops (.unregister c) c.id
  | remove (id : String) : Drops (.remove id) id
  | expiry (id : String) (now : Int64) (timeout : UInt64) :
      Drops (.removeIfExpired id now timeout) id

/-- What an operation can do to a table: nothing, or one change whose conditions are met. -/
inductive Step (now : Int64) (s : Store) : Operation → Store → Prop
  | idle (o : Operation) : Step now s o s
  | inserts {x : Instance} (unknown : s.find? x.id = none) (valid : x.checkRegistration = .ok ())
      (free : s.owner? x.endpoint = none) :
      Step now s (.register x)
        (s.insert { x with registered := .ofSecs now, heartbeat := .ofSecs now })
  | beats {o : Operation} {id : String} {x : Instance} {t : Stamp} (found : s.find? id = some x)
      (stamps : o.Stamps now x t) : Step now s o (s.beat x t)
  | removes {o : Operation} {id : String} (drops : o.Drops id) : Step now s o (s.remove id).2
  | merges {x : Instance} (given : x.id ≠ "") : Step now s (.merge x) (s.merge now x).2
  | turns {name : String} {i : Nat} (inside : i < (s.ofService name).length) :
      Step now s (.discover name) { s with cursors := s.cursors.set name i }
  | adopts (cursors : List (String × Int64)) : Step now s (.adopt cursors) (s.adopt cursors).2

/-- An operation takes a step, if only the idle one. -/
theorem step_carryOut (now : Int64) (o : Operation) (s : Store) :
    Step now s o (s.carryOut now o) := by
  cases o with
  | register x =>
    show Step now s _ (s.register now x).2
    rcases s.register_cases now x with ⟨e, eq⟩ | ⟨old, found, -, eq⟩ | ⟨unknown, valid, free, eq⟩
    · rw [eq]
      exact .idle _
    · rw [eq]
      exact .beats found (.refresh x)
    · rw [eq]
      exact .inserts unknown valid free
  | heartbeat c =>
    show Step now s _ (s.heartbeat now c).2
    rcases s.heartbeat_cases now c with ⟨e, eq⟩ | ⟨x, found, -, eq⟩
    · rw [eq]
      exact .idle _
    · rw [eq]
      exact .beats found (.heartbeat c)
  | unregister c =>
    show Step now s _ (s.unregister c).2
    rcases s.unregister_cases c with ⟨e, eq⟩ | ⟨x, -, -, eq⟩
    · rw [eq]
      exact .idle _
    · rw [eq]
      exact .removes (.unregister c)
  | merge x =>
    show Step now s _ (s.merge now x).2
    rcases s.merge_cases now x with ⟨-, eq⟩ | ⟨given, -⟩
    · rw [eq]
      exact .idle _
    · exact .merges given
  | remove id => exact .removes (.remove id)
  | removeIfExpired id clock timeout =>
    show Step now s _ (s.removeIfExpired id clock timeout).2
    rcases s.removeIfExpired_cases id clock timeout with eq | ⟨x, -, -, eq⟩
    · rw [eq]
      exact .idle _
    · rw [eq]
      exact .removes (.expiry id clock timeout)
  | touch id secs readable =>
    show Step now s _ (s.touch now id secs readable).2
    rcases s.touch_cases now id secs readable with ⟨-, eq⟩ | ⟨x, found, eq⟩
    · rw [eq]
      exact .idle _
    · rw [eq]
      exact .beats found (.touch id secs readable)
  | discover name =>
    show Step now s _ (s.discover name).2
    rcases s.discover_cases name with eq | ⟨i, inside, eq⟩
    · rw [eq]
      exact .idle _
    · rw [eq]
      exact .turns inside
  | adopt cursors => exact .adopts cursors

/-- A step keeps a table coherent: an insertion has a new id and a free endpoint, and a cursor is
    set inside its list. -/
theorem Step.coherent {s t : Store} {now : Int64} {o : Operation} (step : Step now s o t)
    (h : s.Coherent) : t.Coherent := by
  cases step with
  | idle => exact h
  | inserts unknown valid free =>
    exact h.insert (Instance.id_ne_of_checkRegistration valid) unknown free
  | beats found => exact h.beat found _
  | removes => exact h.remove _
  | merges => exact h.merge now _
  | turns inside => exact h.setCursor inside
  | adopts cursors => exact h.adopt cursors

/-- So every operation does, -/
theorem Coherent.carryOut {s : Store} (h : s.Coherent) (now : Int64) (o : Operation) :
    (s.carryOut now o).Coherent :=
  (step_carryOut now o s).coherent h

/-- and a run of them. -/
theorem Coherent.run {s : Store} (h : s.Coherent) (ops : List (Int64 × Operation)) :
    (s.run ops).Coherent := by
  induction ops generalizing s with
  | nil => exact h
  | cons o os ih => exact ih (h.carryOut o.1 o.2)

/-! ## What a run leaves -/

/-- A table as it should look from outside. -/
structure Sound (s : Store) : Prop where
  /-- No two records share an id. -/
  ids : (s.all.map (·.id)).Nodup
  /-- No two records share an endpoint. -/
  endpoints : (s.all.map (·.endpoint)).Nodup
  /-- Every record has an id. -/
  identified : ∀ x ∈ s.all, x.id ≠ ""
  /-- A record is listed under its own service and under no other one. -/
  listed : ∀ name x, x ∈ s.ofService name ↔ x ∈ s.all ∧ x.service = name
  /-- No service has an empty list. -/
  occupied : ∀ e ∈ s.services.entries, e.2 ≠ []
  /-- An id finds the record with the id, and nothing when there is none. -/
  found : ∀ id x, s.find? id = some x ↔ x ∈ s.all ∧ x.id = id
  /-- An endpoint belongs to the id of the record that has it, and to nobody when none has. -/
  owned : ∀ e id, s.owner? e = some id ↔ ∃ x ∈ s.all, x.endpoint = e ∧ x.id = id
  /-- A cursor belongs to a service that has records, and lies inside their list. -/
  cursors : ∀ name i, s.cursors.get? name = some i →
    s.ofService name ≠ [] ∧ i < (s.ofService name).length
  /-- The size is the number of records. -/
  size : s.size = s.all.length

/-- Coherence says all that soundness asks for. -/
theorem Coherent.sound {s : Store} (h : s.Coherent) : s.Sound where
  ids := h.ids_nodup
  endpoints := h.endpoints_nodup
  identified := h.id_ne
  listed name x := by rw [h.ofService_eq_filter, List.mem_filter, decide_eq_true_eq]
  occupied := h.occupied
  found _ _ := h.find?_eq_some_iff
  owned _ _ := h.owner?_eq_some_iff
  cursors name i there := by
    have inside := h.cursors name i there
    exact ⟨List.ne_nil_of_length_pos (Nat.zero_lt_of_lt inside), inside⟩
  size := s.services.length_all.symm

/-- After any operations at any clock readings the table is sound. -/
theorem run_sound (ops : List (Int64 × Operation)) : (run ops {}).Sound :=
  (coherent_empty.run ops).sound

end ServiceRegistry.Store
