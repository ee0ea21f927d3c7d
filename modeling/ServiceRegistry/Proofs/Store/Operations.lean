/-
  What the operations of a table come to.

  Each operation is one of few changes, or nothing: the cases are said once (`register_cases`,
  `heartbeat_cases`, `unregister_cases`, `removeIfExpired_cases`, `touch_cases`, `discover_cases`),
  with all that was checked before the change.

    * `beat`, the change that refreshes, heartbeats and touches share;
    * `Coherent.beat`, `Coherent.merge`, `Coherent.apply`, `Coherent.adopt`   the changes that are
      made of others keep a table coherent as these do.
-/
import ServiceRegistry.Proofs.Store.Changes
import ServiceRegistry.Store.Client
import ServiceRegistry.Store.Expiry
import ServiceRegistry.Store.Replica

namespace ServiceRegistry

/-- A record that may be registered has an id. -/
theorem Instance.id_ne_of_checkRegistration {x : Instance} (h : x.checkRegistration = .ok ()) :
    x.id ≠ "" := by
  intro empty
  simp [checkRegistration, empty] at h

namespace Store

/-! ## What clients do -/

/-- The table after a record got another heartbeat. -/
def beat (s : Store) (x : Instance) (t : Stamp) : Store := s.replace { x with heartbeat := t }

/-- A registration fails and changes nothing, or refreshes the record with its id, or adds a new
    one. -/
theorem register_cases (now : Int64) (x : Instance) (s : Store) :
    (∃ e, s.register now x = (.error e, s))
    ∨ (∃ old, s.find? x.id = some old ∧ (x.isBareHeartbeat ∨ x.identity = old.identity) ∧
        let t := Stamp.ofSecs (refreshedAt now x.heartbeat.secs old.heartbeat.secs)
        s.register now x = (.ok (.refreshed { old with heartbeat := t }), s.beat old t))
    ∨ (s.find? x.id = none ∧ x.checkRegistration = .ok () ∧ s.owner? x.endpoint = none ∧
        let new := { x with registered := .ofSecs now, heartbeat := .ofSecs now }
        s.register now x = (.ok (.registered new), s.insert new)) := by
  unfold register beat
  split
  · exact .inl ⟨_, rfl⟩
  · split
    · rename_i old found
      split
      · rename_i known
        exact .inr (.inl ⟨old, found, by simpa using known, rfl⟩)
      · exact .inl ⟨_, rfl⟩
    · rename_i unknown
      split
      · exact .inl ⟨_, rfl⟩
      · rename_i valid
        split
        · exact .inl ⟨_, rfl⟩
        · rename_i free
          exact .inr (.inr ⟨unknown, valid, free, rfl⟩)

/-- A heartbeat fails and changes nothing, or its claim is that of a stored record, which gets the
    time of the clock. -/
theorem heartbeat_cases (now : Int64) (c : Claim) (s : Store) :
    (∃ e, s.heartbeat now c = (.error e, s))
    ∨ ∃ x, s.find? c.id = some x ∧ c.identity = x.identity ∧
        s.heartbeat now c
          = (.ok { x with heartbeat := .ofSecs now }, s.beat x (.ofSecs now)) := by
  unfold heartbeat beat
  split
  · exact .inl ⟨_, rfl⟩
  · rename_i x found
    split
    · exact .inl ⟨_, rfl⟩
    · rename_i passed
      exact .inr ⟨x, found, (x.checkClaim_eq_ok_iff c).1 passed, rfl⟩

/-- A removal on demand fails and changes nothing, or its claim is that of a stored record, which
    goes. -/
theorem unregister_cases (c : Claim) (s : Store) :
    (∃ e, s.unregister c = (.error e, s))
    ∨ ∃ x, s.find? c.id = some x ∧ c.identity = x.identity ∧
        s.unregister c = (.ok x, (s.remove c.id).2) := by
  unfold unregister
  split
  · exact .inl ⟨_, rfl⟩
  · rename_i x found
    split
    · exact .inl ⟨_, rfl⟩
    · rename_i passed
      exact .inr ⟨x, found, (x.checkClaim_eq_ok_iff c).1 passed, rfl⟩

/-- A query changes at most the cursor of a service that has records, to a place inside its
    list. -/
theorem discover_cases (name : String) (s : Store) :
    (s.discover name).2 = s
    ∨ ∃ i, i < (s.ofService name).length ∧
        (s.discover name).2 = { s with cursors := s.cursors.set name i } := by
  unfold discover
  split
  · exact .inl rfl
  · simp only []
    split
    · exact .inl rfl
    · rename_i x under
      have some_left : 0 < (s.ofService name).length :=
        Nat.lt_of_le_of_lt (Nat.zero_le _) (List.getElem?_eq_some_iff.1 under).1
      exact .inr ⟨_, Nat.mod_lt _ some_left, rfl⟩

/-- A query for a service that has no records. -/
theorem discover_of_nobody {name : String} {s : Store} (named : name ≠ "")
    (nobody : s.ofService name = []) : s.discover name = (.error (.unknownService name), s) := by
  unfold discover
  rw [if_neg (by simpa using named)]
  simp [nobody]

/-- A query that finds nothing moves no cursor. -/
theorem snd_discover_of_error {name : String} {e : RegistryError} {s : Store}
    (failed : (s.discover name).1 = .error e) : (s.discover name).2 = s := by
  unfold discover at failed ⊢
  split
  · rfl
  · rename_i named
    rw [if_neg named] at failed
    dsimp only at failed ⊢
    split
    · rfl
    · rename_i x under
      simp [under] at failed

/-! ## What the node does on its own -/

/-- Only a stored record that is expired goes; otherwise nothing changes. -/
theorem removeIfExpired_cases (id : String) (now : Int64) (timeout : UInt64) (s : Store) :
    s.removeIfExpired id now timeout = (none, s)
    ∨ ∃ x, s.find? id = some x ∧ x.isExpired now timeout ∧
        s.removeIfExpired id now timeout = s.remove id := by
  unfold removeIfExpired
  split
  · exact .inl rfl
  · rename_i x found
    split
    · rename_i old
      exact .inr ⟨x, found, old, rfl⟩
    · exact .inl rfl

/-- A heartbeat that is handed over changes the record with its id, if there is one. -/
theorem touch_cases (now : Int64) (id : String) (secs : Int64) (readable : String) (s : Store) :
    (s.find? id = none ∧ s.touch now id secs readable = (false, s))
    ∨ ∃ x, s.find? id = some x ∧
        s.touch now id secs readable
          = (true, s.beat x (if 0 < secs then .of secs readable else .ofSecs now)) := by
  unfold touch beat
  split
  · rename_i unknown
    exact .inl ⟨unknown, rfl⟩
  · rename_i x found
    exact .inr ⟨x, found, rfl⟩

/-- A record with an id is always taken over: first whoever holds its endpoint is driven out, then
    the record is put. -/
theorem merge_given {x : Instance} (given : x.id ≠ "") (now : Int64) (s : Store) :
    s.merge now x = (.ok (), (s.clear x).put (takenOver now (s.find? x.id) x)) := by
  unfold merge
  rw [if_neg (by simpa using given)]

/-- A record without an id is refused. -/
theorem merge_empty {x : Instance} (empty : x.id = "") (now : Int64) (s : Store) :
    s.merge now x = (.error (.required "serviceId"), s) := by
  unfold merge
  rw [if_pos (by simpa using empty)]

/-- Both together. -/
theorem merge_cases (now : Int64) (x : Instance) (s : Store) :
    (x.id = "" ∧ s.merge now x = (.error (.required "serviceId"), s))
    ∨ (x.id ≠ "" ∧
        s.merge now x = (.ok (), (s.clear x).put (takenOver now (s.find? x.id) x))) := by
  by_cases given : x.id = ""
  · exact .inl ⟨given, merge_empty given now s⟩
  · exact .inr ⟨given, merge_given given now s⟩

/-- A removal that is taken over is answered by what the id found. -/
theorem apply_unregister {now : Int64} {x : Instance} {s : Store} :
    s.apply now ⟨.unregister, x⟩
      = (if (s.remove x.id).1.isSome then .ok () else .error (.unknownId x.id),
          (s.remove x.id).2) := by
  unfold apply
  rcases s.remove x.id with ⟨_ | _, after⟩ <;> rfl

/-- So is a heartbeat. -/
theorem apply_heartbeat {now : Int64} {x : Instance} {s : Store} :
    s.apply now ⟨.heartbeat, x⟩
      = (if (s.find? x.id).isSome then .ok () else .error (.unknownId x.id),
          (s.touch now x.id x.heartbeat.secs x.heartbeat.readable).2) := by
  unfold apply
  rcases s.touch_cases now x.id x.heartbeat.secs x.heartbeat.readable with
    ⟨unknown, eq⟩ | ⟨y, found, eq⟩
  · rw [eq, unknown]
    rfl
  · rw [eq, found]
    rfl

/-! ## Coherence -/

namespace Coherent

variable {s : Store}

/-- Another heartbeat keeps a record what it is, so the table stays coherent. -/
theorem beat {id : String} {x : Instance} (h : s.Coherent) (found : s.find? id = some x)
    (t : Stamp) : (s.beat x t).Coherent := by
  refine h.replace fun old again => ?_
  obtain ⟨hx, -⟩ := h.find?_eq_some_iff.1 found
  obtain rfl := Option.some.inj ((h.find?_of_mem hx).symm.trans again)
  rfl

/-- Another heartbeat changes the record that gets it, and no other one. -/
theorem mem_all_beat {id : String} {x : Instance} (h : s.Coherent) (found : s.find? id = some x)
    (t : Stamp) (y : Instance) :
    y ∈ (s.beat x t).all ↔ y = { x with heartbeat := t } ∨ (y ∈ s.all ∧ y.id ≠ x.id) := by
  obtain ⟨-, rfl⟩ := h.find?_eq_some_iff.1 found
  exact h.mem_all_replace (x := { x with heartbeat := t }) found

/-- A query sets a cursor inside its list. -/
theorem discover (h : s.Coherent) (name : String) : (s.discover name).2.Coherent := by
  rcases discover_cases name s with eq | ⟨i, inside, eq⟩
  · rwa [eq]
  · rw [eq]
    exact h.setCursor inside

/-- A heartbeat that is taken over changes one record, or none. -/
theorem touch (h : s.Coherent) (now : Int64) (id : String) (secs : Int64) (readable : String) :
    (s.touch now id secs readable).2.Coherent := by
  rcases touch_cases now id secs readable s with ⟨-, eq⟩ | ⟨x, found, eq⟩
  · rwa [eq]
  · rw [eq]
    exact h.beat found _

/-- Driving out an owner is a removal, or nothing. -/
theorem clear (h : s.Coherent) (x : Instance) : (s.clear x).Coherent := by
  unfold Store.clear
  split
  · split
    · exact h
    · exact h.remove _
  · exact h

/-- Who is left after an endpoint is cleared: all but another holder of it. -/
theorem mem_all_clear (h : s.Coherent) {x y : Instance} :
    y ∈ (s.clear x).all ↔ y ∈ s.all ∧ (y.endpoint = x.endpoint → y.id = x.id) := by
  unfold Store.clear
  cases owned : s.owner? x.endpoint with
  | none =>
    have free := h.owner?_eq_none_iff.1 owned
    exact ⟨fun hy => ⟨hy, fun at_ => absurd at_ (free y hy)⟩, And.left⟩
  | some stale =>
    obtain ⟨z, hz, at_, rfl⟩ := h.owner?_eq_some_iff.1 owned
    have holder : ∀ y ∈ s.all, y.endpoint = x.endpoint → y = z :=
      fun y hy hat => h.eq_of_endpoint hy hz (hat.trans at_.symm)
    simp only []
    split
    · rename_i same
      exact ⟨fun hy => ⟨hy, fun hat => holder y hy hat ▸ same⟩, And.left⟩
    · rename_i other
      rw [h.mem_all_remove]
      constructor
      · rintro ⟨hy, ne⟩
        exact ⟨hy, fun hat => absurd (congrArg Instance.id (holder y hy hat)) ne⟩
      · rintro ⟨hy, only⟩
        refine ⟨hy, fun eq => other ?_⟩
        obtain rfl := h.eq_of_id hy hz eq
        exact only at_

/-- Once the endpoint is free, a record may be put. -/
theorem merge (h : s.Coherent) (now : Int64) (x : Instance) : (s.merge now x).2.Coherent := by
  rcases merge_cases now x s with ⟨-, eq⟩ | ⟨given, eq⟩
  · rwa [eq]
  · rw [eq]
    exact (h.clear x).put given fun y hy => (h.mem_all_clear.1 hy).2

/-- A record that is taken over drives out whoever has its id or its endpoint. -/
theorem mem_all_merge_takenOver {x y : Instance} (h : s.Coherent) (given : x.id ≠ "")
    (now : Int64) :
    y ∈ (s.merge now x).2.all
      ↔ y = takenOver now (s.find? x.id) x
        ∨ y ∈ s.all ∧ x.id ≠ y.id ∧ x.endpoint ≠ y.endpoint := by
  rw [merge_given given, (h.clear x).mem_all_put, h.mem_all_clear]
  refine or_congr_right ⟨?_, ?_⟩
  · rintro ⟨⟨hy, only⟩, ne⟩
    exact ⟨hy, Ne.symm ne, fun at_ => ne (only at_.symm)⟩
  · rintro ⟨hy, ne, away⟩
    exact ⟨⟨hy, fun at_ => absurd at_.symm away⟩, Ne.symm ne⟩

/-- A change that is taken over keeps a table coherent. -/
theorem apply (h : s.Coherent) (now : Int64) (c : Change) : (s.apply now c).2.Coherent := by
  obtain ⟨kind, x⟩ := c
  cases kind with
  | register => exact h.merge now x
  | unregister =>
    rw [apply_unregister]
    exact h.remove x.id
  | heartbeat =>
    rw [apply_heartbeat]
    exact h.touch now x.id x.heartbeat.secs x.heartbeat.readable

/-- A cursor that is taken over is clamped to the list it is for. -/
theorem adoptOne (h : s.Coherent) (name : String) (i : Int64) : (s.adoptOne name i).Coherent := by
  unfold Store.adoptOne
  simp only []
  split
  · exact h
  · rename_i known
    refine h.setCursor ?_
    unfold clampCursor
    omega

theorem adopt (h : s.Coherent) (cursors : List (String × Int64)) :
    (s.adopt cursors).2.Coherent := by
  show (cursors.foldl (fun s c => s.adoptOne c.1 c.2) s).Coherent
  induction cursors generalizing s with
  | nil => exact h
  | cons c cs ih => exact ih (h.adoptOne c.1 c.2)

end Coherent

end Store

end ServiceRegistry
