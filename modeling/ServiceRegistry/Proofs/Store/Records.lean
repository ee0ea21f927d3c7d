/-
  The cursors have no part in the records.

  Two tables hold the same records when they differ in nothing but their cursors.  Whatever is done
  to both of them, they hold the same records again: the operations look up ids, endpoints and
  lists, and only a query looks at a cursor, which changes no record.
-/
import ServiceRegistry.Proofs.Store.Runs

namespace ServiceRegistry.Store

/-- Two tables differ in nothing but their cursors. -/
structure SameRecords (s t : Store) : Prop where
  services : s.services = t.services
  names : s.names = t.names
  owners : s.owners = t.owners

namespace SameRecords

variable {s t u : Store}

theorem refl (s : Store) : s.SameRecords s := ⟨rfl, rfl, rfl⟩

theorem symm (h : s.SameRecords t) : t.SameRecords s :=
  ⟨h.services.symm, h.names.symm, h.owners.symm⟩

theorem trans (h : s.SameRecords t) (h' : t.SameRecords u) : s.SameRecords u :=
  ⟨h.services.trans h'.services, h.names.trans h'.names, h.owners.trans h'.owners⟩

/-! ## Views -/

/-- Tables with the same records list the same records, in the same order. -/
theorem all (h : s.SameRecords t) : s.all = t.all := congrArg ServiceMap.all h.services

/-- They have the same list for every service. -/
theorem ofService (h : s.SameRecords t) (name : String) : s.ofService name = t.ofService name :=
  congrArg (ServiceMap.get · name) h.services

theorem position? (h : s.SameRecords t) (id : String) : s.position? id = t.position? id := by
  simp only [Store.position?, h.names, h.ofService]

/-- They find the same record for an id. -/
theorem find? (h : s.SameRecords t) (id : String) : s.find? id = t.find? id := by
  simp only [Store.find?, h.position?, h.ofService]

/-- They have the same owner for an endpoint. -/
theorem owner? (h : s.SameRecords t) (e : Endpoint) : s.owner? e = t.owner? e :=
  congrArg (Index.get? · e) h.owners

/-! ## Changes -/

/-- The changes of a table do to the records what they do whatever the cursors are; an insertion is
    the first of them. -/
theorem insert (h : s.SameRecords t) (x : Instance) : (s.insert x).SameRecords (t.insert x) := by
  refine ⟨?_, ?_, ?_⟩ <;> simp only [Store.insert, h.services, h.names, h.owners, h.ofService]

theorem replace (h : s.SameRecords t) (x : Instance) :
    (s.replace x).SameRecords (t.replace x) := by
  unfold Store.replace
  rw [h.position?]
  split
  · exact h
  · exact ⟨by simp only [h.services, h.ofService], h.names, h.owners⟩

/-- A removal looks at a cursor only to reset it. -/
theorem remove (h : s.SameRecords t) (id : String) :
    (s.remove id).2.SameRecords (t.remove id).2 := by
  unfold Store.remove
  rw [h.position?, h.find?]
  split
  · refine ⟨?_, ?_, ?_⟩ <;> simp only [h.services, h.names, h.owners, h.ofService, h.owner?]
  · exact h

theorem swap (h : s.SameRecords t) (old x : Instance) :
    (s.swap old x).SameRecords (t.swap old x) := by
  obtain ⟨services, names, -⟩ := h.replace x
  exact ⟨services, names, by simp only [Store.swap, h.owners]⟩

/-- Taking a record over is one of two changes, and which one is told by the records. -/
theorem put (h : s.SameRecords t) (x : Instance) : (s.put x).SameRecords (t.put x) := by
  unfold Store.put
  rw [h.names, h.find?]
  split
  · split
    · exact h.swap _ x
    · exact h
  · exact (h.remove x.id).insert x

/-- Driving out who holds an endpoint. -/
theorem clear (h : s.SameRecords t) (x : Instance) : (s.clear x).SameRecords (t.clear x) := by
  unfold Store.clear
  rw [h.owner?]
  split
  · split
    · exact h
    · exact h.remove _
  · exact h

/-! ## Operations -/

/-- The operations, then: a registration decides by the records alone, and changes them alike. -/
theorem register (h : s.SameRecords t) (now : Int64) (x : Instance) :
    (s.register now x).2.SameRecords (t.register now x).2 := by
  unfold Store.register
  rw [h.find?, h.owner?]
  split
  · exact h
  · split
    · split
      · exact h.replace _
      · exact h
    · split
      · exact h
      · split
        · exact h
        · exact h.insert _

/-- A heartbeat moves one record, and which one is told by the records. -/
theorem heartbeat (h : s.SameRecords t) (now : Int64) (c : Claim) :
    (s.heartbeat now c).2.SameRecords (t.heartbeat now c).2 := by
  unfold Store.heartbeat
  rw [h.find?]
  split
  · exact h
  · split
    · exact h
    · exact h.replace _

/-- A removal on demand. -/
theorem unregister (h : s.SameRecords t) (c : Claim) :
    (s.unregister c).2.SameRecords (t.unregister c).2 := by
  unfold Store.unregister
  rw [h.find?]
  split
  · exact h
  · split
    · exact h
    · exact h.remove c.id

/-- A removal of what is expired. -/
theorem removeIfExpired (h : s.SameRecords t) (id : String) (now : Int64) (timeout : UInt64) :
    (s.removeIfExpired id now timeout).2.SameRecords (t.removeIfExpired id now timeout).2 := by
  unfold Store.removeIfExpired
  rw [h.find?]
  split
  · exact h
  · split
    · exact h.remove id
    · exact h

/-- A record that another node hands over. -/
theorem merge (h : s.SameRecords t) (now : Int64) (x : Instance) :
    (s.merge now x).2.SameRecords (t.merge now x).2 := by
  unfold Store.merge
  rw [h.find?]
  split
  · exact h
  · exact (h.clear x).put _

/-- A heartbeat that another node hands over. -/
theorem touch (h : s.SameRecords t) (now : Int64) (id : String) (secs : Int64) (readable : String) :
    (s.touch now id secs readable).2.SameRecords (t.touch now id secs readable).2 := by
  unfold Store.touch
  rw [h.find?]
  split
  · exact h
  · exact h.replace _

/-- A query changes no record. -/
theorem discover (s : Store) (name : String) : (s.discover name).2.SameRecords s := by
  unfold Store.discover
  split
  · exact refl s
  · simp only []
    split
    · exact refl s
    · exact ⟨rfl, rfl, rfl⟩

/-- Nor does a cursor that is taken over. -/
theorem adoptOne (s : Store) (name : String) (i : Int64) :
    (s.adoptOne name i).SameRecords s := by
  unfold Store.adoptOne
  dsimp only
  split
  · exact refl s
  · exact ⟨rfl, rfl, rfl⟩

/-- Cursors that are taken over leave the records as they are. -/
theorem adopt (s : Store) (cursors : List (String × Int64)) :
    (s.adopt cursors).2.SameRecords s := by
  show (cursors.foldl (fun s c => s.adoptOne c.1 c.2) s).SameRecords s
  induction cursors generalizing s with
  | nil => exact refl s
  | cons c cs ih => exact (ih _).trans (adoptOne s c.1 c.2)

/-- The same operation leaves the same records. -/
theorem carryOut (h : s.SameRecords t) (now : Int64) (o : Operation) :
    (s.carryOut now o).SameRecords (t.carryOut now o) := by
  cases o with
  | register x => exact h.register now x
  | heartbeat c => exact h.heartbeat now c
  | unregister c => exact h.unregister c
  | merge x => exact h.merge now x
  | remove id => exact h.remove id
  | removeIfExpired id now timeout => exact h.removeIfExpired id now timeout
  | touch id secs readable => exact h.touch now id secs readable
  | discover name => exact (discover s name).trans (h.trans (discover t name).symm)
  | adopt cursors => exact (adopt s cursors).trans (h.trans (adopt t cursors).symm)

end SameRecords

end ServiceRegistry.Store
