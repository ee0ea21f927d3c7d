/-
  A follower that takes over what its master committed, in order, holds what its master holds.

  The master writes by `register`, `heartbeat`, `unregister` and evictions; the follower takes over
  by `merge`, `touch` and `remove`.  The proof is a simulation.

  1. `Mirrors`: the lists of a follower are those of the master.  One write on the master and the
     change it sends, taken over at any clock reading, keep it: `mirrors_insert`, `mirrors_merge`,
     `mirrors_touch`, `mirrors_remove`.
  2. `Leads`: changes that lead every mirror of one table to a mirror of another; it composes along
     runs.  Each deed of a master leads from the table before it to the table after it.
  3. `replay_eq_master`: so a run of the master, replayed in order, is accepted change by change
     and ends with the same listing on both sides.

  The cursors take no part in this: queries move them on the master alone.
-/
import ServiceRegistry.Coordinator.Basic
import ServiceRegistry.Proofs.Store.Merging

namespace ServiceRegistry

/-- A complete timestamp is made of its seconds and its text. -/
theorem Stamp.Complete.of_eq {t : Stamp} (h : t.Complete) : Stamp.of t.secs t.readable = t := by
  have same := h.2
  rwa [Stamp.completed, if_pos h.1] at same

namespace Store

/-! ## Mirrors -/

/-- The table `t` of a follower has the lists of the table `s` of its master.  Both are coherent, so
    it also has the same indexes; the timestamps of the master are complete, so nothing is filled in
    from the follower's clock. -/
structure Mirrors (s t : Store) : Prop where
  master : s.Coherent
  follower : t.Coherent
  stamped : s.Stamped
  lists : ∀ name, t.ofService name = s.ofService name

namespace Mirrors

variable {s t : Store}

/-- The follower has the listing of its master. -/
theorem all (h : Mirrors s t) : t.all = s.all := (h.follower.all_eq_iff h.master).2 h.lists

/-- An id finds the same record on both. -/
theorem find? (h : Mirrors s t) (id : String) : t.find? id = s.find? id :=
  Option.ext fun x => by rw [h.follower.find?_eq_some_iff, h.master.find?_eq_some_iff, h.all]

/-- An endpoint has the same owner on both. -/
theorem owner? (h : Mirrors s t) (e : Endpoint) : t.owner? e = s.owner? e :=
  Option.ext fun id => by rw [h.follower.owner?_eq_some_iff, h.master.owner?_eq_some_iff, h.all]

end Mirrors

section Changes

variable {s t : Store} {x : Instance} {id : String}

/-- A registration is taken over as a new record. -/
theorem mirrors_insert (h : Mirrors s t) (given : x.id ≠ "") (unknown : s.find? x.id = none)
    (free : s.owner? x.endpoint = none) (stamped : x.Stamped) (now : Int64) :
    ∃ t', t.apply now ⟨.register, x⟩ = (.ok (), t') ∧ Mirrors (s.insert x) t' := by
  -- the endpoint is free on the follower too, so no other record has to go
  have untouched : t.clear x = t :=
    clear_of_free fun id owned => nomatch (h.owner? _ ▸ free).symm.trans owned
  have merged : t.merge now x = (.ok (), t.insert x) := by
    rw [merge_given given, takenOver_of_stamped stamped, untouched,
      h.follower.put_new ((h.find? x.id).trans unknown)]
  refine ⟨t.insert x, merged, h.master.insert given unknown free, ?_, h.stamped.insert stamped, ?_⟩
  · exact h.follower.insert given ((h.find? _).trans unknown) ((h.owner? _).trans free)
  · intro name
    rw [ofService_insert, ofService_insert, h.lists]

/-- A refresh is taken over in the place of the record. -/
theorem mirrors_merge (h : Mirrors s t) (found : s.find? id = some x) {beat : Stamp}
    (complete : beat.Complete) (now : Int64) :
    ∃ t', t.apply now ⟨.register, { x with heartbeat := beat }⟩ = (.ok (), t')
      ∧ Mirrors (s.beat x beat) t' := by
  let new := { x with heartbeat := beat }
  obtain ⟨hx, hid⟩ := h.master.find?_eq_some_iff.1 found
  have stamped : new.Stamped := ⟨(h.stamped x hx).1, complete⟩
  have known : t.find? new.id = some x := by rw [h.find?, show new.id = id from hid, found]
  have owned : t.owner? new.endpoint = some new.id := by
    rw [h.owner?]
    exact h.master.owner?_eq_some_iff.2 ⟨x, hx, rfl, rfl⟩
  -- the endpoint is the record's own on the follower too
  have untouched : t.clear new = t :=
    clear_of_free fun other there => (Option.some.inj (owned.symm.trans there)).symm
  have merged : t.merge now new = (.ok (), t.swap x new) := by
    have given : new.id ≠ "" := h.master.id_ne x hx
    rw [merge_given given, takenOver_of_stamped stamped, untouched,
      h.follower.put_known known rfl]
  have swapped : (t.swap x new).Coherent := by
    have kept := h.follower.merge now new
    rwa [merged] at kept
  refine ⟨t.swap x new, merged, h.master.beat found beat, swapped,
    h.stamped.beat h.master found complete, fun name => ?_⟩
  show (t.replace new).ofService name = (s.replace new).ofService name
  rw [h.follower.ofService_replace, h.master.ofService_replace, h.lists]

/-- A heartbeat is taken over. -/
theorem mirrors_touch (h : Mirrors s t) (found : s.find? id = some x) {beat : Stamp}
    (complete : beat.Complete) (now : Int64) :
    ∃ t', t.apply now ⟨.heartbeat, { x with heartbeat := beat }⟩ = (.ok (), t')
      ∧ Mirrors (s.beat x beat) t' := by
  obtain ⟨hx, rfl⟩ := h.master.find?_eq_some_iff.1 found
  have known : t.find? x.id = some x := (h.find? _).trans found
  have touched : t.touch now x.id beat.secs beat.readable = (true, t.beat x beat) := by
    rcases touch_cases now x.id beat.secs beat.readable t with ⟨unknown, -⟩ | ⟨y, there, eq⟩
    · exact nomatch unknown.symm.trans known
    · obtain rfl := Option.some.inj (there.symm.trans known)
      rw [eq, if_pos complete.1, complete.of_eq]
  refine ⟨t.beat x beat, ?_, h.master.beat found beat, h.follower.beat known beat,
    h.stamped.beat h.master found complete, fun name => ?_⟩
  · simp only [apply, touched]
  · show (t.replace _).ofService name = (s.replace _).ofService name
    rw [h.follower.ofService_replace, h.master.ofService_replace, h.lists]

/-- A removal is taken over. -/
theorem mirrors_remove (h : Mirrors s t) (found : s.find? id = some x) (now : Int64) :
    ∃ t', t.apply now ⟨.unregister, x⟩ = (.ok (), t') ∧ Mirrors (s.remove id).2 t' := by
  obtain ⟨hx, rfl⟩ := h.master.find?_eq_some_iff.1 found
  have gone : (t.remove x.id).1 = some x := by rw [h.follower.fst_remove, h.find?, found]
  refine ⟨(t.remove x.id).2, ?_, h.master.remove _, h.follower.remove _,
    h.stamped.remove h.master _, fun name => ?_⟩
  · rw [apply_unregister, gone]
    rfl
  · rw [h.follower.ofService_remove, h.master.ofService_remove, h.lists]

end Changes

end Store

/-! ## Replay -/

namespace Member

/-- Takes over pushed changes one after another, each at a clock reading, until one is refused. -/
def replay : List (Int64 × Change) → Member → Except RegistryError Member
  | [], m => .ok m
  | (now, c) :: pushes, m =>
    match m.handleSync now c with
    | (.ok (), m) => m.replay pushes
    | (.error e, _) => .error e

/-- Pushes are taken over in parts. -/
theorem replay_append {pushes more : List (Int64 × Change)} {m m' : Member}
    (first : m.replay pushes = .ok m') : m.replay (pushes ++ more) = m'.replay more := by
  induction pushes generalizing m with
  | nil =>
    obtain rfl : m = m' := by simpa [replay] using first
    rfl
  | cons p ps ih =>
    obtain ⟨now, c⟩ := p
    rcases step : m.handleSync now c with ⟨_ | _, after⟩
    · simp [replay, step] at first
    · simp only [replay, step] at first
      simp only [List.cons_append, replay, step]
      exact ih first

/-- What a follower does with a push. -/
theorem handleSync_of_follower {m : Member} (follower : m.isMaster = false) (now : Int64)
    (c : Change) :
    m.handleSync now c = ((m.store.apply now c).1, m.withStore (m.store.apply now c).2) := by
  unfold handleSync
  rw [follower]
  rfl

end Member

/-- The changes that orders push to the followers. -/
def Order.changes (orders : List Order) : List Change :=
  orders.filterMap fun
    | .replicate c => some c
    | .checkMaster => none

/-- The changes of orders, in parts. -/
@[simp] theorem Order.changes_append (orders more : List Order) :
    Order.changes (orders ++ more) = Order.changes orders ++ Order.changes more :=
  List.filterMap_append ..

/-! ## Changes that lead from one table to another -/

/-- Every follower that mirrors `s` accepts the changes, whatever its clock shows at each of them,
    and mirrors `s'` afterwards.  It is stated over all followers, so that the changes of one deed
    and of the next one compose (`Leads.trans`). -/
def Leads (s : Store) (cs : List Change) (s' : Store) : Prop :=
  ∀ (m : Member) (pushes : List (Int64 × Change)), m.isMaster = false → s.Mirrors m.store →
    pushes.map (·.2) = cs →
    ∃ m', m.replay pushes = .ok m' ∧ m'.isMaster = false ∧ s'.Mirrors m'.store

namespace Leads

variable {s s' s'' : Store}

/-- Without a change the lists must stay what they are. -/
theorem silent (same : ∀ t, s.Mirrors t → s'.Mirrors t) : Leads s [] s' := by
  intro m pushes follower mirrors none_sent
  obtain rfl := List.map_eq_nil_iff.1 none_sent
  exact ⟨m, rfl, follower, same _ mirrors⟩

/-- No change leads from a table to itself. -/
theorem refl : Leads s [] s := silent fun _ mirrors => mirrors

/-- A change leads where every mirror of the one table takes it over to a mirror of the other. -/
theorem single {c : Change}
    (taken : ∀ t now, s.Mirrors t → ∃ t', t.apply now c = (.ok (), t') ∧ s'.Mirrors t') :
    Leads s [c] s' := by
  intro m pushes follower mirrors sent
  obtain ⟨⟨now, _⟩, rfl, rfl⟩ := List.map_eq_singleton_iff.1 sent
  obtain ⟨t', applied, mirrors'⟩ := taken m.store now mirrors
  refine ⟨m.withStore t', ?_, follower, mirrors'⟩
  unfold Member.replay
  rw [Member.handleSync_of_follower follower, applied]
  rfl

/-- Changes one after another lead from the first table to the last. -/
theorem trans {cs ds : List Change} (first : Leads s cs s') (second : Leads s' ds s'') :
    Leads s (cs ++ ds) s'' := by
  intro m pushes follower mirrors sent
  obtain ⟨before, after, rfl, hcs, hds⟩ := List.map_eq_append_iff.1 sent
  obtain ⟨m', replayed, follower', mirrors'⟩ := first m before follower mirrors hcs
  rw [Member.replay_append replayed]
  exact second m' after follower' mirrors' hds

end Leads

/-! ## Deeds of a master -/

/-- What a master does to its table through its service. -/
inductive Deed
  | call (c : Call)
  | evict (timeout : UInt64) (id : String)
  | sweep (timeout : UInt64)
  deriving DecidableEq, Repr

namespace Service

/-- The service of a master after a deed, and what is asked of the cluster. -/
def deed (now : Int64) (d : Deed) (s : Service) : Service × List Order :=
  match d with
  | .call c => ((s.begin true now c).service, (s.begin true now c).orders)
  | .evict timeout id => (s.evict true now timeout id).2
  | .sweep timeout => (s.sweep true now timeout).2

/-- The service of a master after deeds, each at a clock reading, and what they asked. -/
def deeds : List (Int64 × Deed) → Service → Service × List Order
  | [], s => (s, [])
  | (now, d) :: ds, s =>
    let (after, orders) := s.deed now d
    let (last, more) := deeds ds after
    (last, orders ++ more)

section Leading

variable {now : Int64} (s : Service)

/-- A write of a client: each outcome of it has the change that repeats it on a follower. -/
theorem leads_writeHere (pos : 0 < now) (w : Write) :
    Leads s.store (Order.changes (s.writeHere now w).orders) (s.writeHere now w).service.store := by
  cases w with
  | register x =>
    -- refused, a refresh of its own record, a new record
    rcases s.store.register_cases now x with
      ⟨e, eq⟩ | ⟨old, found, -, eq⟩ | ⟨unknown, valid, free, eq⟩
    · simp only [writeHere, writeStore, eq, fail]
      exact Leads.refl
    · simp only [writeHere, writeStore, eq, credit]
      refine Leads.single fun t clock h => ?_
      exact Store.mirrors_merge h found (h.stamped.complete_refreshedAt h.master found _ _) clock
    · simp only [writeHere, writeStore, eq, credit]
      let new := { x with registered := .ofSecs now, heartbeat := .ofSecs now }
      have given : new.id ≠ "" := Instance.id_ne_of_checkRegistration valid
      have stamped : new.Stamped := ⟨Stamp.complete_ofSecs pos, Stamp.complete_ofSecs pos⟩
      show Leads s.store [⟨.register, new⟩] (s.store.insert new)
      exact Leads.single fun t clock h => Store.mirrors_insert h given unknown free stamped clock
  | heartbeat c =>
    rcases s.store.heartbeat_cases now c with ⟨e, eq⟩ | ⟨x, found, -, eq⟩
    · simp only [writeHere, writeStore, eq, fail]
      exact Leads.refl
    · simp only [writeHere, writeStore, eq, credit]
      refine Leads.single fun t clock h => ?_
      exact Store.mirrors_touch h found (Stamp.complete_ofSecs pos) clock
  | unregister c =>
    rcases s.store.unregister_cases c with ⟨e, eq⟩ | ⟨x, found, -, eq⟩
    · simp only [writeHere, writeStore, eq, fail]
      exact Leads.refl
    · simp only [writeHere, writeStore, eq, credit]
      exact Leads.single fun t clock h => Store.mirrors_remove h found clock

/-- A query moves a cursor, which no follower has to know. -/
theorem leads_discoverHere (name : String) :
    Leads s.store (Order.changes (s.discoverHere name).orders)
      (s.discoverHere name).service.store := by
  have silent : Leads s.store [] (s.store.discover name).2 := by
    refine Leads.silent fun t h => ?_
    rcases s.store.discover_cases name with eq | ⟨i, inside, eq⟩
    · rwa [eq]
    · rw [eq]
      exact ⟨h.master.setCursor inside, h.follower, h.stamped, h.lists⟩
  unfold discoverHere
  split
  all_goals
    rename_i eq
    rw [eq] at silent
    exact silent

/-- A call that a master carries out. -/
theorem leads_begin (pos : 0 < now) (c : Call) :
    Leads s.store (Order.changes (s.begin true now c).orders)
      (s.begin true now c).service.store := by
  cases c with
  | write w =>
    unfold begin
    simp only [if_true]
    split
    · exact Leads.refl
    · exact s.leads_writeHere pos w
  | discover name => exact s.leads_discoverHere name

/-- An eviction: what is still expired is removed on both sides. -/
theorem leads_evict (timeout : UInt64) (id : String) :
    Leads s.store (Order.changes (s.evict true now timeout id).2.2)
      (s.evict true now timeout id).2.1.store := by
  unfold evict
  simp only [Bool.not_true, Bool.false_eq_true, if_false]
  rcases s.store.removeIfExpired_cases id now timeout with eq | ⟨x, found, -, eq⟩
  · rw [eq]
    exact Leads.refl
  · rcases s.store.remove_cases id with kept | ⟨y, there, gone⟩
    · rw [eq, kept]
      exact Leads.refl
    · rw [eq, gone]
      exact Leads.single fun t clock h => Store.mirrors_remove h there clock

/-- Evictions one after another. -/
theorem leads_evictAll (timeout : UInt64) (xs : List Instance) :
    Leads s.store (Order.changes (evictAll true now timeout xs s).2.2)
      (evictAll true now timeout xs s).2.1.store := by
  induction xs generalizing s with
  | nil => exact Leads.refl
  | cons x xs ih =>
    unfold evictAll
    simp only [Order.changes_append]
    exact (s.leads_evict timeout x.id).trans (ih _)

/-- Each deed of a master leads its followers along. -/
theorem leads_deed (pos : 0 < now) (d : Deed) :
    Leads s.store (Order.changes (s.deed now d).2) (s.deed now d).1.store := by
  cases d with
  | call c => exact s.leads_begin pos c
  | evict timeout id => exact s.leads_evict timeout id
  | sweep timeout =>
    unfold deed sweep
    simp only [Bool.not_true, Bool.false_eq_true, if_false]
    exact s.leads_evictAll timeout _

/-- So deeds one after another lead along. -/
theorem leads_deeds {ds : List (Int64 × Deed)} (pos : ∀ d ∈ ds, 0 < d.1) :
    Leads s.store (Order.changes (s.deeds ds).2) (s.deeds ds).1.store := by
  induction ds generalizing s with
  | nil => exact Leads.refl
  | cons d ds ih =>
    obtain ⟨now, later⟩ := List.forall_mem_cons.1 pos
    unfold deeds
    simp only [Order.changes_append]
    exact (s.leads_deed now d.2).trans (ih _ later)

end Leading

end Service

/-! ## Runs of a master, replayed -/

/-- Let a follower have the listing of its master, and let the master carry out deeds at positive
    clock readings, under which it also got to its table.  The follower accepts everything the
    master asks to replicate, in order and whatever the follower's own clock shows, and then has the
    listing of its master again. -/
theorem replay_eq_master (master : Service) (follower : Member)
    (past past' : List (Int64 × Store.Operation))
    (reached : master.store = Store.run past {}) (positive : ∀ o ∈ past, 0 < o.1)
    (reached' : follower.store = Store.run past' {})
    (role : follower.isMaster = false) (same : follower.store.all = master.store.all)
    (deeds : List (Int64 × Deed)) (clock : ∀ d ∈ deeds, 0 < d.1)
    (pushes : List (Int64 × Change))
    (inOrder : pushes.map (·.2) = Order.changes (master.deeds deeds).2) :
    ∃ follower', follower.replay pushes = .ok follower'
      ∧ follower'.store.all = (master.deeds deeds).1.store.all := by
  have coherent : master.store.Coherent := reached ▸ Store.coherent_empty.run past
  have coherent' : follower.store.Coherent := reached' ▸ Store.coherent_empty.run past'
  have stamped : master.store.Stamped :=
    reached ▸ Store.stamped_empty.run Store.coherent_empty positive
  have mirrors : master.store.Mirrors follower.store :=
    ⟨coherent, coherent', stamped, (coherent'.all_eq_iff coherent).1 same⟩
  obtain ⟨follower', replayed, -, mirrors'⟩ :=
    master.leads_deeds clock follower pushes role mirrors inOrder
  exact ⟨follower', replayed, mirrors'.all⟩

/-- A record at three times of its life. -/
private def aged (registered beat : Int64) : Instance where
  id := "i"
  identity := ⟨"s", "h", 80⟩
  registered := .ofSecs registered
  heartbeat := .ofSecs beat

/-- A refresh, a heartbeat and an eviction reach a follower whose clock stands still. -/
theorem replay_eq_master_through_eviction :
    let master : Service := { store := Store.run [(5, .register (aged 0 0))] {} }
    let follower : Member :=
      { coordinator := { membership := ⟨"b", ["a", "b"], "a"⟩, master := some "a", started := true }
        service := { store := Store.run [(9, .merge (aged 5 5))] {} } }
    let deeds : List (Int64 × Deed) :=
      [(7, .call (.write (.register { id := "i" }))),
        (8, .call (.write (.heartbeat (aged 5 7).claim))), (20, .sweep 5)]
    ∃ follower', follower.replay [(1, ⟨.register, aged 5 7⟩), (1, ⟨.heartbeat, aged 5 8⟩),
        (1, ⟨.unregister, aged 5 8⟩)] = .ok follower'
      ∧ follower'.store.all = (master.deeds deeds).1.store.all :=
  replay_eq_master _ _ [(5, .register (aged 0 0))] [(9, .merge (aged 5 5))] rfl (by decide) rfl
    (by decide) (by decide) _ (by decide) _ (by decide)

end ServiceRegistry
