/-
  What a full sync from a master leaves on a slave.

  A full sync asks the master for all its records and then for its cursors, takes over the records
  one by one, and sets the cursors inside the lists it has by then.  Three things are put
  together:

    * what the master answers reads back as what it holds (`instancesIn_reply`, `cursorsIn_reply`);
    * its records carry their timestamps, so none is passed over, and no two of them get in each
      other's way (`Store.Coherent.mem_all_merges`);
    * into an empty table they come in the master's order, and its cursors fit
      (`Store.Coherent.merges_all`, `Store.Coherent.get?_adopt_of_services`).

  `fullSync_content` says what that comes to.
-/
import ServiceRegistry.Proofs.Calls
import ServiceRegistry.Proofs.Handling
import ServiceRegistry.Proofs.Store.Merging
import ServiceRegistry.Proofs.Wire

namespace ServiceRegistry

open Http Json Text

/-! ## A full sync -/

/-- A full sync of a member from a node of which nothing else is asked meanwhile. -/
def Member.fullSync (master : Node) (address : String) (now : Int64) (uptime : Nat) (m : Member) :
    Member :=
  let asked := master.receive now uptime (PeerCall.discovery address "").request
  let askedMore := asked.node.receive now uptime (PeerCall.cursors address).request
  let pulled := (m.hear now (.pull address) asked.reply).member
  (pulled.hear now (.pullCursors address) askedMore.reply).member

/-! ## What the master answers -/

/-- The data in an answer in the common shape reads back. -/
theorem dataIn_enveloped {α : Type} {d : Decoder α} {v : Value} {a : α} (exact_data : v.Exact)
    (reads : d.Reads v a) (given : v ≠ .null) (c : PeerCall) (msg : String) :
    dataIn d (some (c.request.dress (.enveloped 200 msg v)).relayed) = some (some a) := by
  have body : decode (Envelope.decoder d) (Octets.ofText (Response.envelope 200 msg v).compact)
      = .ok (some a) :=
    decode_compact (exact_envelope (by decide) exact_data)
      (@Envelope.reads_envelope _ _ 200 _ _ _ reads given)
  rw [c.dress_request]
  show (decode (Envelope.decoder d)
    (Octets.ofText (Response.envelope 200 msg v).compact)).toOption = some (some a)
  rw [body]
  rfl

section Answers

variable {m : Member} {address : String} {now : Int64} {uptime : Nat}

/-- Asked for its records, a master answers with all of them, and keeps its table. -/
theorem receive_discovery (leads : m.isMaster = true) :
    ∃ service, service.store = m.store
      ∧ (Node.member m).receive now uptime (PeerCall.discovery address "").request
        = { node := .member { m with service }
            handled := .answered ((PeerCall.discovery address "").request.dress
              (success (.discover "") (.found m.store.all))) } := by
  refine ⟨m.service.count .discoveries, rfl, ?_⟩
  rw [Node.receive_of_call (PeerCall.inquiry_discovery address "")]
  show Node.handling _ _ _ (m.service.begin m.isMaster now _) = _
  rw [leads]
  rfl

theorem instancesIn_reply (leads : m.isMaster = true) :
    instancesIn ((Node.member m).receive now uptime (PeerCall.discovery address "").request).reply
      = some m.store.all := by
  obtain ⟨service, -, received⟩ := @receive_discovery _ address now uptime leads
  have data := dataIn_enveloped (Listing.exact_value (.of "" m.store.all))
    (Listing.reads_listing _) (by simp [Listing.value]) (.discovery address "")
    (foundMessage "" m.store.all)
  rw [received]
  exact congrArg (Option.map fun data => (data.map Listing.instances).getD []) data

/-- Asked for its cursors, a master answers with all of them. -/
theorem receive_cursors (leads : m.isMaster = true) :
    (Node.member m).receive now uptime (PeerCall.cursors address).request
      = { node := .member m
          handled := .answered ((PeerCall.cursors address).request.dress
            (cursorsAnswer (.ok m.store.cursors))) } := by
  have given : (Node.member m).cursors = .ok m.store.cursors := if_pos leads
  rw [Node.receive, PeerCall.inquiry_cursors]
  show Node.answering _ _ (cursorsAnswer (Node.member m).cursors) = _
  rw [given]
  rfl

theorem cursorsIn_reply (leads : m.isMaster = true) (coherent : m.store.Coherent)
    (keyed : m.store.cursors.Keyed)
    (short : ∀ name, (m.store.ofService name).length ≤ Int64.maxValue.toInt) :
    cursorsIn ((Node.member m).receive now uptime (PeerCall.cursors address).request).reply
      = some (m.store.cursors.entries.map fun e => (e.1, Int64.ofInt e.2)) := by
  have small : ∀ e ∈ m.store.cursors.entries, (e.2 : Int) ≤ Int64.maxValue.toInt := by
    intro e he
    have inside := coherent.cursors e.1 e.2 (keyed.get?_of_mem he)
    have most := short e.1
    omega
  have data := dataIn_enveloped (Cursors.exact_entries small) (Cursors.reads_entries small keyed)
    nofun (.cursors address) "load balance state"
  rw [receive_cursors leads]
  exact congrArg (Option.map (·.getD [])) data

end Answers

/-! ## What is taken over -/

namespace Store

/-- The records of a table with complete timestamps are what a full sync does not pass over. -/
theorem Stamped.isStamped {s : Store} (h : s.Stamped) : s.all.filter Member.isStamped = s.all :=
  List.filter_eq_self.2 fun x hx => by
    obtain ⟨registered, heartbeat⟩ := h x hx
    simp [Member.isStamped, registered.1, heartbeat.1]

end Store

namespace Member

@[simp] theorem store_absorb (now : Int64) (xs : List Instance) (m : Member) :
    (m.absorb now xs).store = m.store.merges now (xs.filter isStamped) := rfl

/-- Records without timestamps have no effect. -/
theorem absorb_filter (now : Int64) (xs : List Instance) (m : Member) :
    m.absorb now xs
      = m.absorb now (xs.filter fun x => ¬ (x.registered.secs ≤ 0 ∨ x.heartbeat.secs ≤ 0)) := by
  have stamped : ∀ x : Instance, isStamped x
      = (isStamped x && decide (¬ (x.registered.secs ≤ 0 ∨ x.heartbeat.secs ≤ 0))) := by
    intro x
    simp only [isStamped, not_or, Int64.not_le]
    grind
  unfold absorb
  rw [List.filter_filter]
  congr 3
  funext x
  exact stamped x

section FullSync

variable {master slave : Member} {now : Int64} {past past' : List (Int64 × Store.Operation)}

/-- The records of the master are merged, and its cursors, when they arrive, adopted. -/
theorem store_fullSync (leads : master.isMaster = true) (stamped : master.store.Stamped)
    (address : String) (now : Int64) (uptime : Nat) :
    (slave.fullSync (.member master) address now uptime).store
      = (cursorsIn ((Node.member master).receive now uptime
          (PeerCall.cursors address).request).reply).elim (slave.store.merges now master.store.all)
        fun cursors => ((slave.store.merges now master.store.all).adopt cursors).2 := by
  obtain ⟨service, kept, received⟩ := @receive_discovery _ address now uptime leads
  have pulled : (slave.hear now (.pull address) ((Node.member master).receive now uptime
      (PeerCall.discovery address "").request).reply).member
        = slave.absorb now master.store.all := by
    simp only [hear, instancesIn_reply leads]
  have asked : ((Node.member master).receive now uptime
      (PeerCall.discovery address "").request).node = .member { master with service } := by
    rw [received]
  -- the query has been counted meanwhile, which the cursors do not show
  have same : ((Node.member { master with service }).receive now uptime
        (PeerCall.cursors address).request).reply
      = ((Node.member master).receive now uptime (PeerCall.cursors address).request).reply := by
    rw [receive_cursors leads, receive_cursors (m := { master with service }) leads]
    show some (Response.relayed _) = some (Response.relayed _)
    rw [show ({ master with service } : Member).store = master.store from kept]
  have absorbed : (slave.absorb now master.store.all).store
      = slave.store.merges now master.store.all := by
    rw [store_absorb, stamped.isStamped]
  unfold fullSync
  dsimp only
  rw [pulled, asked, same]
  generalize ((Node.member master).receive now uptime (PeerCall.cursors address).request).reply = r
  unfold hear
  dsimp only
  cases cursorsIn r with
  | none => exact absorbed
  | some cursors => exact congrArg (fun s => (Store.adopt cursors s).2) absorbed

/-- After a full sync from a master the slave holds the master's records, and of its own those that
    share neither id nor endpoint with any of them; if it had none, it holds them in the master's
    order, with the master's cursors, as far as the numbers of records fit an answer, and queries
    find the same on both from then on.  Records without timestamps have no effect, whoever sent
    them. -/
theorem fullSync_content (leads : master.isMaster = true)
    (reached : master.store = Store.run past {}) (positive : ∀ o ∈ past, 0 < o.1)
    (reached' : slave.store = Store.run past' {}) (address : String) (now : Int64) (uptime : Nat) :
    let synced := (slave.fullSync (.member master) address now uptime).store
    (∀ x, x ∈ synced.all ↔ x ∈ master.store.all
        ∨ x ∈ slave.store.all ∧ ∀ y ∈ master.store.all, y.id ≠ x.id ∧ y.endpoint ≠ x.endpoint)
      ∧ (slave.store.all = [] → synced.services = master.store.services
        ∧ ((∀ name, (master.store.ofService name).length ≤ Int64.maxValue.toInt) →
          (∀ name, synced.cursors.get? name = master.store.cursors.get? name)
            ∧ ∀ names, synced.picks names = master.store.picks names))
      ∧ ∀ clock xs, slave.absorb clock xs
        = slave.absorb clock
          (xs.filter fun x => ¬ (x.registered.secs ≤ 0 ∨ x.heartbeat.secs ≤ 0)) := by
  intro synced
  have coherent : master.store.Coherent := reached ▸ Store.coherent_empty.run past
  have coherent' : slave.store.Coherent := reached' ▸ Store.coherent_empty.run past'
  have keyed : master.store.cursors.Keyed := reached ▸ Store.keyed_run Index.keyed_empty past
  have stamped : master.store.Stamped :=
    reached ▸ Store.stamped_empty.run Store.coherent_empty positive
  let merged := slave.store.merges now master.store.all
  have result : synced = (cursorsIn ((Node.member master).receive now uptime
      (PeerCall.cursors address).request).reply).elim merged
        fun cursors => (merged.adopt cursors).2 :=
    store_fullSync leads stamped address now uptime
  -- whatever cursors arrive, the records are those that were merged
  have services : synced.services = merged.services := by
    rw [result]
    cases cursorsIn ((Node.member master).receive now uptime
        (PeerCall.cursors address).request).reply with
    | none => rfl
    | some cursors => exact (Store.SameRecords.adopt merged cursors).services
  refine ⟨fun x => ?_, fun empty => ?_, fun clock xs => absorb_filter clock xs slave⟩
  · have held : x ∈ merged.all ↔ _ :=
      coherent'.mem_all_merges coherent.distinct_all stamped coherent.id_ne
    rwa [Store.all, services]
  · obtain ⟨same, unset⟩ := coherent'.merges_all empty coherent stamped now
    have alike : synced.services = master.store.services := services.trans same
    refine ⟨alike, fun short => ?_⟩
    have adopted : ∀ name, synced.cursors.get? name = master.store.cursors.get? name := by
      rw [result, cursorsIn_reply leads coherent keyed short]
      exact coherent.get?_adopt_of_services keyed same short unset
    exact ⟨adopted, Store.Alike.picks ⟨alike, adopted⟩⟩

end FullSync

/-- A slave has the endpoint of one record of the master under the id of another, and a record of
    its own: the master's two take over, in either order, and its own one stays. -/
theorem fullSync_content_of_exchange :
    let record (id : String) (port : UInt32) : Instance := { id, identity := ⟨"s", "h", port⟩ }
    let member (self : String) (ops : List (Int64 × Store.Operation)) : Member :=
      { coordinator :=
          { membership := ⟨self, ["a", "b"], "a"⟩, master := some "a", started := true }
        service := { store := Store.run ops {} } }
    let master := member "a" [(5, .register (record "i" 1)), (6, .register (record "j" 2))]
    let slave := member "b" [(3, .merge (record "i" 2)), (4, .merge (record "k" 3))]
    ∀ x, x ∈ (slave.fullSync (.member master) "a" 9 0).store.all ↔ x ∈ master.store.all
      ∨ x ∈ slave.store.all ∧ ∀ y ∈ master.store.all, y.id ≠ x.id ∧ y.endpoint ≠ x.endpoint := by
  intro record member master slave
  exact (fullSync_content (by decide) rfl (by decide) rfl "a" 9 0).1

end Member

end ServiceRegistry
