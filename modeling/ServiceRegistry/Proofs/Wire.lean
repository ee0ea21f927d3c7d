/-
  What nodes write to one another is read as it was written.

  A record travels as the body of a write, as a claim that is read off that body, under the kind of
  a write that is pushed, and in the listing of an answer; cursors travel beside the records.  The
  writer and the reader of a form are defined apart, under different keys and with different
  defaults.  `Decoder.Restores` says that they fit.

    * `Change.reads_wire`      a record with the kind of its write, over `Instance.reads_wire`;
    * `Listing.restores`       a listing in an answer;
    * `Cursors.reads_entries`  cursors, as far as 64 bits with a sign go;
    * `wire_restores`          all forms, as texts.
-/
import ServiceRegistry.Http.Answers
import ServiceRegistry.Proofs.Instance.RoundTrip
import ServiceRegistry.Proofs.Store.Cursors

namespace ServiceRegistry

open Http Json Text

/-- The text of a value decodes to `a`, whether or not the reader minds what follows it. -/
def Json.Decoder.Restores {α : Type} (d : Decoder α) (v : Value) (a : α) : Prop :=
  decode d (Octets.ofText v.compact) = .ok a ∧ decodeHead d (Octets.ofText v.compact) = .ok a

/-- What reads a value reads it from the text of the value. -/
theorem Json.Decoder.Reads.restores {α : Type} {d : Decoder α} {v : Value} {a : α}
    (reads : d.Reads v a) (exact_ : v.Exact) : d.Restores v a :=
  ⟨decode_compact exact_ reads, decodeHead_compact exact_ reads⟩

/-! ## Changes -/

/-- A kind of write is read from its name. -/
theorem WriteKind.reads_name (k : WriteKind) : WriteKind.decoder.Reads (.string k.name) k := by
  cases k <;> exact fun _ => rfl

namespace Change

/-- A change is read exactly, since its record is. -/
theorem exact_wire (c : Change) : c.wire.Exact := by
  refine .object ?_
  simp only [List.forall_mem_cons]
  exact ⟨.string _, c.record.exact_wire, nofun⟩

/-- A change is read back: the kind from its name, the record from its wire form. -/
theorem reads_wire (c : Change) : Change.decoder.Reads c.wire c := by
  apply Decoder.reads_record
  · exact .field rfl rfl c.kind.reads_name <| .field rfl rfl c.record.reads_wire .nil
  · rfl

end Change

/-! ## Cursors -/

namespace Cursors

variable {cursors : Cursors} (below : ∀ e ∈ cursors.entries, (e.2 : Int) ≤ Int64.maxValue.toInt)
include below

/-- Cursors that fit into 64 bits with a sign are read exactly. -/
theorem exact_entries : (Value.object (cursors.entries.map fun e => (e.1, .nat e.2))).Exact := by
  refine .object fun m hm => ?_
  obtain ⟨e, he, rfl⟩ := List.mem_map.1 hm
  have most := below e he
  have signed : Int64.maxValue.toInt = 9223372036854775807 := by decide
  have unsigned : UInt64.size = 18446744073709551616 := rfl
  exact Value.exact_nat (by omega)

/-- Cursors are read back under the names they were sent with. -/
theorem reads_entries (keyed : cursors.Keyed) :
    Decoder.int64.dictionary.Reads (.object (cursors.entries.map fun e => (e.1, .nat e.2)))
      (cursors.entries.map fun e => (e.1, Int64.ofInt e.2)) := by
  let entries := cursors.entries.map fun e => (e.1, Value.nat e.2, Int64.ofInt e.2)
  have names : entries.map (·.1) = cursors.entries.map (·.1) := List.map_map
  have reads : ∀ e ∈ entries, Decoder.int64.Reads e.2.1 e.2.2 := by
    intro e he
    obtain ⟨e, there, rfl⟩ := List.mem_map.1 he
    exact Decoder.reads_int64 (Int.le_trans (by decide) (Int.natCast_nonneg _)) (below e there)
  have read := Decoder.reads_dictionary (names ▸ keyed) reads
  simp only [entries, List.map_map] at read
  exact read

end Cursors

/-! ## Answers -/

/-- A listing comes back from the answer that it is sent in. -/
theorem Listing.restores (l : Listing) (code : UInt16) (msg : String) :
    (Envelope.decoder Listing.decoder).Restores (Response.envelope code.toNat msg l.value)
      (some l) := by
  have reads := @Envelope.reads_envelope _ _ code msg _ _ l.reads_listing nofun
  exact reads.restores (exact_envelope code.toNat_lt l.exact_value)

/-- Cursors come back from the answer that they are sent in. -/
theorem Cursors.restores {cursors : Cursors} (keyed : cursors.Keyed)
    (below : ∀ e ∈ cursors.entries, (e.2 : Int) ≤ Int64.maxValue.toInt) :
    (Envelope.decoder Decoder.int64.dictionary).Restores
      (Response.envelope 200 "load balance state"
        (.object (cursors.entries.map fun e => (e.1, .nat e.2))))
      (some (cursors.entries.map fun e => (e.1, Int64.ofInt e.2))) := by
  have reads := @Envelope.reads_envelope _ _ 200 "load balance state" _ _
    (reads_entries below keyed) nofun
  exact reads.restores (exact_envelope (by decide) (exact_entries below))

/-! ## All forms -/

/-- Whatever texts and numbers a record has, each form it is sent in gives it back: its wire form,
    though it leaves out what is zero or empty, also under the kind of a write; a listing of any
    records; the claim that is read off the wire form.  And cursors are given back while they fit
    into 64 bits with a sign. -/
theorem wire_restores (x : Instance) (c : Change) (code : UInt16) (msg name : String)
    (xs : List Instance) (cursors : Cursors) (keyed : cursors.Keyed)
    (below : ∀ e ∈ cursors.entries, e.2 < Nat.pow 2 63) :
    Instance.wireDecoder.Restores x.wire x
      ∧ Change.decoder.Restores c.wire c
      ∧ (Envelope.decoder Listing.decoder).Restores
          (Response.envelope code.toNat msg (Listing.of name xs).value) (some (Listing.of name xs))
      ∧ (Listing.of name xs).instances = xs
      ∧ Claim.decoder.Restores x.wire x.claim
      ∧ ∃ entries : List (String × Int64),
        decode (Envelope.decoder Decoder.int64.dictionary) (cursorsAnswer (.ok cursors)).body.octets
            = .ok (some entries)
          ∧ (entries.map fun e => (e.1, e.2.toInt))
            = cursors.entries.map fun e => (e.1, (e.2 : Int)) := by
  have highest : Int64.maxValue.toInt = 9223372036854775807 := by decide
  have small : ∀ e ∈ cursors.entries, (e.2 : Int) < 9223372036854775808 :=
    fun e he => Int.ofNat_lt.2 (below e he)
  let entries := cursors.entries.map fun e => (e.1, Int64.ofInt e.2)
  have read : decode (Envelope.decoder Decoder.int64.dictionary)
      (cursorsAnswer (.ok cursors)).body.octets = .ok (some entries) :=
    (Cursors.restores keyed fun e he => highest ▸ Int.le_of_lt_add_one (small e he)).1
  have numbers : (entries.map fun e => (e.1, e.2.toInt))
      = cursors.entries.map fun e => (e.1, (e.2 : Int)) := by
    rw [List.map_map]
    refine List.map_congr_left fun e he => ?_
    have most := small e he
    have number : (Int64.ofInt e.2).toInt = e.2 := Int64.toInt_ofInt_of_le (by omega) (by omega)
    exact congrArg (Prod.mk e.1) number
  -- one reader for each form, in the order of the statement
  exact ⟨x.reads_wire.restores x.exact_wire, c.reads_wire.restores c.exact_wire,
    (Listing.of name xs).restores code msg, rfl, x.reads_claim.restores x.exact_wire,
    entries, read, numbers⟩

/-- A record that was never registered, with a heartbeat before the beginning of time. -/
theorem wire_restores_of_unset :
    let x : Instance := ⟨"i\n", ⟨"ä", "h", 80⟩, .unset, ⟨-1, ""⟩⟩
    let cursors : Cursors := ⟨[("s", 1), ("t", 0)]⟩
    Instance.wireDecoder.Restores x.wire x
      ∧ Change.decoder.Restores (Change.wire ⟨.heartbeat, x⟩) ⟨.heartbeat, x⟩
      ∧ (Envelope.decoder Listing.decoder).Restores
          (Response.envelope 200 "all instances" (Listing.of "" [x]).value)
          (some (Listing.of "" [x]))
      ∧ (Listing.of "" [x]).instances = [x]
      ∧ Claim.decoder.Restores x.wire x.claim
      ∧ ∃ entries : List (String × Int64),
        decode (Envelope.decoder Decoder.int64.dictionary) (cursorsAnswer (.ok cursors)).body.octets
            = .ok (some entries)
          ∧ (entries.map fun e => (e.1, e.2.toInt))
            = cursors.entries.map fun e => (e.1, (e.2 : Int)) := by
  intro x cursors
  have keyed : cursors.Keyed := by simp [cursors, Index.Keyed]
  have below : ∀ e ∈ cursors.entries, e.2 < Nat.pow 2 63 := by simp [cursors]
  exact wire_restores x ⟨.heartbeat, x⟩ 200 "all instances" "" [x] cursors keyed below

end ServiceRegistry
