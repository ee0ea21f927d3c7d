/-
  Instances, claims and listings read back as they were written.

  Each form of an instance goes through JSON without loss: whatever its texts and numbers are, the
  decoder of the form reads exactly the instance that was written.

    * `reads_wire`, `reads_view`   the two forms of an instance;
    * `reads_claim`                the wire form of an instance, as a claim;
    * `reads_listing`, `reads_envelope`   lists of instances, and answers in the common shape.
-/
import ServiceRegistry.Http.Message
import ServiceRegistry.Instance.Listing
import ServiceRegistry.Peer
import ServiceRegistry.Proofs.Json.Skipping

namespace ServiceRegistry

open Json Instance.Draft

/-! ## Numbers in 64 bits -/

namespace Json

/-- An integer of 64 bits with a sign is read exactly. -/
theorem Number.exact_of_signed {i : Int} (above : Int64.minValue.toInt ≤ i)
    (below : i ≤ Int64.maxValue.toInt) : (Number.int i).Exact := by
  have highest : Int64.maxValue.toInt = 9223372036854775807 := by decide
  have word : (maxWord : Int) = 18446744073709551615 := by decide
  exact ⟨above, by omega⟩

/-- So is one without. -/
theorem Number.exact_of_unsigned {n : Nat} (below : n < UInt64.size) : (Number.int n).Exact := by
  have lowest : Int64.minValue.toInt = -9223372036854775808 := by decide
  have word : maxWord = UInt64.size - 1 := rfl
  exact ⟨by omega, by omega⟩

/-- A timestamp is read exactly. -/
theorem Value.exact_secs (x : Int64) : (Value.int x.toInt).Exact :=
  .number (Number.exact_of_signed (Int64.minValue_le_toInt x) (Int64.toInt_le x))

/-- A count is read exactly. -/
theorem Value.exact_nat {n : Nat} (below : n < UInt64.size) : (Value.nat n).Exact :=
  .number (Number.exact_of_unsigned below)

end Json

/-! ## Identities -/

/-- The members of an identity hold texts and a port. -/
theorem exact_identityMembers (id : String) (x : Identity) :
    ∀ m ∈ identityMembers id x, m.2.Exact := by
  have port : (Value.nat x.port.toNat).Exact :=
    Value.exact_nat (Nat.lt_trans x.port.toNat_lt (by decide))
  simp only [identityMembers, List.forall_mem_cons]
  exact ⟨.string _, .string _, .string _, port, nofun⟩

/-- The draft after the four fields of an identity. -/
def Instance.Draft.named (id : String) (x : Identity) : Instance.Draft :=
  { service := some x.service, id := some id, ip := some x.ip, port := some x.port }

/-- The members of an identity fill the draft with it, whatever fields the form has besides. -/
theorem gathers_identity (id : String) (x : Identity) (more : List (Json.Field Instance.Draft)) :
    Gathers (readMember (identityFields ++ more)) {} (identityMembers id x) (.named id x) := by
  let fields := identityFields ++ more
  have service : fields.find? (·.key == "serviceName") = some (.of "serviceName" (·.service)
    (fun d x => { d with service := some x }) Decoder.text) := rfl
  have ident : fields.find? (·.key == "serviceId") = some (.of "serviceId" (·.id)
    (fun d x => { d with id := some x }) Decoder.text) := rfl
  have ip : fields.find? (·.key == "ipAddress") = some (.of "ipAddress" (·.ip)
    (fun d x => { d with ip := some x }) Decoder.text) := rfl
  have port : fields.find? (·.key == "port") = some (.of "port" (·.port)
    (fun d x => { d with port := some x }) Decoder.word32) := rfl
  refine .field service rfl (Decoder.reads_text _) ?_
  refine .field ident rfl (Decoder.reads_text _) ?_
  refine .field ip rfl (Decoder.reads_text _) ?_
  exact .field port rfl (Decoder.reads_word32 _) .nil

/-! ## Timestamps -/

/-- What a member that is left out when zero leaves in a draft. -/
def givenSecs (secs : Int64) : Option Int64 := if secs = 0 then none else some secs

/-- What a member that is left out when empty leaves in a draft. -/
def givenText (text : String) : Option String := if text.isEmpty then none else some text

/-- What is left out reads as the zero it was. -/
@[simp] theorem givenSecs_getD (secs : Int64) : (givenSecs secs).getD 0 = secs := by
  unfold givenSecs
  split
  · exact Eq.symm ‹_›
  · rfl

/-- What is left out reads as the empty text it was. -/
@[simp] theorem givenText_getD (text : String) : (givenText text).getD "" = text := by
  unfold givenText
  split
  · exact (String.isEmpty_iff.1 ‹_›).symm
  · rfl

section Stamps

variable {σ : Type} {fields : List (Json.Field σ)} {key : String}

/-- The member of a timestamp is read into its field, or leaves it alone. -/
theorem gathers_secsMember {get : σ → Option Int64} {put : σ → Int64 → σ}
    (found : fields.find? (·.key == key) = some (.of key get put Decoder.int64))
    (draft : Option Int64 → σ) (unset : get (draft none) = none)
    (set : ∀ n, put (draft none) n = draft (some n)) (secs : Int64) :
    Gathers (readMember fields) (draft none) (secsMember key secs) (draft (givenSecs secs)) := by
  unfold secsMember givenSecs
  split
  · exact .nil
  · rw [← set]
    exact .field found unset (Decoder.reads_int64_toInt secs) .nil

/-- So is the member of a text. -/
theorem gathers_textMember {get : σ → Option String} {put : σ → String → σ}
    (found : fields.find? (·.key == key) = some (.of key get put Decoder.text))
    (draft : Option String → σ) (unset : get (draft none) = none)
    (set : ∀ n, put (draft none) n = draft (some n)) (text : String) :
    Gathers (readMember fields) (draft none) (textMember key text) (draft (givenText text)) := by
  unfold textMember givenText
  split
  · exact .nil
  · rw [← set]
    exact .field found unset (Decoder.reads_text text) .nil

end Stamps

/-- The fields of the two forms under the keys of the timestamps. -/
theorem find?_stampFields {a b c d : String} (apart : [a, b, c, d].Nodup)
    (others : ∀ k ∈ [a, b, c, d], k ∉ ["serviceName", "serviceId", "ipAddress", "port"]) :
    (identityFields ++ stampFields a b c d).find? (·.key == a)
        = some (.of a (·.registeredAt) (fun d x => { d with registeredAt := some x }) Decoder.int64)
      ∧ (identityFields ++ stampFields a b c d).find? (·.key == b)
        = some (.of b (·.heartbeatAt) (fun d x => { d with heartbeatAt := some x }) Decoder.int64)
      ∧ (identityFields ++ stampFields a b c d).find? (·.key == c)
        = some (.of c (·.registeredReadable)
          (fun d x => { d with registeredReadable := some x }) Decoder.text)
      ∧ (identityFields ++ stampFields a b c d).find? (·.key == d)
        = some (.of d (·.heartbeatReadable)
          (fun d x => { d with heartbeatReadable := some x }) Decoder.text) := by
  simp only [List.nodup_cons, List.mem_cons, List.not_mem_nil, or_false, not_or,
    forall_eq_or_imp, forall_eq] at apart others
  refine ⟨?_, ?_, ?_, ?_⟩ <;>
    grind [identityFields, stampFields, Field.of]

/-- The member of a timestamp is read exactly. -/
theorem exact_secsMember (key : String) (secs : Int64) : ∀ m ∈ secsMember key secs, m.2.Exact := by
  unfold secsMember
  split
  · exact nofun
  · exact List.forall_mem_singleton.2 (Value.exact_secs secs)

/-- The member of a text is read exactly. -/
theorem exact_textMember (key text : String) : ∀ m ∈ textMember key text, m.2.Exact := by
  unfold textMember
  split
  · exact nofun
  · exact List.forall_mem_singleton.2 (.string text)

/-! ## The two forms of an instance -/

namespace Instance

/-- The wire form has no number that is not read exactly. -/
theorem exact_wire (x : Instance) : x.wire.Exact := by
  refine .object ?_
  simp only [List.forall_mem_append]
  exact ⟨⟨⟨⟨exact_identityMembers _ _, exact_secsMember _ _⟩, exact_secsMember _ _⟩,
    exact_textMember _ _⟩, exact_textMember _ _⟩

/-- Nor has the form for display. -/
theorem exact_view (x : Instance) : x.view.Exact := by
  refine .object ?_
  simp only [List.forall_mem_append, List.forall_mem_cons]
  exact ⟨exact_identityMembers _ _, Value.exact_secs _, Value.exact_secs _, .string _, .string _,
    nofun⟩

/-- An instance is read back from its wire form.  A member that was left out, being zero or empty,
    comes back as the default of its field. -/
theorem reads_wire (x : Instance) : wireDecoder.Reads x.wire x := by
  obtain ⟨foundA, foundB, foundC, foundD⟩ := find?_stampFields (a := "registeredAt")
    (b := "lastHeartbeat") (c := "registeredGMTTime") (d := "lastHeartbeatGMTTime")
    (by decide) (by decide)
  -- the drafts on the way, a member after the other
  let d₀ := named x.id x.identity
  let d₁ := { d₀ with registeredAt := givenSecs x.registered.secs }
  let d₂ := { d₁ with heartbeatAt := givenSecs x.heartbeat.secs }
  let d₃ := { d₂ with registeredReadable := givenText x.registered.readable }
  have registered := gathers_secsMember foundA (fun n => { d₀ with registeredAt := n }) rfl
    (fun _ => rfl) x.registered.secs
  have heartbeat := gathers_secsMember foundB (fun n => { d₁ with heartbeatAt := n }) rfl
    (fun _ => rfl) x.heartbeat.secs
  have since := gathers_textMember foundC (fun t => { d₂ with registeredReadable := t }) rfl
    (fun _ => rfl) x.registered.readable
  have last := gathers_textMember foundD (fun t => { d₃ with heartbeatReadable := t }) rfl
    (fun _ => rfl) x.heartbeat.readable
  have gathers := (gathers_identity x.id x.identity _).append registered
    |>.append heartbeat |>.append since |>.append last
  refine Decoder.reads_record gathers (congrArg some ?_)
  simp [d₃, d₂, d₁, d₀, withDefaults, named]

/-- An instance is read back from its form for display, which leaves nothing out. -/
theorem reads_view (x : Instance) : viewDecoder.Reads x.view x := by
  obtain ⟨foundA, foundB, foundC, foundD⟩ := find?_stampFields (a := "registrationTime")
    (b := "lastHeartbeatTime") (c := "registrationGMTTime") (d := "lastHeartbeatGMTTime")
    (by decide) (by decide)
  have stamps := Gathers.field foundA (s := named x.id x.identity) rfl
    (Decoder.reads_int64_toInt x.registered.secs) <|
    .field foundB rfl (Decoder.reads_int64_toInt x.heartbeat.secs) <|
    .field foundC rfl (Decoder.reads_text x.registered.readable) <|
    .field foundD rfl (Decoder.reads_text x.heartbeat.readable) .nil
  exact Decoder.reads_record ((gathers_identity x.id x.identity _).append stamps) rfl

/-- As a claim the wire form is read without its timestamps, which a claim does not know. -/
theorem reads_claim (x : Instance) : Claim.decoder.Reads x.wire x.claim := by
  -- none of the members beyond the identity has a field to be read into
  have secs (key : String) (secs : Int64) (absent : identityFields.find? (·.key == key) = none) :
      ∀ m ∈ secsMember key secs, identityFields.find? (·.key == m.1) = none := by
    unfold secsMember
    split
    · exact nofun
    · exact List.forall_mem_singleton.2 absent
  have text (key text : String) (absent : identityFields.find? (·.key == key) = none) :
      ∀ m ∈ textMember key text, identityFields.find? (·.key == m.1) = none := by
    unfold textMember
    split
    · exact nofun
    · exact List.forall_mem_singleton.2 absent
  have named := gathers_identity x.id x.identity []
  rw [List.append_nil] at named
  have gathers := named
    |>.append (.unknown (secs "registeredAt" x.registered.secs rfl) _)
    |>.append (.unknown (secs "lastHeartbeat" x.heartbeat.secs rfl) _)
    |>.append (.unknown (text "registeredGMTTime" x.registered.readable rfl) _)
    |>.append (.unknown (text "lastHeartbeatGMTTime" x.heartbeat.readable rfl) _)
  exact Decoder.reads_record gathers rfl

end Instance

/-- Without timestamps the wire form says no more than the claim does. -/
theorem Claim.reads_claim (c : Claim) :
    Claim.decoder.Reads ({ id := c.id, identity := c.identity } : Instance).wire c :=
  Instance.reads_claim { id := c.id, identity := c.identity }

/-! ## Listings -/

/-- A listing has no number that is not read exactly. -/
theorem Listing.exact_value (l : Listing) : l.value.Exact := by
  refine .object ?_
  simp only [List.forall_mem_append, List.forall_mem_cons]
  refine ⟨?_, Value.exact_nat l.total.toNat_lt, .array fun v hv => ?_, nofun⟩
  · cases l.service with
    | none => exact nofun
    | some n => exact List.forall_mem_singleton.2 (.string n)
  · obtain ⟨x, -, rfl⟩ := List.mem_map.1 hv
    exact x.exact_view

/-- A listing is read back, with the name of its service or without. -/
theorem Listing.reads_listing (l : Listing) : Listing.decoder.Reads l.value l := by
  obtain ⟨service, total, instances⟩ := l
  have items : List.Forall₂ Instance.viewDecoder.Reads (instances.map Instance.view) instances := by
    induction instances with
    | nil => exact .nil
    | cons x xs ih => exact .cons x.reads_view ih
  cases service with
  | none =>
    apply Decoder.reads_record
    · exact .field rfl rfl (Decoder.reads_word64 total) <|
        .field rfl rfl (Decoder.reads_list items) .nil
    · rfl
  | some name =>
    apply Decoder.reads_record
    · exact .field rfl rfl ((Decoder.reads_text name).nullable nofun) <|
        .field rfl rfl (Decoder.reads_word64 total) <|
        .field rfl rfl (Decoder.reads_list items) .nil
    · rfl

/-! ## Answers -/

/-- An answer in the common shape is read exactly when its data is. -/
theorem exact_envelope {code : Nat} {msg : String} {data : Value} (small : code < UInt16.size)
    (h : data.Exact) : (Http.Response.envelope code msg data).Exact := by
  refine .object ?_
  simp only [List.forall_mem_cons]
  exact ⟨Value.exact_nat (Nat.lt_trans small (by decide)), .string _, h, nofun⟩

/-- An answer in the common shape gives its data back. -/
theorem Envelope.reads_envelope {α : Type} {d : Decoder α} {code : UInt16} {msg : String}
    {data : Value} {a : α} (reads : d.Reads data a) (some_data : data ≠ .null) :
    (Envelope.decoder d).Reads (Http.Response.envelope code.toNat msg data) (some a) := by
  apply Decoder.reads_record
  · exact .field rfl rfl (Decoder.reads_word16 code) <|
      .field rfl rfl (Decoder.reads_text msg) <|
      .field rfl rfl (reads.nullable some_data) .nil
  · rfl

end ServiceRegistry
