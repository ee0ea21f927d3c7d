/-
  What decoders make of values.

  `Decoder.Reads d v a` says that `d` takes the tokens of the value `v` off the front of any token
  sequence and makes `a` of them.  It is shown decoder by decoder, up to records:

    * `Gathers`           what the members of an object do to the draft of a record, one after the
                          other; it composes along `++`;
    * `reads_record`      a record is read when its members gather a draft that closes;
    * `reads_dictionary`  entries with distinct keys are read as they are;
    * `decode_compact`    and what reads a value decodes its text.
-/
import ServiceRegistry.Json.Decoder
import ServiceRegistry.Proofs.Json.Lexing
import Mathlib.Data.List.Forall2

namespace ServiceRegistry.Json

open ServiceRegistry.Text

/-- A value does not begin with a closing bracket, and only null begins with null. -/
theorem Value.tokens_begin (v : Value) :
    ∃ t ts, v.tokens = t :: ts ∧ t ≠ .closeBracket ∧ (t = .null → v = .null) := by
  cases v with
  | null => exact ⟨_, _, rfl, nofun, fun _ => rfl⟩
  | bool | number | string => exact ⟨_, _, rfl, nofun, nofun⟩
  | array vs => cases vs <;> exact ⟨_, _, rfl, nofun, nofun⟩
  | object ms => rcases ms with _ | ⟨⟨k, v⟩, ms⟩ <;> exact ⟨_, _, rfl, nofun, nofun⟩

/-- Takes the tokens of a value off the front and makes `a` of them. -/
def Decoder.Reads {α : Type} (d : Decoder α) (v : Value) (a : α) : Prop :=
  ∀ rest, d (v.tokens ++ rest) = .ok (a, rest)

namespace Decoder

variable {α β : Type} {d : Decoder α} {v : Value} {a : α}

/-! ## Single values -/

/-- What a decoder makes of a value may be mapped. -/
theorem Reads.map (reads : d.Reads v a) (f : α → β) : (d.map f).Reads v (f a) := by
  intro rest
  simp [Decoder.map, reads rest, Except.map]

/-- A string is read as it is. -/
theorem reads_text (s : String) : text.Reads (.string s) s := fun _ => rfl

/-- An integer is read when it lies in the range of the decoder. -/
theorem reads_integer {lo hi i : Int} (above : lo ≤ i) (below : i ≤ hi) :
    (integer lo hi).Reads (.int i) i :=
  fun _ => if_pos ⟨above, below⟩

theorem reads_word16 (n : UInt16) : word16.Reads (.nat n.toNat) n := by
  have bound : n.toNat < UInt16.size := n.toNat_lt
  have reads : (integer 0 (UInt16.size - 1)).Reads (.int n.toNat) n.toNat :=
    reads_integer (by omega) (by omega)
  have read := reads.map fun i => UInt16.ofNat i.toNat
  simp only [Int.toNat_natCast, UInt16.ofNat_toNat] at read
  exact read

theorem reads_word32 (n : UInt32) : word32.Reads (.nat n.toNat) n := by
  have bound : n.toNat < UInt32.size := n.toNat_lt
  have reads : (integer 0 (UInt32.size - 1)).Reads (.int n.toNat) n.toNat :=
    reads_integer (by omega) (by omega)
  have read := reads.map fun i => UInt32.ofNat i.toNat
  simp only [Int.toNat_natCast, UInt32.ofNat_toNat] at read
  exact read

theorem reads_word64 (n : UInt64) : word64.Reads (.nat n.toNat) n := by
  have bound : n.toNat < UInt64.size := n.toNat_lt
  have reads : (integer 0 (UInt64.size - 1)).Reads (.int n.toNat) n.toNat :=
    reads_integer (by omega) (by omega)
  have read := reads.map fun i => UInt64.ofNat i.toNat
  simp only [Int.toNat_natCast, UInt64.ofNat_toNat] at read
  exact read

/-- An integer that fits 64 bits, sign included, is read as such a word. -/
theorem reads_int64 {i : Int} (above : Int64.minValue.toInt ≤ i)
    (below : i ≤ Int64.maxValue.toInt) :
    int64.Reads (.int i) (Int64.ofInt i) :=
  (reads_integer above below).map Int64.ofInt

/-- Every signed word of 64 bits is read back from its integer. -/
theorem reads_int64_toInt (x : Int64) : int64.Reads (.int x.toInt) x := by
  have reads := reads_int64 (Int64.minValue_le_toInt x) (Int64.toInt_le x)
  rwa [Int64.ofInt_toInt] at reads

/-- Where null may stand too, a value that is not null is read as something: its first token is not
    the one that null begins with. -/
theorem Reads.nullable (reads : d.Reads v a) (some_value : v ≠ .null) :
    d.nullable.Reads v (some a) := by
  intro rest
  have mapped := reads.map some rest
  obtain ⟨t, ts, begins, -, null⟩ := v.tokens_begin
  have not_null : t ≠ .null := fun eq => some_value (null eq)
  rw [begins] at mapped ⊢
  cases t <;> first | exact mapped | exact absurd rfl not_null

/-! ## Arrays -/

/-- The further elements of an array are read one after the other, given a unit of fuel for each. -/
theorem moreItems_of_reads {vs : List Value} {as : List α} (reads : List.Forall₂ d.Reads vs as)
    {fuel : Nat} (enough : vs.length ≤ fuel) (rest : List Token) :
    moreItems d fuel (Value.itemTokens vs ++ rest) = .ok (as, rest) := by
  induction reads generalizing fuel with
  | nil => cases fuel <;> rfl
  | @cons v a vs as reads _ ih =>
    obtain _ | fuel := fuel
    · exact absurd enough (by simp)
    · rw [Value.itemTokens, List.cons_append, List.append_assoc, moreItems, reads]
      simp [ih (Nat.le_of_succ_le_succ enough), Except.map]

/-- Every element has a token at least, so the fuel that the tokens give is enough. -/
theorem length_itemTokens (vs : List Value) : vs.length ≤ (Value.itemTokens vs).length := by
  induction vs with
  | nil => simp
  | cons v vs ih =>
    simp only [Value.itemTokens, List.length_cons, List.length_append]
    omega

/-- An array that does not end at once begins with an element. -/
theorem list_openBracket {t : Token} {ts r r' : List Token} {as : List α}
    (goes_on : t ≠ .closeBracket) (first : d (t :: ts) = .ok (a, r))
    (others : moreItems d r.length r = .ok (as, r')) :
    d.list (.openBracket :: t :: ts) = .ok (a :: as, r') := by
  rw [list, first]
  · simp only [others, Except.map]
  · rintro r ⟨⟩
    exact goes_on rfl

/-- An array is read element by element. -/
theorem reads_list {vs : List Value} {as : List α} (reads : List.Forall₂ d.Reads vs as) :
    d.list.Reads (.array vs) as := by
  intro rest
  cases reads with
  | nil => rfl
  | @cons v a vs as first others =>
    have reads := first (Value.itemTokens vs ++ rest)
    have enough : vs.length ≤ (Value.itemTokens vs ++ rest).length := by
      rw [List.length_append]
      exact Nat.le_add_right_of_le (length_itemTokens vs)
    -- the first token of the array tells whether it is empty, so the first element is taken apart
    obtain ⟨t, ts, begins, goes_on, -⟩ := v.tokens_begin
    rw [begins, List.cons_append] at reads
    rw [Value.tokens, List.cons_append, List.append_assoc, begins, List.cons_append]
    exact list_openBracket goes_on reads (moreItems_of_reads others enough rest)

end Decoder

/-! ## Objects -/

section Objects

variable {σ α : Type} {onMember : String → σ → Decoder σ}

/-- The members lead from one state to another, each reading its value after the colon.  What a
    record does with its members one by one is said here without the tokens between them. -/
inductive Gathers (onMember : String → σ → Decoder σ) : σ → List (String × Value) → σ → Prop
  | nil {s : σ} : Gathers onMember s [] s
  | cons {s t u : σ} {k : String} {v : Value} {ms : List (String × Value)}
      (first : ∀ rest, onMember k s (.colon :: (v.tokens ++ rest)) = .ok (t, rest))
      (others : Gathers onMember t ms u) : Gathers onMember s ((k, v) :: ms) u

namespace Gathers

theorem append {s t u : σ} {ms ns : List (String × Value)} (first : Gathers onMember s ms t)
    (second : Gathers onMember t ns u) : Gathers onMember s (ms ++ ns) u := by
  induction first with
  | nil => exact second
  | cons reads _ ih => exact .cons reads (ih second)

/-- The members of an object with at least one. -/
theorem membersFrom {s t u : σ} {k : String} {v : Value} {ms : List (String × Value)}
    (first : ∀ rest, onMember k s (.colon :: (v.tokens ++ rest)) = .ok (t, rest))
    (others : Gathers onMember t ms u) {fuel : Nat} (enough : ms.length < fuel)
    (rest : List Token) :
    Json.membersFrom onMember fuel s
        (.string (some k) :: .colon :: (v.tokens ++ (Value.memberTokens ms ++ rest)))
      = .ok (u, rest) := by
  -- on the members that follow; the key, the state and the fuel go along with the member in hand
  induction others generalizing k v s fuel with
  | nil =>
    obtain _ | fuel := fuel
    · exact absurd enough (by simp)
    · simp [Json.membersFrom, first, Value.memberTokens]
  | @cons _ _ _ k' v' ms reads _ ih =>
    obtain _ | fuel := fuel
    · exact absurd enough (by simp)
    · have goes_on := @ih _ _ _ reads fuel (by simpa using enough)
      simpa [Json.membersFrom, first, Value.memberTokens] using goes_on

/-- Every member has a token at least. -/
theorem length_memberTokens (ms : List (String × Value)) :
    ms.length ≤ (Value.memberTokens ms).length := by
  induction ms with
  | nil => simp
  | cons m ms ih =>
    simp only [Value.memberTokens, List.length_cons, List.length_append]
    omega

/-- The members of a whole object, whose first is told from an empty object by its key. -/
theorem object {s t : σ} {ms : List (String × Value)} (gathers : Gathers onMember s ms t)
    (rest : List Token) :
    ∃ inner, (Value.object ms).tokens ++ rest = .openBrace :: inner
      ∧ Decoder.object onMember s inner = .ok (t, rest) := by
  cases gathers with
  | nil => exact ⟨.closeBrace :: rest, rfl, rfl⟩
  | @cons _ _ _ k v ms first others =>
    refine ⟨.string (some k) :: .colon :: (v.tokens ++ (Value.memberTokens ms ++ rest)),
      by simp [Value.tokens], ?_⟩
    refine others.membersFrom first ?_ rest
    have := length_memberTokens ms
    simp only [List.length_cons, List.length_append]
    omega

end Gathers

namespace Decoder

/-- A record whose members gather a draft that closes. -/
theorem reads_record {fields : List (Field σ)} {least : Nat} {blank draft : σ}
    {close : σ → Option α} {ms : List (String × Value)} {a : α}
    (gathers : Gathers (readMember fields) blank ms draft) (closes : close draft = some a) :
    (record fields least blank close).Reads (.object ms) a := by
  intro rest
  obtain ⟨inner, tokens, reads⟩ := gathers.object rest
  rw [tokens]
  simp [record, reads, closes]

end Decoder

/-- A field that is not set yet is set to what its decoder reads. -/
theorem Gathers.field {β : Type} {fields : List (Field σ)} {k : String} {get : σ → Option β}
    {put : σ → β → σ} {d : Decoder β} {s t : σ} {v : Value} {b : β} {ms : List (String × Value)}
    (found : fields.find? (·.key == k) = some (.of k get put d)) (unset : get s = none)
    (reads : d.Reads v b) (others : Gathers (readMember fields) (put s b) ms t) :
    Gathers (readMember fields) s ((k, v) :: ms) t := by
  refine .cons (fun rest => ?_) others
  simp [readMember, found, Field.of, unset, Decoder.afterColon, reads rest, Except.map]

/-! ## Dictionaries -/

namespace Decoder

/-- Entries with distinct keys are read as they are. -/
theorem reads_dictionary {d : Decoder α} {entries : List (String × Value × α)}
    (distinct : (entries.map (·.1)).Nodup) (reads : ∀ e ∈ entries, d.Reads e.2.1 e.2.2) :
    d.dictionary.Reads (.object (entries.map fun e => (e.1, e.2.1)))
      (entries.map fun e => (e.1, e.2.2)) := by
  let entry (k : String) (s : List (String × α)) : Decoder (List (String × α)) := fun ts =>
    (afterColon d ts).map fun p => (s.filter (·.1 != k) ++ [(k, p.1)], p.2)
  -- the keys read so far are none of those to come
  have gathers : ∀ (entries : List (String × Value × α)) (s : List (String × α)),
      (s.map (·.1) ++ entries.map (·.1)).Nodup → (∀ e ∈ entries, d.Reads e.2.1 e.2.2) →
      Gathers entry s (entries.map fun e => (e.1, e.2.1))
        (s ++ entries.map fun e => (e.1, e.2.2)) := by
    intro entries
    induction entries with
    | nil =>
      intro s _ _
      rw [List.map_nil, List.map_nil, List.append_nil]
      exact .nil
    | cons e entries ih =>
      intro s distinct reads
      obtain ⟨k, v, a⟩ := e
      have fresh : s.filter (·.1 != k) = s := by
        refine List.filter_eq_self.2 fun p hp => ?_
        have apart := (List.nodup_append.1 distinct).2.2 p.1 (List.mem_map_of_mem hp) k (by simp)
        simpa using apart
      refine .cons (t := s ++ [(k, a)]) (fun rest => ?_) ?_
      · simp [entry, afterColon, reads (k, v, a) (.head _) rest, Except.map, fresh]
      · have others := ih (s ++ [(k, a)]) (by simpa using distinct)
          fun e he => reads e (.tail _ he)
        simpa using others
  intro rest
  obtain ⟨inner, tokens, read⟩ := (gathers entries [] (by simpa using distinct) reads).object rest
  rw [tokens]
  exact read

end Decoder

end Objects

/-! ## Whole texts -/

section Texts

variable {α : Type} {d : Decoder α} {v : Value} {a : α}

/-- What reads a value decodes its text: the tokens come back and none is left over. -/
theorem decode_compact (h : v.Exact) (reads : d.Reads v a) :
    decode d (Octets.ofText v.compact) = .ok a := by
  have whole := reads []
  rw [List.append_nil] at whole
  simp [decode, Value.tokens_compact h, whole]

/-- So does a decoder that does not look at what follows the value. -/
theorem decodeHead_compact (h : v.Exact) (reads : d.Reads v a) :
    decodeHead d (Octets.ofText v.compact) = .ok a := by
  have whole := reads []
  rw [List.append_nil] at whole
  simp [decodeHead, Value.tokens_compact h, whole, Except.map]

end Texts

end ServiceRegistry.Json
