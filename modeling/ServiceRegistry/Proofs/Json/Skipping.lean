/-
  Members that a reader does not know.

  A record passes over the value of an unknown member, however deep it is nested.

    * `skipFrom_value`   inside any open containers a value is taken whole: what is due after it is
                         the next thing of the innermost container;
    * `skip_tokens`      so a skipped value leaves exactly what follows it;
    * `Gathers.unknown`  and unknown members leave the draft of a record as it is.
-/
import ServiceRegistry.Proofs.Json.Reading

namespace ServiceRegistry.Json

/-- A value is opened by its first token. -/
theorem skipFrom_open (st : List Frame) (t : Token) (ts : List Token) :
    skipFrom st .value (t :: ts) = match opened st t with
      | some (st, due) => skipFrom st due ts
      | none => .error .malformed := by
  rcases st with _ | ⟨f, st⟩
  · rfl
  · cases f <;> rfl

/-- An element comes first just as it comes later. -/
theorem skipFrom_firstItem (st : List Frame) (v : Value) (rest : List Token) :
    skipFrom (.array :: st) .firstItem (v.tokens ++ rest)
      = skipFrom (.array :: st) .value (v.tokens ++ rest) := by
  obtain ⟨t, ts, begins, goes_on, -⟩ := v.tokens_begin
  have same : passed (.array :: st) .firstItem t = passed (.array :: st) .value t := by
    cases t <;> first | rfl | exact absurd rfl goes_on
  rw [begins, List.cons_append, skipFrom, skipFrom, same]
  all_goals
    intros
    contradiction

mutual

/-- A value is taken whole. -/
theorem skipFrom_value (st : List Frame) (v : Value) (rest : List Token) :
    skipFrom st .value (v.tokens ++ rest) = skipFrom st .next rest := by
  match v with
  | .null => exact skipFrom_open st .null rest
  | .bool b => exact skipFrom_open st (.bool b) rest
  | .number n => exact skipFrom_open st (.number (some n)) rest
  | .string s => exact skipFrom_open st (.string (some s)) rest
  | .array [] => exact skipFrom_open st .openBracket (.closeBracket :: rest)
  | .array (v :: vs) =>
    have opens := skipFrom_open st .openBracket (v.tokens ++ (Value.itemTokens vs ++ rest))
    rw [Value.tokens, List.cons_append, List.append_assoc, opens]
    exact (skipFrom_firstItem st v _).trans
      ((skipFrom_value _ v _).trans (skipFrom_items st vs rest))
  | .object [] => exact skipFrom_open st .openBrace (.closeBrace :: rest)
  | .object ((k, v) :: ms) =>
    have opens := skipFrom_open st .openBrace
      (.string (some k) :: .colon :: (v.tokens ++ (Value.memberTokens ms ++ rest)))
    rw [Value.tokens, List.cons_append, List.cons_append, List.cons_append, List.append_assoc,
      opens]
    exact (skipFrom_value (.object :: st) v _).trans (skipFrom_members st ms rest)

/-- So are the elements after the first, with the end of their array, -/
theorem skipFrom_items (st : List Frame) (vs : List Value) (rest : List Token) :
    skipFrom (.array :: st) .next (Value.itemTokens vs ++ rest) = skipFrom st .next rest := by
  match vs with
  | [] => rfl
  | v :: vs =>
    rw [Value.itemTokens, List.cons_append, List.append_assoc]
    exact (skipFrom_value (.array :: st) v _).trans (skipFrom_items st vs rest)

/-- and the members after the first, with the end of their object. -/
theorem skipFrom_members (st : List Frame) (ms : List (String × Value)) (rest : List Token) :
    skipFrom (.object :: st) .next (Value.memberTokens ms ++ rest) = skipFrom st .next rest := by
  match ms with
  | [] => rfl
  | (k, v) :: ms =>
    rw [Value.memberTokens, List.cons_append, List.cons_append, List.cons_append,
      List.append_assoc]
    exact (skipFrom_value (.object :: st) v _).trans (skipFrom_members st ms rest)

end

/-- A skipped value leaves what follows it. -/
@[simp] theorem skip_tokens (v : Value) (rest : List Token) :
    skip (v.tokens ++ rest) = .ok rest := by
  rw [skip, skipFrom_value, skipFrom]

/-- Unknown members change nothing. -/
theorem Gathers.unknown {σ : Type} {fields : List (Field σ)} {ms : List (String × Value)}
    (unknown : ∀ m ∈ ms, fields.find? (·.key == m.1) = none) (s : σ) :
    Gathers (readMember fields) s ms s := by
  induction ms with
  | nil => exact .nil
  | cons m ms ih =>
    obtain ⟨first, others⟩ := List.forall_mem_cons.1 unknown
    refine .cons (fun rest => ?_) (ih others)
    simp [readMember, first, Decoder.afterColon, skip_tokens, Except.map]

end ServiceRegistry.Json
