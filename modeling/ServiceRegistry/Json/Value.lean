/-
  JSON values.

  A value is written as its token sequence; compact text has no blanks, indented text puts each
  member and element on a line of its own, two spaces deeper than its container.

    * `Value.tokens`    the token sequence of a value;
    * `Value.compact`, `Value.indented`   its texts;
    * `Value.sorted`    the same value with the members of every object ordered by key, the last of
                        several equal keys kept.
-/
import ServiceRegistry.Json.Token

namespace ServiceRegistry.Json

/-- A JSON value; an object keeps its members in order. -/
inductive Value
  | null
  | bool (b : Bool)
  | number (n : Number)
  | string (s : String)
  | array (items : List Value)
  | object (members : List (String × Value))
  deriving Repr

namespace Value

/-- An integer. -/
def int (i : Int) : Value := .number (.int i)

/-- A natural number. -/
def nat (n : Nat) : Value := .int n

/-- The value inside, or null. -/
def orNull : Option Value → Value
  | some v => v
  | none => .null

/-! ## Tokens -/

mutual

/-- The token sequence of a value. -/
def tokens : Value → List Token
  | .null => [.null]
  | .bool b => [.bool b]
  | .number n => [.number (some n)]
  | .string s => [.string (some s)]
  | .array [] => [.openBracket, .closeBracket]
  | .array (v :: vs) => .openBracket :: (tokens v ++ itemTokens vs)
  | .object [] => [.openBrace, .closeBrace]
  | .object ((k, v) :: ms) =>
    .openBrace :: .string (some k) :: .colon :: (tokens v ++ memberTokens ms)

/-- The elements after the first, and the closing bracket. -/
def itemTokens : List Value → List Token
  | [] => [.closeBracket]
  | v :: vs => .comma :: (tokens v ++ itemTokens vs)

/-- The members after the first, and the closing brace. -/
def memberTokens : List (String × Value) → List Token
  | [] => [.closeBrace]
  | (k, v) :: ms => .comma :: .string (some k) :: .colon :: (tokens v ++ memberTokens ms)

end

/-- The text of a value without blanks. -/
def compact (v : Value) : List Char := render v.tokens

/-! ## Indented text -/

/-- A line break and the indentation of a depth. -/
def lineBreak (depth : Nat) : List Char := '\n' :: List.replicate (2 * depth) ' '

mutual

/-- The indented text of a value that stands at a depth. -/
def indentedAt (depth : Nat) : Value → List Char
  | .array [] => ['[', ']']
  | .array (v :: vs) =>
    '[' :: (lineBreak (depth + 1) ++ indentedAt (depth + 1) v ++ itemsAt depth vs)
  | .object [] => ['\x7b', '\x7d']
  | .object ((k, v) :: ms) =>
    '\x7b' :: (lineBreak (depth + 1) ++ quoted k ++ [':', ' '] ++ indentedAt (depth + 1) v
      ++ membersAt depth ms)
  | .null => "null".toList
  | .bool true => "true".toList
  | .bool false => "false".toList
  | .number n => n.text
  | .string s => quoted s

/-- The elements after the first, and the closing bracket. -/
def itemsAt (depth : Nat) : List Value → List Char
  | [] => lineBreak depth ++ [']']
  | v :: vs => ',' :: (lineBreak (depth + 1) ++ indentedAt (depth + 1) v ++ itemsAt depth vs)

/-- The members after the first, and the closing brace. -/
def membersAt (depth : Nat) : List (String × Value) → List Char
  | [] => lineBreak depth ++ ['\x7d']
  | (k, v) :: ms =>
    ',' :: (lineBreak (depth + 1) ++ quoted k ++ [':', ' '] ++ indentedAt (depth + 1) v
      ++ membersAt depth ms)

end

/-- The indented text of a value. -/
def indented (v : Value) : List Char := indentedAt 0 v

/-! ## Members -/

/-- Puts a member into a list ordered by key, in place of one with the same key. -/
def place (k : String) (v : Value) : List (String × Value) → List (String × Value)
  | [] => [(k, v)]
  | (k', v') :: ms =>
    if k = k' then (k, v) :: ms
    else if k < k' then (k, v) :: (k', v') :: ms
    else (k', v') :: place k v ms

mutual

/-- The same value with the members of every object ordered by key. -/
def sorted : Value → Value
  | .array vs => .array (sortedItems vs)
  | .object ms => .object ((sortedMembers ms).foldl (fun acc m => place m.1 m.2 acc) [])
  | v => v

/-- Sorts within each element. -/
def sortedItems : List Value → List Value
  | [] => []
  | v :: vs => sorted v :: sortedItems vs

/-- Sorts within each member. -/
def sortedMembers : List (String × Value) → List (String × Value)
  | [] => []
  | (k, v) :: ms => (k, sorted v) :: sortedMembers ms

end

/-- The member of an object with this key. -/
def get? (v : Value) (key : String) : Option Value :=
  match v with
  | .object ms => (ms.find? (·.1 == key)).map (·.2)
  | _ => none

end Value

end ServiceRegistry.Json
