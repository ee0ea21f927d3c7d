/-
  The nodes of a YAML text.

  A node is a scalar, a list or a table.  A node with an anchor can be named again by an alias, but
  not inside itself.  In a table no scalar is the key of two values.  A key that is not what its tag
  says does not count: the node after it is a key then.

    * `Node.take`          takes a node off tokens;
    * `Node.tableOf?`      a table of keys and values;
    * `Node.documents?`    the node of the only document of a text, if there is one;
    * `Node.setting?`      a node as a setting.
-/
import ServiceRegistry.Settings.Yaml.Scalar
import ServiceRegistry.Settings.Yaml.Token

namespace ServiceRegistry.Yaml

/-- A node. -/
inductive Node
  | scalar (s : Scalar)
  | list (items : List Node)
  | table (members : List (Node × Node))
  deriving Repr

/-! ## Tables -/

/-- Whether a node is a scalar that is not what its tag says. -/
def Node.isBad : Node → Bool
  | .scalar .bad => true
  | _ => false

/-- Whether two keys are the same scalar. -/
def Node.isSameKey : Node → Node → Bool
  | .scalar a, .scalar b => a = b
  | _, _ => false

/-- The members of a table, given those before and the key that waits for its value. -/
def Node.membersOf? (members : List (Node × Node)) :
    Option Node → List Node → Option (List (Node × Node))
  | _, [] => some members
  | none, n :: ns => membersOf? members (if n.isBad then none else some n) ns
  | some k, n :: ns =>
    if members.any fun m => m.1.isSameKey k then none
    else membersOf? (members ++ [(k, n)]) none ns

/-- A table of keys and values that follow one another. -/
def Node.tableOf? (ns : List Node) : Option Node := (membersOf? [] none ns).map .table

/-! ## Sources -/

/-- The tokens that are left, the anchors, and what handles of tags stand for. -/
structure Source where
  tokens : List Token
  /-- Which node an anchor is for; the latest one counts. -/
  anchors : List (String × Nat) := []
  /-- The nodes that are complete. -/
  nodes : List (Nat × Node) := []
  handles : List (String × String) := []

/-- Something that takes tokens. -/
abbrev Taking := StateT Source Option

namespace Taking

/-- The next token. -/
def peek : Taking Token := do return (← get).tokens.head?.getD .textEnd

/-- Passes over a token. -/
def skip : Taking Unit := modify fun s => { s with tokens := s.tokens.drop 1 }

/-- Gives an anchor to the node that comes. -/
def anchor (name : String) : Taking Nat := do
  let n := (← get).anchors.length
  modify fun s => { s with anchors := (name, n) :: s.anchors }
  return n

/-- The node that an alias is for; an unfinished one is not what it should be. -/
def named (name : String) : Taking Node := do
  let s ← get
  let n ← s.anchors.lookup name
  return (s.nodes.lookup n).getD (.scalar .bad)

/-- Remembers the node of an anchor. -/
def remember (anchor : Option Nat) (node : Node) : Taking Node := do
  match anchor with
  | some n => modify fun s => { s with nodes := (n, node) :: s.nodes }
  | none => pure ()
  return node

/-- The full form of a tag. -/
def resolve (handle suffix : String) : Taking (String × String) := do
  let handles := (← get).handles
  match handles.lookup handle with
  | some meaning => return (meaning, suffix)
  | none =>
    if handle = "!!" then return (Scalar.coreHandle, suffix)
    else if 2 ≤ handle.length && handle.toList.getLast? = some '!' then failure
    else return (handle, suffix)

/-- Takes an anchor, a tag or both. -/
def properties : Taking (Option Nat × Option (String × String)) := do
  match ← peek with
  | .anchor name =>
    skip
    let n ← anchor name
    match ← peek with
    | .tag handle suffix => skip; return (some n, some (← resolve handle suffix))
    | _ => return (some n, none)
  | .tag handle suffix =>
    skip
    let tag ← resolve handle suffix
    match ← peek with
    | .anchor name => skip; return (some (← anchor name), some tag)
    | _ => return (none, some tag)
  | _ => return (none, none)

end Taking

/-! ## Nodes -/

namespace Node

open Taking

/-- The node that is not written. -/
def empty : Node := .scalar .null

/-- The node of a scalar. -/
def ofText (isPlain : Bool) (tag : Option (String × String)) (cs : List Char) : Node :=
  .scalar <|
    if !isPlain then .text cs
    else match tag with
      | some (handle, suffix) => .ofTagged handle suffix cs
      | none => .ofPlain cs

mutual

/-- Takes a node; in a block it may be a list or a table without brackets, and in a table such a
    list even without a token for its start. -/
def take : Nat → (inBlock inTable : Bool) → Taking Node
  | 0, _, _ => failure
  | fuel + 1, inBlock, inTable => do
    match ← peek with
    | .alias name => skip; named name
    | _ =>
      let (anchor, tag) ← properties
      let node ← match ← peek with
        | .scalar isPlain cs => do skip; pure (ofText isPlain tag cs)
        | .openList => do skip; pure (.list (← items fuel true))
        | .openTable => do skip; (tableOf? (← members fuel true) : Option Node)
        | .dash =>
          if inTable then do pure (.list (← looseItems fuel))
          else if anchor.isSome || tag.isSome then pure (ofText true tag []) else failure
        | .blockList =>
          if inBlock then do skip; pure (.list (← blockItems fuel))
          else if anchor.isSome || tag.isSome then pure (ofText true tag []) else failure
        | .blockTable =>
          if inBlock then do skip; (tableOf? (← blockMembers fuel) : Option Node)
          else if anchor.isSome || tag.isSome then pure (ofText true tag []) else failure
        | _ => if anchor.isSome || tag.isSome then pure (ofText true tag []) else failure
      remember anchor node

/-- Takes a node, or the one that is not written when one of these tokens follows. -/
def takeUnless (stops : List Token) : Nat → (inBlock inTable : Bool) → Taking Node
  | 0, _, _ => failure
  | fuel + 1, inBlock, inTable => do
    if stops.contains (← peek) then return empty else take fuel inBlock inTable

/-- Takes the items of a list without brackets. -/
def blockItems : Nat → Taking (List Node)
  | 0 => failure
  | fuel + 1 => do
    match ← peek with
    | .blockEnd => skip; return []
    | .dash =>
      skip
      let item ← takeUnless [.dash, .blockEnd] fuel true false
      return item :: (← blockItems fuel)
    | _ => failure

/-- Takes the items of a list that starts where its table does, up to what is no item. -/
def looseItems : Nat → Taking (List Node)
  | 0 => failure
  | fuel + 1 => do
    match ← peek with
    | .dash =>
      skip
      let item ← takeUnless [.dash, .key, .value, .blockEnd] fuel true false
      return item :: (← looseItems fuel)
    | _ => return []

/-- Takes the keys and values of a table without braces. -/
def blockMembers : Nat → Taking (List Node)
  | 0 => failure
  | fuel + 1 => do
    match ← peek with
    | .blockEnd => skip; return []
    | .key =>
      skip
      let key ← takeUnless [.key, .value, .blockEnd] fuel true true
      let value ← valueUnless [.key, .value, .blockEnd] fuel true
      return key :: value :: (← blockMembers fuel)
    | .value =>
      let value ← valueUnless [.key, .value, .blockEnd] fuel true
      return empty :: value :: (← blockMembers fuel)
    | _ => failure

/-- Takes a value with its token, or the one that is not written when the token is missing or one of
    these follows it. -/
def valueUnless (stops : List Token) : Nat → (inBlock : Bool) → Taking Node
  | 0, _ => failure
  | fuel + 1, inBlock => do
    match ← peek with
    | .value => skip; takeUnless stops fuel inBlock inBlock
    | _ => return empty

/-- Takes the items between brackets. -/
def items : Nat → (isFirst : Bool) → Taking (List Node)
  | 0, _ => failure
  | fuel + 1, isFirst => do
    match ← peek with
    | .closeList => skip; return []
    | t =>
      if !isFirst then if t = .comma then skip else failure
      match ← peek with
      | .closeList => skip; return []
      | .key =>
        skip
        let pair ← pair fuel
        return pair :: (← items fuel false)
      | _ =>
        let item ← take fuel false false
        return item :: (← items fuel false)

/-- Takes a table of one key and its value between brackets. -/
def pair : Nat → Taking Node
  | 0 => failure
  | fuel + 1 => do
    -- A token that shows that the key is not written is passed over.
    let isMissing := [Token.value, .comma, .closeList].contains (← peek)
    let key ← if isMissing then do skip; pure empty else take fuel false false
    let value ← valueUnless [.comma, .closeList] fuel false
    (tableOf? [key, value] : Option Node)

/-- Takes the keys and values between braces. -/
def members : Nat → (isFirst : Bool) → Taking (List Node)
  | 0, _ => failure
  | fuel + 1, isFirst => do
    match ← peek with
    | .closeTable => skip; return []
    | t =>
      if !isFirst then if t = .comma then skip else failure
      match ← peek with
      | .closeTable => skip; return []
      | .key =>
        skip
        let key ← takeUnless [.value, .comma, .closeTable] fuel false false
        let value ← valueUnless [.comma, .closeTable] fuel false
        return key :: value :: (← members fuel false)
      | .value =>
        let value ← valueUnless [.comma, .closeTable] fuel false
        return empty :: value :: (← members fuel false)
      | _ =>
        let key ← take fuel false false
        return key :: empty :: (← members fuel false)

end

/-! ## Documents -/

/-- Passes over the lines about the text.  Of the handles only the last line's count; there is one
    version at most. -/
def directives : Nat → (hasVersion : Bool) → Taking Unit
  | 0, _ => pure ()
  | fuel + 1, hasVersion => do
    match ← peek with
    | .version =>
      if hasVersion then failure
      modify fun s => { s with handles := [] }
      skip
      directives fuel true
    | .handle name meaning =>
      modify fun s => { s with handles := [(name, meaning)] }
      skip
      directives fuel hasVersion
    | _ => pure ()

/-- Passes over the ends of documents. -/
def documentEnds : Taking Unit :=
  modify fun s => { s with tokens := s.tokens.dropWhile (· = .documentEnd) }

/-- Whether a token says something about the text or begins a document. -/
def opensDocument : Token → Bool
  | .version => true
  | .handle .. => true
  | .documentStart => true
  | _ => false

/-- Takes the node of a document after the mark of its beginning. -/
def content (fuel : Nat) : Taking Node := do
  let t ← peek
  if opensDocument t || t = .documentEnd || t = .textEnd then return empty else take fuel true false

/-- Takes the only document, if there is one. -/
def document (fuel : Nat) : Taking (Option Node) := do
  documentEnds
  match ← peek with
  | .textEnd => return none
  | t =>
    let node ←
      if opensDocument t then do
        directives fuel false
        if (← peek) = .documentStart then do skip; content fuel else failure
      else take fuel true false
    documentEnds
    if (← peek) = .textEnd then return some node else failure

/-- The node of the only document, if there is one. -/
def document? (tokens : List Token) : Option (Option Node) :=
  ((document (4 * tokens.length + 4)).run { tokens }).map (·.1)

/-! ## Settings -/

/-- A node as the key of a setting. -/
def key? : Node → Option String
  | .scalar s => s.key?
  | _ => none

mutual

/-- A node as a setting. -/
def setting? : Node → Option Setting
  | .scalar s => s.setting?
  | .list ns => (settings? ns).map .list
  | .table ms => (entries? [] ms).map .table

/-- Items as settings. -/
def settings? : List Node → Option (List Setting)
  | [] => some []
  | n :: ns =>
    match setting? n, settings? ns with
    | some v, some vs => some (v :: vs)
    | _, _ => none

/-- Members as settings, given those before; of keys with one text the last one counts. -/
def entries? (done : List (String × Setting)) :
    List (Node × Node) → Option (List (String × Setting))
  | [] => some done
  | (k, n) :: ms =>
    match key? k, setting? n with
    | some k, some v => entries? (Setting.assign k v done) ms
    | _, _ => none

end

end Node

end ServiceRegistry.Yaml
