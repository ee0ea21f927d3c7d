/-
  Media types.

  A media type is a type and a subtype, each a token, and perhaps parameters after semicolons.  A
  subtype may end in a suffix after its last plus sign.  Bodies are taken for JSON when the type is
  `application` and the subtype or its suffix is `json`, in any case of letters; a value that is no
  well-formed media type is none.

    * `isJson`   decides it from the value of the header.
-/
import ServiceRegistry.Text.Pieces

namespace ServiceRegistry.Http

open ServiceRegistry.Text

/-- The characters of a token. -/
def isTokenChar (c : Char) : Bool := c.isAlphanum || "!#$%&'*+-.^_\x60|~".toList.contains c

/-- A token: at least one character, all of them token characters. -/
def isToken (cs : List Char) : Bool := !cs.isEmpty && cs.all isTokenChar

/-- Whether a character may stand inside quotes. -/
def isQuotable (c : Char) : Bool := 0x20 ≤ c.toNat && c.toNat < 0x7F

/-- What follows the opening quote of a quoted value, up to the parameter after it.  The value has
    at least one character, which may be a quote; a backslash is a character like any other. -/
def afterQuote : List Char → Option (List Char)
  | [] => none
  | c :: r =>
    match isQuotable c, r.dropWhile fun c => isQuotable c && c ≠ '"' with
    | true, '"' :: r =>
      match r.dropWhile (· = ' ') with
      | [] => some []
      | ';' :: r => some r
      | _ => none
    | _, _ => none

/-- What follows the value of a parameter; only at the end may it be empty. -/
def afterValue : List Char → Option (List Char)
  | '"' :: r => afterQuote r
  | cs =>
    match cs.dropWhile isTokenChar with
    | [] => some []
    | ';' :: r => if cs.head? = some ';' then none else some r
    | _ => none

/-- Whether the rest of a media type after its first semicolon is a list of parameters.  `fuel`
    bounds their number; the length of the text is enough. -/
def parametersOk : Nat → List Char → Bool
  | 0, cs => cs.isEmpty
  | fuel + 1, cs =>
    match cs.dropWhile (· = ' ') with
    | [] => true
    | cs =>
      let name := cs.takeWhile isTokenChar
      match name.isEmpty, cs.dropWhile isTokenChar with
      | false, '=' :: value =>
        match afterValue value with
        | some rest => parametersOk fuel rest
        | none => false
      | _, _ => false

/-- The subtype without its suffix, and the suffix after the last plus sign.  A plus sign in front
    is part of the name. -/
def splitSuffix (subtype : List Char) : List Char × Option (List Char) :=
  let suffix := (subtype.reverse.takeWhile (· ≠ '+')).reverse
  let front := subtype.length - suffix.length - 1
  if front = 0 then (subtype, none) else (subtype.take front, some suffix)

/-- Whether the value of a content-type header says JSON. -/
def isJson (value : List Char) : Bool :=
  match cut '/' value with
  | (kind, some rest) =>
    let subtype := rest.takeWhile isTokenChar
    let after := rest.dropWhile isTokenChar
    let wellFormed := isToken kind && isToken subtype && match after with
      | [] => true
      | ';' :: params => parametersOk value.length params
      | _ => false
    let (name, suffix) := splitSuffix (subtype.map Char.toLower)
    wellFormed && kind.map Char.toLower = "application".toList
      && (name = "json".toList || suffix = some "json".toList)
  | _ => false

end ServiceRegistry.Http
