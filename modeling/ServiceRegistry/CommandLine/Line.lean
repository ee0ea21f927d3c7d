/-
  Requests and answers as lines of text.

  A line holds a method, a target and a JSON body, with blanks between them; the target and the body
  may be missing.  An answer is a line with its status and its body.

    * `requestOfLine`, `lineOfResponse`.
-/
import ServiceRegistry.Http.Status
import ServiceRegistry.Http.Message
import ServiceRegistry.Text.Blank

namespace ServiceRegistry

open Text

/-- The request that a line holds. -/
def requestOfLine (line : String) : Http.Request :=
  let (method, rest) := cut ' ' (trim line.toList)
  let (target, body) := cut ' ' ((rest.getD []).dropWhile isBlank)
  { method := String.ofList method
    target := String.ofList target
    headers := if body.isSome then [("content-type", Http.Response.jsonType)] else []
    body := Octets.ofText (body.getD []) }

/-- An answer as a line. -/
def lineOfResponse (r : Http.Response) : String :=
  let body := (Octets.toText? r.body.octets).getD []
  Http.statusText r.status ++ ": " ++ String.ofList body

end ServiceRegistry
