/-
  Folded lines of YAML.

  In a scalar that goes on over several lines, blanks around the ends of lines do not count, one end
  of a line is read as a space, and of several the first does not count.

    * `Folding`         a text, and the blanks and ends of lines after it;
    * `Folding.joined`  what they amount to when more text follows.
-/
import ServiceRegistry.Settings.Yaml.Cursor

namespace ServiceRegistry.Yaml

/-- The text of a scalar, and what was read since. -/
structure Folding where
  text : List Char := []
  /-- The blanks on the last line. -/
  blanks : List Char := []
  /-- Whether a line has ended that counts. -/
  hasBroken : Bool := false
  /-- How many more lines have ended. -/
  breaks : Nat := 0
  deriving DecidableEq, Repr

namespace Folding

/-- Ends of lines. -/
def newlines (n : Nat) : List Char := List.replicate n '\n'

/-- The text when more follows; `isBroken` says whether that stands on another line. -/
def joined (isBroken : Bool) (f : Folding) : List Char :=
  if isBroken then
    f.text ++ if f.hasBroken && f.breaks = 0 then [' '] else newlines f.breaks
  else f.text ++ f.blanks

/-- A first end of a line. -/
def broken (f : Folding) : Folding := { f with blanks := [], hasBroken := true }

/-- One more end of a line. -/
def brokenAgain (f : Folding) : Folding := { f with breaks := f.breaks + 1 }

end Folding

end ServiceRegistry.Yaml
