/-
  Command lines.

  An option is a long name and a value, as two words or joined by an equals sign.  The second word
  must not look like an option itself; the joined value may be anything.  An option may be given
  once, unless it is one that gathers.  After two dashes alone no option may follow.

  A word is judged when it is read, but the value of an option only when the next option follows or
  the end: help that is asked for right after a value that does not fit is refused, and help on a
  command is given whatever the options in front of it are worth.

    * `Options.Context.take`   reads options up to a word that stops it;
    * `Options.parsed`         the options of a command, up to the end;
    * `Parsed`                 what a command line comes to;
    * `Parsed.orExit`          a program that is not run exits at once.
-/
import ServiceRegistry.CommandLine.Help
import ServiceRegistry.Text.Decimal
import ServiceRegistry.Text.Pieces

namespace ServiceRegistry

open Text

/-- What a command line comes to. -/
inductive Parsed (α : Type)
  | run (a : α)
  | version
  /-- Help on a command, or on the program. -/
  | help (command : Option String)
  /-- It is not understood. -/
  | usage
  deriving DecidableEq, Repr

/-- What a program prints, and its exit code. -/
structure Exit where
  code : Nat
  output : String := ""
  error : Option String := none
  deriving DecidableEq, Repr

/-- The pages of a program: for the program itself, and for its commands. -/
abbrev HelpPages := Option String → Option HelpPage

namespace Parsed

/-- Applies a function to what is run. -/
def map {α β : Type} (f : α → β) : Parsed α → Parsed β
  | run a => run (f a)
  | version => version
  | help command => help command
  | usage => usage

/-- What the words after the command for help come to. -/
def helpOn {α : Type} (pages : HelpPages) (words : List String) : Parsed α :=
  match words with
  | [] => help none
  | [command] => if (pages (some command)).isSome then help (some command) else usage
  | _ => usage

/-- What is run, or how the program exits when nothing is. -/
def orExit {α : Type} (versionText : String) (pages : HelpPages) : Parsed α → α ⊕ Exit
  | run a => .inl a
  | version => .inr { code := 0, output := versionText }
  | help command => .inr { code := 0, output := ((pages command).map HelpPage.text).getD "" }
  | usage => .inr { code := 2 }

end Parsed

namespace Options

/-- An option: its name without the dashes, which values it takes, whether it may be repeated. -/
structure Known where
  name : String
  accepts : String → Bool := fun _ => true
  gathers : Bool := false

/-- The words that options are read among. -/
structure Context where
  options : List Known := []
  commands : List String := []
  /-- Whether the version may be asked for. -/
  versioned : Bool := false

/-- The values read so far, with the latest first. -/
abbrev Values := List (String × String)

/-- What is read so far.  The last option is looked at only when another one or the end follows. -/
structure Reading where
  values : Values := []
  /-- The last option, with its value once that is there. -/
  last : Option (Known × Option String) := none
  /-- Whether two dashes have closed the options. -/
  closed : Bool := false

namespace Reading

/-- The values with that of an option, if it takes it and may be given again. -/
def admitted (r : Reading) (o : Known) (v : String) : Option Values :=
  if !o.accepts v || (!o.gathers && r.values.any (·.1 = o.name)) then none
  else some ((o.name, v) :: r.values)

/-- The values with that of the last option, which must have one. -/
def settled (r : Reading) : Option Values :=
  match r.last with
  | none => some r.values
  | some (o, some v) => r.admitted o v
  | some (_, none) => none

/-- Whether the next word is the value of the last option. -/
def awaits (r : Reading) : Bool := r.last.any (·.2.isNone)

end Reading

/-! ## Words -/

/-- A word that may be an option. -/
inductive Word
  /-- Two dashes alone. -/
  | close
  /-- A long option and, if they are joined, its value. -/
  | long (name : String) (value : Option String)
  /-- Short options behind one dash. -/
  | short (c : Char)
  | plain
  deriving DecidableEq, Repr

/-- What a word is. -/
def Word.of (word : String) : Word :=
  match word.toList with
  | ['-', '-'] => .close
  | '-' :: '-' :: cs =>
    let (name, value) := cut '=' cs
    .long (String.ofList name) (value.map String.ofList)
  | '-' :: c :: _ => .short c
  | _ => .plain

/-- What stops the reading of options. -/
inductive Stop
  /-- The words are used up. -/
  | finished
  /-- A command, and the words after it. -/
  | command (w : String) (rest : List String)
  | version
  | help
  | usage
  deriving DecidableEq, Repr

/-- What a request for help or for the version comes to: the last option is looked at first. -/
def Reading.asking (r : Reading) (stop : Stop) : Stop := if r.settled.isSome then stop else .usage

/-- What a word means that does not stand for the value of an option: what is read then, or what
    stops the reading. -/
def Context.pass (c : Context) (r : Reading) (w : String) (rest : List String) :
    Reading ⊕ Stop :=
  if r.closed then .inr .usage
  else if c.commands.contains w then .inr (.command w rest)
  else match Word.of w with
    | .close => .inl { r with closed := true }
    | .long "help" none => .inr (r.asking .help)
    | .short 'h' => .inr (r.asking .help)
    | .long name value =>
      if name = "version" && value.isNone && c.versioned then .inr (r.asking .version)
      else match c.options.find? (·.name = name), r.settled, value with
        | some o, some values, none => .inl { values, last := some (o, none) }
        | some o, some values, some v =>
          match ({ values } : Reading).admitted o v with
          | some values => .inl { values }
          | none => .inr .usage
        | _, _, _ => .inr .usage
    | .short s => .inr (if s = 'V' && c.versioned then r.asking .version else .usage)
    | .plain => .inr .usage

/-- Reads words up to the first that stops it. -/
def Context.take (c : Context) : Reading → List String → Reading × Stop
  | r, [] => (r, .finished)
  | r, w :: ws =>
    if r.awaits then
      -- The value of an option, whatever it says, unless it looks like an option.
      if Word.of w = .plain then
        c.take { r with last := r.last.map fun (o, _) => (o, some w) } ws
      else (r, .usage)
    else match c.pass r w ws with
      | .inl r => c.take r ws
      | .inr stop => (r, stop)

/-- The value of an option. -/
def Values.get? (read : Values) (name : String) : Option String :=
  (read.find? (·.1 = name)).map (·.2)

/-- The values of an option that gathers, in order. -/
def Values.all (read : Values) (name : String) : List String :=
  ((read.filter (·.1 = name)).map (·.2)).reverse

/-- A number of at most `max` as an option gives it. -/
def number? (max : Nat) (value : String) : Option Nat :=
  (integer? 0 max value.toList).map Int.toNat

/-- Whether a value is a number of at most `max`. -/
def isNumber (max : Nat) (value : String) : Bool := (number? max value).isSome

/-- What a command's words come to, given what its options make. -/
def parsed {α : Type} (command : String) (options : List Known) (words : List String)
    (make : Values → Option α) : Parsed α :=
  match ({ options } : Context).take {} words with
  | (r, .finished) => ((r.settled.bind make).map .run).getD .usage
  | (_, .help) => .help (some command)
  | _ => .usage

end Options

end ServiceRegistry
