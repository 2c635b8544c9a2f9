import MuxFlow.Command.Flag
import MuxFlow.Text.Distance
import MuxFlow.Text.LowerCase

/-!
# The command line

A command line is a list of arguments. The first one that is neither a flag nor
the value of a flag names what is to be done; the rest sets flags, in any order
and on either side of the name. `--name value`, `--name=value`, `-n value`,
`-nvalue` and `-n=value` all set a flag, letters of switches can be written
together, and `--` ends the flags.
-/

namespace MuxFlow.Command

/-- What can be asked for by name. -/
inductive Verb where
  | annotate
  | inspect
  | paths
  | explore
  | completion
  | help
  deriving DecidableEq, Repr

namespace Verb

/-- The name of a verb. -/
def name : Verb → String
  | annotate => "annotate"
  | inspect => "inspect"
  | paths => "paths"
  | explore => "explore"
  | completion => "completion"
  | help => "help"

/-- All verbs. -/
def all : List Verb := [annotate, inspect, paths, explore, help, completion]

/-- The verb with a name. -/
def ofName? (s : String) : Option Verb := all.find? fun v => v.name = s

/-- The flags that a verb takes beyond those that all take. -/
def ownFlags : Verb → List Flag
  | annotate => [.output, .config, .includeControl, .workers]
  | inspect | explore => [.includeControl]
  | paths => [.mux]
  | completion | help => []

end Verb

/-- The flags that are known everywhere. -/
def globalFlags : List Flag := [.input, .verbose]

/-! ## Similar names -/

/-- Whether a verb may have been meant by a word: its name begins with the word,
or two changes make one from the other. Case does not count. -/
def resembles (word : String) (v : Verb) : Bool :=
  let word := Text.lower word
  word.toList.isPrefixOf v.name.toList ||
    Text.distance word.toUTF8.toList v.name.toUTF8.toList ≤ 2

/-- The names that may have been meant by a word. Asking for help is never
suggested. -/
def similar (word : String) : List String :=
  ((Verb.all.filter fun v => v ≠ .help).filter (resembles word)).map Verb.name

/-! ## Finding the verb -/

/-- Whether an argument is a flag that takes the next one as its value. A flag
that is not known is taken to do so. -/
def takesNext (argument : String) : Bool :=
  match argument.toList with
  | '-' :: '-' :: name =>
    !name.contains '=' && !globalFlags.any fun f => f.isSwitch && f.name.toList = name
  | ['-', c] => c.toNat < 0x80 && c ≠ '=' &&
    !globalFlags.any fun f => f.isSwitch && f.letter? = some c
  | _ => false

/-- The first argument that is neither a flag nor the value of one, and the other
arguments. -/
def firstWord? : List String → Option (String × List String)
  | [] => none
  | a :: rest =>
    if a = "--" then none
    else if takesNext a then
      match rest with
      | [] => none
      | value :: rest => (firstWord? rest).map fun (w, others) => (w, a :: value :: others)
    else if a = "" ∨ a.toList.head? = some '-' then
      (firstWord? rest).map fun (w, others) => (w, a :: others)
    else some (a, rest)

/-! ## Setting flags -/

/-- How far arguments have been read. -/
structure Reading where
  settings : Settings := {}
  /-- The arguments that are no flags. -/
  words : List String := []
  /-- The flag that waits for its value, and what is wrong if none comes. -/
  waiting : Option (Flag × UsageFault) := none
  /-- Whether the flags have ended. -/
  ended : Bool := false
  deriving DecidableEq, Repr

namespace Reading

/-- Gives a flag a value. -/
def set (r : Reading) (f : Flag) (value : String) : Except UsageFault Reading :=
  (r.settings.set f value).map fun s => { r with settings := s, waiting := none }

/-- Reads a flag with a name, perhaps with a value behind an equals sign. -/
def long (known : List Flag) (r : Reading) (argument : String) (body : List Char) :
    Except UsageFault Reading :=
  let name := String.ofList (body.takeWhile (· ≠ '='))
  match body with
  | [] | '-' :: _ | '=' :: _ => .error (.nameless argument)
  | _ =>
    match known.find? fun f => f.name = name with
    | none => .error (.unknownFlag name)
    | some f =>
      match body.dropWhile (· ≠ '=') with
      | _ :: value => r.set f (String.ofList value)
      | [] =>
        if f.isSwitch then r.set f "true"
        else .ok { r with waiting := some (f, .noValue name) }

/-- Reads the letters of flags. Letters that begin with `test.` are left to
others. -/
def letters (known : List Flag) (r : Reading) : List Char → Except UsageFault Reading
  | [] => .ok r
  | c :: rest =>
    if "test.".toList.isPrefixOf (c :: rest) then .ok r
    else
      match known.find? fun f => f.letter? = some c with
      | none => .error (.unknownLetter c (String.ofList (c :: rest)))
      | some f =>
        match rest with
        | '=' :: v :: value => r.set f (String.ofList (v :: value))
        | [] =>
          if f.isSwitch then r.set f "true"
          else .ok { r with waiting := some (f, .noLetterValue c (String.ofList [c])) }
        | rest =>
          if f.isSwitch then do letters known (← r.set f "true") rest
          else r.set f (String.ofList rest)

/-- Reads one more argument. -/
def step (known : List Flag) (r : Reading) (argument : String) : Except UsageFault Reading :=
  match r.waiting with
  | some (f, _) => r.set f argument
  | none =>
    if r.ended then .ok { r with words := r.words ++ [argument] }
    else
      match argument.toList with
      | ['-', '-'] => .ok { r with ended := true }
      | '-' :: '-' :: body => r.long known argument body
      | '-' :: c :: cs => r.letters known (c :: cs)
      | _ => .ok { r with words := r.words ++ [argument] }

end Reading

/-- Reads all arguments: the settings, and the arguments that are no flags. -/
def readArguments (known : List Flag) (arguments : List String) :
    Except UsageFault (Settings × List String) := do
  let r ← arguments.foldlM (Reading.step known) {}
  match r.waiting with
  | some (_, fault) => .error fault
  | none => .ok (r.settings, r.words)

/-! ## What is asked for -/

/-- What a command line asks for. -/
inductive Request where
  /-- An explanation of how the program is used. -/
  | usage
  | annotate (s : Settings)
  | inspect (s : Settings)
  | paths (s : Settings) (mux : String)
  | explore (s : Settings)
  deriving DecidableEq, Repr

/-- The files that may be read to answer a request. -/
def Request.sources : Request → List String
  | usage => []
  | annotate s => [s.input, s.config].filter (· ≠ "")
  | inspect s | paths s _ | explore s => [s.input].filter (· ≠ "")

/-- The file that may be written to answer a request. -/
def Request.output? : Request → Option String
  | annotate s => if s.output = "" ∨ s.output = "-" then none else some s.output
  | _ => none

/-- What a verb and its arguments ask for. A word is refused before a flag is
missed. -/
def requestOf (v : Verb) (arguments : List String) : Except UsageFault Request := do
  let (s, words) ← readArguments (globalFlags ++ v.ownFlags ++ [.help]) arguments
  let unused (request : Except UsageFault Request) : Except UsageFault Request :=
    match words with
    | [] => request
    | word :: _ => .error (.unknownCommand word (programName ++ " " ++ v.name) [])
  if s.help then .ok .usage
  else
    match v with
    | .annotate => unused (.ok (.annotate s))
    | .inspect => unused (.ok (.inspect s))
    | .explore => unused (.ok (.explore s))
    | .paths =>
      unused
        (match s.mux with
        | some mux => .ok (.paths s mux)
        | none => .error (.flagsNotSet [Flag.mux.name]))
    | .completion | .help => .ok .usage

/-- What a command line asks for. -/
def Request.ofArguments (arguments : List String) : Except UsageFault Request :=
  match firstWord? arguments with
  | none => (readArguments (globalFlags ++ [.help]) arguments).map fun _ => .usage
  | some (word, others) =>
    match Verb.ofName? word with
    | some v => requestOf v others
    | none => .error (.unknownCommand word programName (similar word))

end MuxFlow.Command
