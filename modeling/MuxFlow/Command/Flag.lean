import MuxFlow.Number.Whole
import MuxFlow.Text.Quoted

/-!
# Flags

The flags of the command line, what they set, and what can be wrong with the way
they are used.
-/

namespace MuxFlow.Command

/-- The name of the program. -/
def programName : String := "contann"

/-- The flags. -/
inductive Flag where
  | input
  | verbose
  | output
  | config
  | includeControl
  | workers
  | mux
  | help
  deriving DecidableEq, Repr

namespace Flag

/-- The name of a flag. -/
def name : Flag → String
  | input => "input"
  | verbose => "verbose"
  | output => "output"
  | config => "config"
  | includeControl => "include-control"
  | workers => "workers"
  | mux => "mux"
  | help => "help"

/-- The letter of a flag, if it has one. -/
def letter? : Flag → Option Char
  | input => some 'i'
  | verbose => some 'v'
  | output => some 'o'
  | help => some 'h'
  | _ => none

/-- Whether a flag stands for "yes" when it comes without a value. The other
flags take the next argument. -/
def isSwitch : Flag → Bool
  | verbose | includeControl | help => true
  | _ => false

/-- The spellings of a flag, as messages give them. -/
def spellings (f : Flag) : String :=
  match f.letter? with
  | some c => "-" ++ c.toString ++ ", --" ++ f.name
  | none => "--" ++ f.name

end Flag

/-- A value that a flag cannot take. -/
structure BadValue where
  /-- What the value is read as. -/
  reader : String
  value : String
  why : Whole.Refusal
  deriving DecidableEq, Repr

/-- The wording of a bad value. -/
def BadValue.message (b : BadValue) : String :=
  "strconv." ++ b.reader ++ ": parsing " ++ Text.quote b.value ++ ": " ++ b.why.message

/-- What is wrong with a command line. -/
inductive UsageFault where
  /-- An argument looks like a flag but has no name. -/
  | nameless (argument : String)
  | unknownFlag (name : String)
  /-- No flag has this letter; the letters from it on are told as well. -/
  | unknownLetter (letter : Char) (letters : String)
  | noValue (name : String)
  | noLetterValue (letter : Char) (letters : String)
  | badValue (flag : Flag) (value : BadValue)
  /-- A word that no command has as its name, or that a command has no use for. -/
  | unknownCommand (word : String) (place : String) (similar : List String)
  | flagsNotSet (names : List String)
  deriving DecidableEq, Repr

namespace UsageFault

/-- A letter as messages show it. Flag letters are single bytes, and every byte
beyond ASCII is shown as the first byte of its own two-byte form, which reads
`Ã`. -/
def shownLetter (c : Char) : String :=
  Text.quoteOne (if c.toNat < 0x80 then c else Char.ofNat 0xc3)

/-- The names that may have been meant. -/
def suggestions (similar : List String) : String :=
  if similar.isEmpty then ""
  else "\n\nDid you mean this?\n" ++ String.join (similar.map fun s => "\t" ++ s ++ "\n")

/-- The wording. -/
def message : UsageFault → String
  | nameless argument => "bad flag syntax: " ++ argument
  | unknownFlag name => "unknown flag: --" ++ name
  | unknownLetter c letters =>
    "unknown shorthand flag: " ++ shownLetter c ++ " in -" ++ letters
  | noValue name => "flag needs an argument: --" ++ name
  | noLetterValue c letters => "flag needs an argument: " ++ shownLetter c ++ " in -" ++ letters
  | badValue flag value =>
    "invalid argument " ++ Text.quote value.value ++ " for " ++ Text.quote flag.spellings ++
      " flag: " ++ value.message
  | unknownCommand word place similar =>
    "unknown command " ++ Text.quote word ++ " for " ++ Text.quote place ++ suggestions similar
  | flagsNotSet names =>
    "required flag(s) \"" ++ "\", \"".intercalate names ++ "\" not set"

end UsageFault

/-! ## Settings -/

/-- What flags have set. Where it matters whether a flag was used at all, a
missing value says that it was not. -/
structure Settings where
  input : String := ""
  verbose : Bool := false
  output : String := ""
  config : String := ""
  includeControl : Option Bool := none
  workers : Option Int := none
  mux : Option String := none
  help : Bool := false
  deriving DecidableEq, Repr

/-- The truth value that a text spells. -/
def truthOfText (s : String) : Except BadValue Bool :=
  if s ∈ ["1", "t", "T", "true", "TRUE", "True"] then .ok true
  else if s ∈ ["0", "f", "F", "false", "FALSE", "False"] then .ok false
  else .error ⟨"ParseBool", s, .malformed⟩

/-- The whole number that a text spells. -/
def wholeOfText (s : String) : Except BadValue Int :=
  (Whole.ofText s.toList).mapError fun why => ⟨"ParseInt", s, why⟩

/-- Gives a flag a value, in place of the one that it may have. -/
def Settings.set (s : Settings) (f : Flag) (value : String) : Except UsageFault Settings :=
  match f with
  | .input => .ok { s with input := value }
  | .output => .ok { s with output := value }
  | .config => .ok { s with config := value }
  | .mux => .ok { s with mux := some value }
  | .verbose =>
    ((truthOfText value).mapError (.badValue f)).map fun b => { s with verbose := b }
  | .help => ((truthOfText value).mapError (.badValue f)).map fun b => { s with help := b }
  | .includeControl =>
    ((truthOfText value).mapError (.badValue f)).map fun b => { s with includeControl := some b }
  | .workers =>
    ((wholeOfText value).mapError (.badValue f)).map fun n => { s with workers := some n }

end MuxFlow.Command
