import MuxFlow.Command.Line
import MuxFlow.Config
import MuxFlow.Continuation.Annotate
import MuxFlow.Document.File
import MuxFlow.Screen.Explorer

/-!
# Running a command

A run reads files, writes files and prints. An `Action` is a part of a run: it ends with
a value or with a fault, and either way with what it has written and printed until then.
`run` is the action that a request asks for, and `outcome` says what it leaves behind: a
program only has to carry that out.

Annotating opens its output only when the options are resolved, the graph is read and the
copy is made. Inspecting prints as it goes, up to the first mux that cannot be analysed.
-/

namespace MuxFlow.Command

open Screen (Theme)

/-- What a run works on. -/
structure World where
  files : FileSystem
  /-- What has been printed. -/
  printed : String := ""
  deriving DecidableEq, Repr

/-- A part of a run. What it has written and printed stays, also if it fails. -/
abbrev Action := EStateM Fault World

namespace Action

/-- Looks at the files and works something out. -/
def look {α : Type} (f : FileSystem → Except Fault α) : Action α := fun w =>
  match f w.files with
  | .ok a => .ok a w
  | .error fault => .error fault w

/-- Prints a text. -/
def print (text : String) : Action Unit :=
  modify fun w => { w with printed := w.printed ++ text }

/-- Puts a text at a place. -/
def put (p : Place) (text : String) : Action Unit :=
  modify fun w => { w with files := w.files.put p (.ofString text) }

/-- Opens a file for writing. What was in it is gone then, and if it was missing, it is
there. -/
def create (name : String) : Action Place := do
  let p ← look fun fs =>
    (fs.target name).mapError fun why => .within "create output" (why.fault "open" name)
  put p ""
  return p

end Action

/-- What a run leaves behind. -/
structure Outcome where
  /-- What is printed. -/
  printed : String := ""
  /-- The files after the run. -/
  files : FileSystem
  fault : Option Fault := none
  deriving DecidableEq, Repr

/-- What a run leaves behind that starts with the given files. -/
def outcome (fs : FileSystem) (action : Action Unit) : Outcome :=
  match action { files := fs } with
  | .ok _ w => { printed := w.printed, files := w.files }
  | .error fault w => { printed := w.printed, files := w.files, fault := some fault }

/-! ## Options -/

/-- Reads an option file. -/
def loadOptions (fs : FileSystem) (name : String) : Except Fault Options :=
  match fs.read name with
  | .error .isAFolder => .error (.within "read config" (FileTrouble.isAFolder.fault "read" name))
  | .error why => .error (.within "read config" (why.fault "open" name))
  | .ok content => Config.read content

/-- The options of an annotation run: flags over the option file, the option file
over the defaults. -/
def resolveOptions (fs : FileSystem) (s : Settings) : Except Fault Options := do
  let base ← if s.config = "" then .ok Options.default else loadOptions fs s.config
  let o := { base with
    includeControl := s.includeControl.getD base.includeControl
    workers := s.workers.getD base.workers }
  o.validate
  .ok o

/-- The options of a run that only looks. -/
def viewOptions (s : Settings) : Options :=
  { Options.default with includeControl := s.includeControl.getD false }

/-! ## The verbs -/

/-- Whether the output of a run goes to the screen. -/
def toScreen (output : String) : Bool := output = "" || output = "-"

/-- Writes a graph to a file, or prints it as JSON. -/
def emit (output : String) (g : Graph) : Action Unit := do
  if toScreen output then
    .print g.toJsonText
  else
    let p ← .create output
    .put p (g.textNamed output)

/-- Annotates a graph and writes it. -/
def annotateFile (scheduling : Scheduling) (s : Settings) : Action Unit := do
  let o ← .look fun fs => resolveOptions fs s
  let g ← .look fun fs => Graph.load fs s.input
  let (out, _) ← .look fun _ => annotate scheduling g o
  emit s.output out

/-- Lists the continuations of every mux. -/
def inspectFile (s : Settings) : Action Unit := do
  let g ← .look fun fs => Graph.load fs s.input
  let title := Theme.plain.title "Continuations" ++ " " ++ toString g.muxes.length
  .print (title ++ " mux(es)\n\n")
  for mux in g.muxes do
    let mc ← .look fun _ => Mux.continuations g mux (viewOptions s)
    .print (Theme.plain.continuations mc)

/-- Lists the paths behind the ports of a mux. -/
def listPaths (s : Settings) (mux : String) : Action Unit := do
  let g ← .look fun fs => Graph.load fs s.input
  let paths ← .look fun _ => Mux.inputPaths g mux
  let t := Theme.plain
  .print (t.title "Paths" ++ " " ++ t.render mux ++ "\n\n" ++ t.inputPaths paths)

/-! ## The explorer -/

/-- What the explorer learns of a file. -/
def exploreEvent (fs : FileSystem) (name : String) (o : Options) : Screen.Event :=
  .loaded (Graph.load fs name >>= fun g => Screen.MuxEntry.ofGraph g o)

/-- The explorer of a file before its first event. -/
def explorer (name : String) (t : Theme) : Screen.Explorer Screen.TextField := .start name t {}

/-! ## Everything -/

/-- How the program is used. -/
def usage : String :=
  "Annotate dataflow graphs with mux continuations\n\n" ++
  "Usage:\n" ++
  "  contann annotate -i FILE [-o FILE] [--config FILE] [--include-control] [--workers N]\n" ++
  "  contann inspect  -i FILE [--include-control]\n" ++
  "  contann paths    -i FILE --mux ID\n" ++
  "  contann explore  -i FILE [--include-control]\n"

/-- Does what is asked for. Where no keys can be pressed, the explorer shows its
first page. -/
def run (scheduling : Scheduling) : Request → Action Unit
  | .usage => .print usage
  | .annotate s => annotateFile scheduling s
  | .inspect s => inspectFile s
  | .paths s mux => listPaths s mux
  | .explore s => do
    let event ← .look fun fs => .ok (exploreEvent fs s.input (viewOptions s))
    let (m, _) := (explorer s.input .styled).update Screen.TextField.editor event
    .print (m.view Screen.TextField.view ++ "\n")

/-- Does what a command line asks for. -/
def runArguments (scheduling : Scheduling) (fs : FileSystem) (arguments : List String) : Outcome :=
  match Request.ofArguments arguments with
  | .error fault => { files := fs, fault := some (.plain fault.message) }
  | .ok request => outcome fs (run scheduling request)

end MuxFlow.Command
