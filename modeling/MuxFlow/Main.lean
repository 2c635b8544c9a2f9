import MuxFlow.Command.Run

/-!
# The program

Reads the files that a command line names, lets `Command.run` decide what
happens, and carries that out. The explorer is driven line by line: a line is a
key or typed text, and an empty line is the enter key.
-/

namespace MuxFlow.Main

open Command Screen

/-- The files with the given names, as far as they can be read. -/
def gather (names : List String) : IO FileSystem := do
  let mut files := []
  for name in names do
    try
      let bytes ← IO.FS.readBinFile name
      files := files ++ [(name, Text.Source.ofBytes bytes.toList)]
    catch _ => pure ()
  return .ofFiles files

/-- Says what went wrong. -/
def complain (fault : Fault) : IO UInt32 := do
  IO.eprintln ("Error: " ++ fault.message)
  return 1

/-- Writes what a run has put into a file. -/
def store (fs : FileSystem) (name : String) : IO Unit := do
  match fs.read name with
  | .ok content => IO.FS.writeFile name (String.ofList content.lossy)
  | .error _ => pure ()

/-- Shows the explorer after each line of input, until a key ends it. -/
partial def interact (input output : IO.FS.Stream) (m : Explorer TextField) : IO Unit := do
  output.putStrLn (m.view TextField.view)
  output.flush
  let line ← input.getLine
  if line.isEmpty then return
  let typed := String.ofList (line.toList.filter (· ≠ '\n'))
  let key : Key := if typed = "" then { name := "enter" } else .ofText typed
  let (m, quit) := m.update TextField.editor (.key key)
  if quit then return else interact input output m

/-- Answers a request. The folders that names lead through are taken to exist; the
attempt to write there tells whether they do. -/
def serve (request : Request) : IO UInt32 := do
  let files ← gather request.sources
  let fs := { files with
    folders := (request.output?.toList ++ request.sources).flatMap FileSystem.waypoints }
  match request with
  | .explore s =>
    let (m, _) := (explorer s.input .styled).update TextField.editor
      (exploreEvent fs s.input (viewOptions s))
    interact (← IO.getStdin) (← IO.getStdout) m
    return 0
  | request =>
    let outcome := outcome fs (run {} request)
    IO.print outcome.printed
    match outcome.fault with
    | some fault => complain fault
    | none =>
      try
        for name in request.output?.toList do
          store outcome.files name
        return 0
      catch e => complain (.within "create output" (.plain e.toString))

end MuxFlow.Main

/-- Does what the command line asks for. -/
def main (arguments : List String) : IO UInt32 :=
  match MuxFlow.Command.Request.ofArguments arguments with
  | .error fault => MuxFlow.Main.complain (.plain fault.message)
  | .ok request => MuxFlow.Main.serve request
