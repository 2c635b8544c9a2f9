import MuxFlow.Distinct

/-!
# Faults

Why a request cannot be served. A fault is a value that names its cause: the
stage of the work, the kind of trouble and the place in the graph, or the list
of edges that lead nowhere, or a bare text, or any of these inside a context.
The wording is one function, `Fault.message`; the questions that callers ask of
a fault (`matches`, `isDangling`, `cause?`) look through contexts and causes.
-/

namespace MuxFlow

/-- A stage of the work, by the name that messages give it. -/
structure Phase where
  name : String
  deriving DecidableEq, Repr

namespace Phase

/-- Reading a graph document. -/
def load : Phase := ⟨"load"⟩

/-- Putting a graph together. -/
def build : Phase := ⟨"build"⟩

/-- Walking backward through a graph. -/
def walk : Phase := ⟨"walk"⟩

/-- Analysing one mux. -/
def analyze : Phase := ⟨"analyze"⟩

/-- Writing what the analysis found into a graph. -/
def annotate : Phase := ⟨"annotate"⟩

/-- Reading and checking options. -/
def config : Phase := ⟨"config"⟩

end Phase

/-- A kind of trouble, by the name that messages give it. -/
structure FaultKind where
  name : String
  deriving DecidableEq, Repr

namespace FaultKind

/-- Something that was looked up does not exist. -/
def notFound : FaultKind := ⟨"not_found"⟩

/-- Something was added twice. -/
def duplicate : FaultKind := ⟨"duplicate"⟩

/-- A document or a node contradicts itself. -/
def invalidData : FaultKind := ⟨"invalid_data"⟩

/-- A request makes no sense. -/
def invalidInput : FaultKind := ⟨"invalid_input"⟩

/-- A request asks for more than is offered. -/
def unsupported : FaultKind := ⟨"unsupported"⟩

/-- An edge leads to no node. -/
def danglingReference : FaultKind := ⟨"dangling_reference"⟩

end FaultKind

/-- What went wrong, where, and in which stage. An empty node means that no
place is known; a port counts only together with its node. -/
structure Trouble where
  phase : Phase
  kind : FaultKind
  node : String := ""
  port : String := ""
  detail : String := ""
  deriving DecidableEq, Repr

/-- An end of an edge that names no node. -/
structure DanglingEnd where
  /-- The name of the edge. -/
  edge : String
  /-- The id that no node has. -/
  missing : String
  deriving DecidableEq, Repr

/-- Why a request cannot be served. -/
inductive Fault where
  /-- Trouble at a place of the graph. -/
  | trouble (what : Trouble)
  /-- Trouble that another fault brought about. -/
  | caused (what : Trouble) (cause : Fault)
  /-- Edges whose ends name no node. -/
  | dangling (ends : List DanglingEnd)
  /-- A fault that is only a text. -/
  | plain (text : String)
  /-- A fault met while doing something that is worth naming. -/
  | within (context : String) (inner : Fault)
  /-- No fault but no answer either: the work never comes to an end. -/
  | endless
  deriving DecidableEq, Repr

/-- The place, as ` at node@port`; nothing without a node. -/
def Trouble.place (t : Trouble) : String :=
  if t.node = "" then ""
  else if t.port = "" then " at " ++ t.node
  else " at " ++ t.node ++ "@" ++ t.port

/-- One line: `[phase] kind at node@port: detail`. -/
def Trouble.message (t : Trouble) : String :=
  "[" ++ t.phase.name ++ "] " ++ t.kind.name ++ t.place ++
    (if t.detail = "" then "" else ": " ++ t.detail)

namespace DanglingEnd

/-- The edges that miss one node, under the id of that node. -/
def group (ends : List DanglingEnd) (missing : String) : String :=
  "\n\n  " ++ missing ++ ":" ++
    String.join ((ends.filter fun d => d.missing = missing).map fun d => "\n    - " ++ d.edge)

/-- The ends, grouped by the missing node in order of first appearance. -/
def message (ends : List DanglingEnd) : String :=
  if ends.isEmpty then "[build] dangling_reference: no edges specified"
  else
    toString ends.length ++ " edge(s) reference missing nodes:" ++
      String.join ((distinct (ends.map DanglingEnd.missing)).map (group ends))

end DanglingEnd

namespace Fault

/-- The whole text of a fault, causes included. -/
def message : Fault → String
  | trouble what => what.message
  | caused what cause => what.message ++ " (caused by: " ++ cause.message ++ ")"
  | dangling ends => DanglingEnd.message ends
  | plain text => text
  | within context inner => context ++ ": " ++ inner.message
  | endless => "no end"

/-- The fault right behind this one. -/
def cause? : Fault → Option Fault
  | caused _ cause => some cause
  | within _ inner => some inner
  | _ => none

/-- Whether this fault, or one behind it, has the given phase and kind. -/
def hasTrouble (phase : Phase) (kind : FaultKind) : Fault → Bool
  | trouble what => what.phase = phase ∧ what.kind = kind
  | caused what cause => (what.phase = phase ∧ what.kind = kind) || cause.hasTrouble phase kind
  | within _ inner => inner.hasTrouble phase kind
  | _ => false

/-- Whether this fault, or one behind it, is about edges that lead nowhere. -/
def isDangling : Fault → Bool
  | dangling _ => true
  | caused _ cause => cause.isDangling
  | within _ inner => inner.isDangling
  | _ => false

end Fault

end MuxFlow
