import MuxFlow.Fault
import MuxFlow.Text.Quoted

/-!
# Options

What a run of the analysis can be told: how much to defer (there is one answer
to that yet), whether the control port of a mux takes part, and how many muxes
may be analysed at the same time. The last is not meant to have an influence on any
result; whether it has depends on what the tasks share that analyse the muxes.
-/

namespace MuxFlow

/-- The ports of a mux, in the order in which they are analysed. -/
inductive MuxPort where
  | input1
  | input2
  | control
  deriving DecidableEq, Repr

namespace MuxPort

/-- The name of a port. -/
def name : MuxPort → String
  | input1 => "input1"
  | input2 => "input2"
  | control => "control"

/-- All three ports, in order. -/
def all : List MuxPort := [input1, input2, control]

/-- The port with a name. -/
def ofName? (s : String) : Option MuxPort := all.find? fun p => p.name = s

/-- The two other ports. -/
def others : MuxPort → List MuxPort
  | input1 => [control, input2]
  | input2 => [control, input1]
  | control => [input1, input2]

end MuxPort

/-- Options of an analysis run. -/
structure Options where
  mode : String := ""
  includeControl : Bool := false
  workers : Int := 0
  deriving DecidableEq, Repr

namespace Options

/-- The mode that defers only what recursion forces to be deferred. -/
def onlyNecessary : String := "only necessary"

/-- The options of a run that is told nothing. -/
def default : Options := { mode := onlyNecessary, workers := 1 }

/-- The trouble with a mode that is not offered. -/
def unsupportedMode (mode : String) : Fault :=
  .trouble { phase := .config, kind := .unsupported, detail := "mode " ++ Text.quote mode }

/-- The trouble with a negative number of workers. -/
def negativeWorkers : Fault :=
  .trouble
    { phase := .config, kind := .invalidInput, detail := "workers must not be negative" }

/-- Whether the options can be honoured; the mode is looked at first. -/
def validate (o : Options) : Except Fault Unit :=
  if o.mode ≠ "" ∧ o.mode ≠ onlyNecessary then .error (unsupportedMode o.mode)
  else if o.workers < 0 then .error negativeWorkers
  else .ok ()

/-- The ports that take part in the analysis, in order. -/
def ports (o : Options) : List MuxPort :=
  if o.includeControl then MuxPort.all else [.input1, .input2]

end Options

end MuxFlow
