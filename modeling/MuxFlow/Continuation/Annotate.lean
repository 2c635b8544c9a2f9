import MuxFlow.Continuation.ForMux
import MuxFlow.TaskGroup

/-!
# Writing continuations into a graph

`annotate s g o` analyses every mux of a graph and writes what it finds into a
copy: a mux gets its list, a continuation its mark, the body of a recursive
function that is entered behind a mux the mark of a body, and a mux is linked to
each of its continuations. Either all of it is written or nothing is.

The muxes are analysed one after another, unless the options give the run several
workers. Then a loop over the muxes starts a task for each, and what becomes of them
is up to the scheduling `s`: who moves when, and whether the tasks share the
variables of the loop.
-/

namespace MuxFlow

/-- What an annotation run has written. -/
structure Report where
  /-- The muxes that have continuations, in node order. -/
  muxes : List MuxContinuations
  /-- The bodies that were marked. -/
  roots : List String
  /-- The number of links that were written. -/
  edges : Nat
  deriving DecidableEq, Repr

/-- How tasks are scheduled: what they see of the variables of the loop that starts
them, and who moves first. -/
structure Scheduling where
  loopVars : LoopVariables := .own
  turns : List TaskGroup.Turn := []
  deriving DecidableEq, Repr

namespace Annotate

/-- The trouble with a recursive call that does not say what it enters. -/
def noRecursesTo (id : String) : Fault :=
  .trouble
    { phase := .annotate, kind := .invalidData, node := id
      detail := "recursive node has no recursesTo" }

/-- The trouble with a recursive call that enters a node that does not exist. -/
def missingBody (call body : String) : Fault :=
  .trouble
    { phase := .annotate, kind := .notFound, node := body
      detail := "recursesTo of " ++ Text.quote call ++ " names a missing node" }

/-- The bodies that a continuation enters. -/
def bodies (g : Graph) (d : Descriptor) : Except Fault (List String) := do
  let n ← g.node d.node
  if n.recursive then
    match n.recursesTo with
    | none => .error (noRecursesTo n.id)
    | some r =>
      match r.ids.find? fun id => !g.hasNode id with
      | some id => .error (missingBody n.id id)
      | none => .ok r.ids
  else .ok []

/-- The node with what a run has found written into it. -/
def mark (muxes : List MuxContinuations) (roots : List String) (n : Node) : Node :=
  let targets := muxes.flatMap MuxContinuations.continuations
  let n :=
    if n.id ∈ roots then { n with recursiveRoot := true, mark := some .body }
    else
      match targets.find? fun d => d.node = n.id with
      | some d => { n with mark := some (.descriptor d) }
      | none => n
  match muxes.find? fun mc => mc.mux = n.id with
  | some mc => { n with continuations := mc.continuations }
  | none => n

/-- The link from a mux to one of its continuations. -/
def link (mux : String) (d : Descriptor) : Edge :=
  { source := mux, target := d.node, name := Edge.continuationName mux d.node d.port
    continuation := true, control := d.port = MuxPort.control.name }

/-- The links of all muxes, in report order. -/
def links (muxes : List MuxContinuations) : List Edge :=
  muxes.flatMap fun mc => mc.continuations.map (link mc.mux)

/-- A graph with the findings of a run written into it. -/
def rebuild (g : Graph) (muxes : List MuxContinuations) (roots : List String) :
    Except Fault Graph := do
  let b ← (g.nodes.map (mark muxes roots)).foldlM Builder.addNode Builder.empty
  ((g.edges ++ links muxes).foldl Builder.addEdge b).build

/-- The fault of a task that finds its group cancelled. -/
def cancellation : Fault := .plain "context canceled"

/-- The analysis of all muxes of a graph, a task for each of them. -/
def tasks (loopVars : LoopVariables) (g : Graph) (o : Options) :
    TaskGroup String MuxContinuations Fault where
  jobs := g.muxes
  work m := Mux.continuations g m o
  cancellation := cancellation
  blank := ⟨"", []⟩
  limit := o.workers.toNat
  loopVars := loopVars

/-- The lists of all muxes. -/
def lists (s : Scheduling) (g : Graph) (o : Options) : Except Fault (List MuxContinuations) :=
  if o.workers ≤ 1 then g.muxes.mapM fun m => Mux.continuations g m o
  else (tasks s.loopVars g o).outcome s.turns

/-- The muxes that have continuations, with their lists. -/
def analyse (s : Scheduling) (g : Graph) (o : Options) :
    Except Fault (List MuxContinuations) := do
  let all ← lists s g o
  .ok (all.filter fun mc => !mc.continuations.isEmpty)

end Annotate

/-- A copy of a graph with the continuations of every mux, and what was
written. -/
def annotate (s : Scheduling) (g : Graph) (o : Options) : Except Fault (Graph × Report) := do
  o.validate
  let muxes ← Annotate.analyse s g o
  let entered ← (muxes.flatMap MuxContinuations.continuations).mapM (Annotate.bodies g)
  let roots := distinct entered.flatten
  let out ← Annotate.rebuild g muxes roots
  .ok (out, { muxes, roots, edges := (Annotate.links muxes).length })

end MuxFlow
