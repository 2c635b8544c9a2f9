import Mathlib.Data.List.Perm.Basic
import MuxFlow.Proofs.Annotate.Stages
import MuxFlow.Proofs.Continuation.Likeness

/-!
# What the analysis does not see

Graphs of the same ids whose nodes agree in kind, port names and recursion flags, and
which have the same edges that carry data, one after another, are analysed alike
(`Mux.analysis_eq_of_sameReading`). They may list their nodes in different orders, so
that nodes have other positions, they may have links anywhere among their edges, and
components, parents, port types, bodies of calls, marks and continuation lists are
free.
-/

namespace MuxFlow

namespace Graph

/-- The same ids and, under each id, the same of what the analysis reads of a node;
the same edges that carry data. -/
structure SameReading (g g' : Graph) : Prop where
  ids : (g.nodes.map Node.id).Perm (g'.nodes.map Node.id)
  nodes : ∀ n ∈ g.nodes, ∀ n' ∈ g'.nodes, n.id = n'.id →
    n.kind = n'.kind ∧ n.inputNames = n'.inputNames ∧ n.outputNames = n'.outputNames ∧
      n.recursive = n'.recursive ∧ n.recursiveRoot = n'.recursiveRoot
  dataEdges : g.dataEdges = g'.dataEdges

namespace SameReading

variable {g g' : Graph}

theorem hasNode (h : g.SameReading g') (id : String) : g.hasNode id = g'.hasNode id := by
  rw [Bool.eq_iff_iff, Builder.hasNode_iff, Builder.hasNode_iff, h.ids.mem_iff]

theorem alike (h : g.SameReading g') : g.Alike g' where
  faces := by
    intro id
    have hsome : (g.node? id).isSome = (g'.node? id).isSome := by
      rw [g.isSome_node?, g'.isSome_node?, h.hasNode]
    cases hn : g.node? id with
    | none =>
        rw [hn, Option.isSome_none, eq_comm, Option.isSome_eq_false_iff] at hsome
        rw [Option.isNone_iff_eq_none.1 hsome]
    | some n =>
        rw [hn, Option.isSome_some, eq_comm, Option.isSome_iff_exists] at hsome
        obtain ⟨n', hn'⟩ := hsome
        obtain ⟨hmem, hid⟩ := g.node?_eq_some_iff.1 hn
        obtain ⟨hmem', hid'⟩ := g'.node?_eq_some_iff.1 hn'
        have heq : n.id = n'.id := hid.trans hid'.symm
        obtain ⟨hkind, hin, hout, hrec, _⟩ := h.nodes n hmem n' hmem' heq
        rw [hn', Option.map_some, Option.map_some, Node.face_congr heq hkind hin hout hrec]
  flags := by
    intro n hn n' hn' hid
    exact Or.inl (h.nodes n hn n' hn' hid).2.2.2.2
  dataEdges := h.dataEdges

end SameReading

end Graph

/-- The paths behind a mux and its continuations are the same, faults included, in
graphs that the analysis reads alike. -/
theorem Mux.analysis_eq_of_sameReading {g g' : Graph} (h : g.SameReading g') (m : String)
    (o : Options) :
    Mux.inputPaths g m = Mux.inputPaths g' m ∧
      Mux.continuations g m o = Mux.continuations g' m o :=
  ⟨h.alike.inputPaths m, h.alike.continuations m o⟩

/-- The graph of `countdown` with its nodes the other way round, full of notes, and
with a link in front of each edge. -/
def scribbled : Graph where
  nodes :=
    [{ Node.selector "m" with
        parent := "c", inputs := [⟨"control", ""⟩, ⟨"input1", "int"⟩, ⟨"input2", "int"⟩]
        continuations := [{ node := "f", port := "control" }] },
      { Node.call "c" [] with component := "call", recursesTo := none, mark := some .body },
      { Node.function "f" true with
        outputs := [⟨"v", "int"⟩], mark := some (.descriptor { node := "m", port := "" }) }]
  edges := (countdown true).edges.flatMap fun e =>
    [{ source := "m", target := e.source, name := "to " ++ e.name, continuation := true }, e]
  id_ne_empty := by decide
  ids_nodup := by decide
  kind_eq_mux := by decide
  name_ne_empty := by decide
  names_nodup := by decide
  closed := by decide

/-- The call behind the second operand is found in both. -/
theorem continuations_scribbled : ∃ mc, Mux.continuations (countdown true) "m" .default = .ok mc ∧
    mc.continuations.map Descriptor.key = [("c", "input2")] ∧
    Mux.continuations scribbled "m" .default = .ok mc := by
  have hread : (countdown true).SameReading scribbled :=
    ⟨by decide, by decide, by decide⟩
  have hkeys : okAnd (Mux.continuations (countdown true) "m" .default)
      (fun mc => decide (mc.continuations.map Descriptor.key = [("c", "input2")])) = true := by
    decide +kernel
  have heq := (Mux.analysis_eq_of_sameReading hread "m" .default).2
  cases hrun : Mux.continuations (countdown true) "m" .default with
  | error e =>
      rw [hrun] at hkeys
      cases hkeys
  | ok mc =>
      rw [hrun] at hkeys heq
      exact ⟨mc, rfl, of_decide_eq_true hkeys, heq.symm⟩

end MuxFlow
