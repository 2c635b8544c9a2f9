import MuxFlow.Proofs.Graph.Calls

/-!
# Builders that are not complete

A builder can only be finished when both ends of every edge are nodes. Otherwise it
tells what is missing (`Builder.Call.missing`): the ends of the edges are gone through in
order, the source of an edge before its target, and every end that no node was added for
gives an entry. An edge that was replaced gives none, and one whose ends are the same
missing id gives two.

Nothing is taken out of the builder then, so it can be completed: a node for every
missing id is enough (`Builder.finish_completed`).
-/

namespace MuxFlow

namespace Builder

/-- The ends of edges with the names of the edges, sources before targets. -/
def ends (es : List Edge) : List DanglingEnd :=
  es.flatMap fun e => [e.source, e.target].map fun id => ⟨e.name, id⟩

/-- The ids that calls add a node for; there is no node without an id. -/
def Call.added (calls : List Call) : List String :=
  ((Call.nodes calls).map Node.id).filter fun id => id ≠ ""

/-- The ends of stored edges that calls add no node for. -/
def Call.missing (calls : List Call) : List DanglingEnd :=
  (ends (Call.standing calls)).filter fun d => d.missing ∉ Call.added calls

theorem Call.mem_added_iff (calls : List Call) (id : String) :
    id ∈ Call.added calls ↔ id ∈ (after calls).nodes.map Node.id := by
  have hsettled : (Call.accepted calls).map Node.id =
      (distinctBy Node.id ((Call.nodes calls).filter fun n => n.id ≠ "")).map Node.id := by
    simp [Call.accepted]
  rw [after_nodes, hsettled, mem_keys_distinctBy, Call.added, List.filter_map]
  rfl

theorem mem_ends_iff {es : List Edge} {d : DanglingEnd} :
    d ∈ ends es ↔ ∃ e ∈ es, d = ⟨e.name, e.source⟩ ∨ d = ⟨e.name, e.target⟩ := by
  simp [ends]

/-- The ends under the name of an edge are its own. -/
theorem filter_ends {es : List Edge} (h : (es.map Edge.name).Nodup) {e : Edge} (he : e ∈ es) :
    ((ends es).filter fun d => d.edge = e.name) =
      [e.source, e.target].map fun id => ⟨e.name, id⟩ := by
  induction es with
  | nil => cases he
  | cons x es ih =>
      rw [List.map_cons, List.nodup_cons] at h
      rw [ends, List.flatMap_cons, List.filter_append, ← ends]
      rcases List.mem_cons.1 he with rfl | hes
      · have hrest : ((ends es).filter fun d => d.edge = e.name) = [] := by
          apply List.filter_eq_nil_iff.2
          intro d hd hname
          obtain ⟨y, hy, rfl | rfl⟩ := mem_ends_iff.1 hd
          all_goals exact h.1 (of_decide_eq_true hname ▸ List.mem_map_of_mem hy)
        simp [hrest]
      · have hne : x.name ≠ e.name := fun hname => h.1 (hname ▸ List.mem_map_of_mem hes)
        rw [ih h.2 hes]
        simp [hne]

theorem danglingEnds_eq_filter (b : Builder) :
    b.danglingEnds = (ends b.edges).filter fun d => d.missing ∉ b.nodes.map Node.id := by
  have hnone : ∀ id, (!b.hasNode id) = decide (id ∉ b.nodes.map Node.id) := by
    intro id
    rw [Bool.eq_iff_iff, decide_eq_true_iff, ← hasNode_iff]
    simp
  unfold danglingEnds ends
  rw [List.filter_flatMap]
  congr 1
  funext e
  simp only [danglingOf, hnone, List.filter_map]
  rfl

theorem danglingEnds_after (calls : List Call) :
    (after calls).danglingEnds = Call.missing calls := by
  rw [danglingEnds_eq_filter, after_edges, Call.missing]
  simp only [Call.mem_added_iff]

theorem build_eq_error_iff (b : Builder) (f : Fault) :
    b.build = .error f ↔ b.danglingEnds ≠ [] ∧ f = .dangling b.danglingEnds := by
  unfold build
  split
  · next h => simp [h]
  · next h =>
      rw [h, Except.error.injEq, eq_comm]
      exact (and_iff_right (List.cons_ne_nil _ _)).symm

theorem finish_of_error {b : Builder} {f : Fault} (h : b.build = .error f) :
    b.finish = (.error f, b) := by
  simp only [finish, h]

theorem finish_of_ok {b : Builder} {g : Graph} (h : b.build = .ok g) :
    b.finish = (.ok g, empty) := by
  simp only [finish, h]

theorem finish_fst (b : Builder) : b.finish.1 = b.build := by
  unfold finish
  cases b.build <;> rfl

theorem Call.missing_ne_nil_iff (calls : List Call) :
    Call.missing calls ≠ [] ↔
      ∃ e ∈ Call.standing calls, e.source ∉ Call.added calls ∨ e.target ∉ Call.added calls := by
  rw [Call.missing, ne_eq, List.filter_eq_nil_iff]
  simp only [decide_eq_true_eq, not_forall, not_not, exists_prop]
  constructor
  · rintro ⟨d, hd, hmissing⟩
    obtain ⟨e, he, rfl | rfl⟩ := mem_ends_iff.1 hd
    · exact ⟨e, he, .inl hmissing⟩
    · exact ⟨e, he, .inr hmissing⟩
  · rintro ⟨e, he, hmissing | hmissing⟩
    · exact ⟨_, mem_ends_iff.2 ⟨e, he, .inl rfl⟩, hmissing⟩
    · exact ⟨_, mem_ends_iff.2 ⟨e, he, .inr rfl⟩, hmissing⟩

/-- With a node for every missing id the builder can be finished. -/
theorem exists_completed (b : Builder) {ns : List Node}
    (hid : ∀ d ∈ b.danglingEnds, d.missing ≠ "")
    (hns : (ns.map Node.id).Perm (distinct (b.danglingEnds.map DanglingEnd.missing))) :
    ∃ b' g, ns.foldlM addNode b = .ok b' ∧ b'.build = .ok g ∧
      g.nodes = b.nodes ++ ns.map Node.settled ∧ g.edges = b.edges := by
  have hmem : ∀ id, id ∈ ns.map Node.id ↔ ∃ d ∈ b.danglingEnds, d.missing = id := by
    intro id
    rw [hns.mem_iff, mem_distinct, List.mem_map]
  have hne : ∀ n ∈ ns, n.id ≠ "" := by
    intro n hn
    obtain ⟨d, hd, hdn⟩ := (hmem n.id).1 (List.mem_map_of_mem hn)
    exact hdn ▸ hid d hd
  have hnew : ((b.nodes ++ ns).map Node.id).Nodup := by
    rw [List.map_append, List.nodup_append]
    refine ⟨b.ids_nodup, hns.nodup_iff.2 (nodup_distinct _), ?_⟩
    rintro id hold _ hnew rfl
    obtain ⟨d, hd, rfl⟩ := (hmem id).1 hnew
    rw [danglingEnds_eq_filter, List.mem_filter] at hd
    exact of_decide_eq_true hd.2 hold
  obtain ⟨b', hb', hnodes, hedges⟩ := foldlM_addNode ns b hne hnew
  -- an end that no old node has is listed, so one of the new nodes has it
  have hend : ∀ d ∈ ends b'.edges, b'.hasNode d.missing := by
    intro d hd
    rw [hedges] at hd
    rw [hasNode_iff, hnodes, List.map_append, List.mem_append]
    by_cases hold : d.missing ∈ b.nodes.map Node.id
    · exact .inl hold
    · have hlisted : d ∈ b.danglingEnds := by
        rw [danglingEnds_eq_filter]
        exact List.mem_filter.2 ⟨hd, decide_eq_true hold⟩
      have hnode := (hmem d.missing).2 ⟨d, hlisted, rfl⟩
      simpa using Or.inr hnode
  have hclosed : ∀ e ∈ b'.edges, b'.hasNode e.source ∧ b'.hasNode e.target := by
    intro e he
    exact ⟨hend _ (mem_ends_iff.2 ⟨e, he, .inl rfl⟩), hend _ (mem_ends_iff.2 ⟨e, he, .inr rfl⟩)⟩
  obtain ⟨g, hg⟩ := b'.exists_build_eq_ok hclosed
  have hparts : g.toBuilder = b' := (b'.build_eq_ok_iff g).1 hg
  exact ⟨b', g, hb', hg, hparts ▸ hnodes, hparts ▸ hedges⟩

/-- After any calls, the graph is refused exactly when an end of a stored edge is no added
node. The refusal lists the missing ends: for an edge those of its two ends that no node
was added for, the source first. The builder is as before, and nodes for the listed ids
are taken in and complete it. -/
theorem finish_completed (calls : List Call) :
    ((∃ f, (after calls).finish.1 = .error f) ↔
      ∃ e ∈ Call.standing calls, e.source ∉ Call.added calls ∨ e.target ∉ Call.added calls) ∧
    ∀ f, (after calls).finish.1 = .error f →
      (f = .dangling (Call.missing calls) ∧
        ∀ e ∈ Call.standing calls, ((Call.missing calls).filter fun d => d.edge = e.name) =
          ([e.source, e.target].filter fun id => id ∉ Call.added calls).map
            fun id => ⟨e.name, id⟩) ∧
      (after calls).finish.2 = after calls ∧
      ∀ ns : List Node, (∀ d ∈ Call.missing calls, d.missing ≠ "") →
        (ns.map Node.id).Perm (distinct ((Call.missing calls).map DanglingEnd.missing)) →
        ∃ b g, ns.foldlM addNode (after calls).finish.2 = .ok b ∧ b.finish = (.ok g, empty) ∧
          g.nodes = (after calls).nodes ++ ns.map Node.settled ∧
          g.edges = (after calls).edges := by
  simp only [finish_fst, build_eq_error_iff, danglingEnds_after]
  constructor
  · rw [← Call.missing_ne_nil_iff]
    exact ⟨fun ⟨_, h, _⟩ => h, fun h => ⟨_, h, rfl⟩⟩
  · rintro f ⟨hne, rfl⟩
    have hrefused : (after calls).build = .error (.dangling (Call.missing calls)) := by
      rw [build_eq_error_iff, danglingEnds_after]
      exact ⟨hne, rfl⟩
    have hkept : (after calls).finish.2 = after calls := by rw [finish_of_error hrefused]
    refine ⟨⟨rfl, ?_⟩, hkept, ?_⟩
    · intro e he
      have hnames : ((Call.standing calls).map Edge.name).Nodup := by
        rw [← after_edges]
        exact (after calls).names_nodup
      rw [Call.missing, List.filter_comm, filter_ends hnames he, List.filter_map]
      rfl
    · intro ns hid hns
      rw [← danglingEnds_after] at hid hns
      obtain ⟨b, g, hb, hg, hnodes, hedges⟩ := (after calls).exists_completed hid hns
      rw [hkept]
      exact ⟨b, g, hb, finish_of_ok hg, hnodes, hedges⟩

/-- A loop at a missing node, and an edge that first had other ends. -/
def strayLoop : List Call :=
  [.edge { source := "x", sourcePort := "o", target := "y", targetPort := "i", name := "e" },
    .node { id := "" },
    .node { id := "a" },
    .edge { source := "c", sourcePort := "o", target := "c", targetPort := "i" },
    .node { id := "a", parent := "b" },
    .edge { source := "a", sourcePort := "o", target := "b", targetPort := "i", name := "e" }]

theorem finish_strayLoop :
    (∃ f, (after strayLoop).finish.1 = .error f) ∧
      ∀ f, (after strayLoop).finish.1 = .error f →
        f = .dangling [⟨"e", "b"⟩, ⟨"c@o→c@i", "c"⟩, ⟨"c@o→c@i", "c"⟩] ∧
          ∃ b g, [{ id := "c" }, { id := "b", component := muxComponent }].foldlM addNode
              (after strayLoop).finish.2 = .ok b ∧ b.finish = (.ok g, empty) ∧
            g.nodes.map Node.id = ["a", "c", "b"] ∧ g.muxes = ["b"] ∧
            g.edges.map Edge.name = ["e", "c@o→c@i"] := by
  have hmissing : Call.missing strayLoop =
      [⟨"e", "b"⟩, ⟨"c@o→c@i", "c"⟩, ⟨"c@o→c@i", "c"⟩] := by decide +kernel
  obtain ⟨hrefused, hrepair⟩ := finish_completed strayLoop
  refine ⟨hrefused.2 (by decide +kernel), ?_⟩
  intro f hf
  obtain ⟨⟨hlisted, -⟩, -, hcompleted⟩ := hrepair f hf
  obtain ⟨b, g, hb, hg, hnodes, hedges⟩ :=
    hcompleted [{ id := "c" }, { id := "b", component := muxComponent }]
      (by rw [hmissing]; decide) (by rw [hmissing]; decide)
  rw [after_nodes] at hnodes
  rw [after_edges] at hedges
  refine ⟨hmissing ▸ hlisted, b, g, hb, hg, ?_, ?_, ?_⟩
  · rw [hnodes]
    decide +kernel
  · rw [Graph.muxes, hnodes]
    decide +kernel
  · rw [hedges]
    decide +kernel

end Builder

end MuxFlow
