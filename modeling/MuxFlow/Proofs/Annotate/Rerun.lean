import MuxFlow.Proofs.Annotate.Twin

/-!
# Running again

A run reads the flags of recursive bodies and writes some of them, so what a
second run finds is a question of its own. When the first run has flagged nothing
new, or outermost bodies only, and no link has taken the name of an edge that
carries data, the second run gives back the graph and the report of the first
(`annotate_rerun`, `Annotate.rerun_of_outermost`), if it is scheduled in the same way
or if neither is up to the schedule.

In general a second run finds what a first run would have found in the graph *in
hindsight*, with the roots of the report flagged from the start and without the
edges whose names links have taken: `Annotate.hindsight`. The lists and edges stay
as they are exactly when that run has nothing to add (`annotate_stable_iff`). It
may have: once a body is flagged, walks end at its inputs, and a call behind them
that the first run has listed is out of sight.
-/

namespace MuxFlow

namespace Annotate

theorem mark_mark (muxes : List MuxContinuations) (roots : List String) (n : Node) :
    mark muxes roots (mark muxes roots n) = mark muxes roots n := by
  have hnoted : noted muxes roots (mark muxes roots n) = noted muxes roots n := by
    rw [mark_eq]
    unfold noted
    by_cases hroot : n.id ∈ roots
    · simp [hroot]
    · cases (muxes.flatMap MuxContinuations.continuations).find? fun d => d.node = n.id <;>
        simp [hroot]
  have hlisted : listed muxes (mark muxes roots n) = listed muxes n := by
    rw [mark_eq]
    unfold listed
    cases muxes.find? fun mc => mc.mux = n.id <;> simp
  rw [mark_eq muxes roots (mark muxes roots n), hnoted, hlisted, mark_eq]
  simp

theorem mark_bare (muxes : List MuxContinuations) (roots : List String) (n : Node) :
    (mark muxes roots n).bare = n.bare := by
  rw [mark_eq]
  rfl

theorem eq_mark_of_mem {g g₁ : Graph} {muxes : List MuxContinuations} {roots : List String}
    (h : g₁.nodes = g.nodes.map (mark muxes roots)) {n n₁ : Node} (hn : n ∈ g.nodes)
    (hn₁ : n₁ ∈ g₁.nodes) (hid : n₁.id = n.id) : n₁ = mark muxes roots n := by
  rw [h] at hn₁
  obtain ⟨m, hm, rfl⟩ := List.mem_map.1 hn₁
  rw [mark_id] at hid
  rw [List.inj_on_of_nodup_map g.ids_nodup hm hn hid]

theorem continuation_of_mem_links {muxes : List MuxContinuations} {e : Edge}
    (h : e ∈ links muxes) : (!e.continuation) = false := by
  obtain ⟨mc, _, d, _, rfl⟩ := mem_links.1 h
  rfl

theorem dataEdges_of_overlay {g out : Graph} {muxes : List MuxContinuations}
    (h : out.edges = Edge.overlay g.edges (links muxes)) :
    out.dataEdges = g.dataEdges.filter fun e => e.name ∉ linkNames muxes := by
  rw [Graph.dataEdges, h]
  exact Edge.filter_overlay fun e he => continuation_of_mem_links he

/-- Writing the same findings a second time changes nothing. -/
theorem rebuild_rebuild {g g₁ : Graph} {muxes : List MuxContinuations} {roots : List String}
    (h : rebuild g muxes roots = .ok g₁) : rebuild g₁ muxes roots = .ok g₁ := by
  obtain ⟨hnodes, hedges⟩ := rebuild_eq_ok_iff.1 h
  apply rebuild_eq_ok_iff.2
  constructor
  · rw [hnodes, List.map_map]
    apply List.map_congr_left
    intro n _
    exact (mark_mark muxes roots n).symm
  · rw [eq_comm, Edge.overlay_eq_self_iff g₁.names_nodup, hedges]
    intro e he
    exact Edge.current_mem_overlay he

/-- Writing leaves a twin when it flags no body that a walk could get to anew and
takes the name of no edge that carries data. -/
theorem twin_rebuild {g g₁ : Graph} {muxes : List MuxContinuations} {roots : List String}
    (h : rebuild g muxes roots = .ok g₁)
    (hroots : ∀ n ∈ g.nodes, n.id ∈ roots → n.recursiveRoot = true ∨ g.Outermost n)
    (hnames : ∀ e ∈ g.edges, e.continuation = false → e.name ∉ linkNames muxes) :
    g.Twin g₁ := by
  obtain ⟨hnodes, hedges⟩ := rebuild_eq_ok_iff.1 h
  constructor
  · rw [hnodes, List.map_map]
    apply List.map_congr_left
    intro n _
    exact (mark_bare muxes roots n).symm
  · intro n hn n' hn' hid
    rw [eq_mark_of_mem hnodes hn hn' hid.symm, mark_eq]
    by_cases hroot : n.id ∈ roots
    · rcases hroots n hn hroot with hflag | houter
      · exact Or.inl (by simp [hflag])
      · exact Or.inr houter
    · exact Or.inl (by simp [hroot])
  · rw [dataEdges_of_overlay hedges, eq_comm, List.filter_eq_self]
    intro e he
    obtain ⟨hmem, hdata⟩ := List.mem_filter.1 he
    exact decide_eq_true (hnames e hmem (by simpa using hdata))

/-- A run that has flagged nothing new but outermost bodies and has taken the name
of no edge that carries data is repeated by the next. -/
theorem rerun_of_outermost {s s' : Scheduling} {g g₁ : Graph} {o : Options} {r : Report}
    (h : annotate s g o = .ok (g₁, r)) (hs : s = s' ∨ Steady s g o ∧ Steady s' g o)
    (hroots : ∀ n ∈ g.nodes, n.id ∈ r.roots → n.recursiveRoot = true ∨ g.Outermost n)
    (hnames : ∀ e ∈ g.edges, e.continuation = false → e.name ∉ linkNames r.muxes) :
    annotate s' g₁ o = .ok (g₁, r) := by
  obtain ⟨hval, hmuxes, ⟨found, hfound, hfroots⟩, hcount, hout⟩ := annotate_eq_ok_iff.1 h
  have htwin : g.Twin g₁ := twin_rebuild hout hroots hnames
  apply annotate_eq_ok_iff.2
  refine ⟨hval, ?_, ⟨found, ?_, hfroots⟩, hcount, rebuild_rebuild hout⟩
  · rw [← htwin.analyse]
    rcases hs with rfl | ⟨hs, hs'⟩
    · exact hmuxes
    · exact hs.analyse_eq hs' hmuxes
  · rw [← htwin.bodies]
    exact hfound

end Annotate

namespace Annotate

/-- A graph in hindsight of a run: the roots of the report are flagged, and the
edges whose names links have taken are gone. -/
def hindsight (g : Graph) (r : Report) : Graph where
  nodes := g.nodes.map fun n =>
    { n with recursiveRoot := n.recursiveRoot || decide (n.id ∈ r.roots) }
  edges := g.edges.filter fun e => e.name ∉ linkNames r.muxes
  id_ne_empty := by
    intro n hn
    obtain ⟨m, hm, rfl⟩ := List.mem_map.1 hn
    exact g.id_ne_empty m hm
  ids_nodup := by
    rw [List.map_map]
    exact g.ids_nodup
  kind_eq_mux := by
    intro n hn
    obtain ⟨m, hm, rfl⟩ := List.mem_map.1 hn
    exact g.kind_eq_mux m hm
  name_ne_empty := fun e he => g.name_ne_empty e (List.mem_filter.1 he).1
  names_nodup := g.names_nodup.sublist (List.filter_sublist.map Edge.name)
  closed := by
    intro e he
    have hends := g.closed e (List.mem_filter.1 he).1
    rw [Builder.hasNode_iff, Builder.hasNode_iff] at hends ⊢
    rw [List.map_map]
    exact hends

/-- The annotated graph and the graph in hindsight differ in notes and links
only. -/
theorem twin_hindsight {s : Scheduling} {g g₁ : Graph} {o : Options} {r : Report}
    (h : annotate s g o = .ok (g₁, r)) : g₁.Twin (hindsight g r) := by
  obtain ⟨_, _, _, _, hout⟩ := annotate_eq_ok_iff.1 h
  obtain ⟨hnodes, hedges⟩ := rebuild_eq_ok_iff.1 hout
  constructor
  · rw [hnodes, hindsight, List.map_map, List.map_map]
    apply List.map_congr_left
    intro n _
    exact mark_bare r.muxes r.roots n
  · intro n hn n' hn' hid
    obtain ⟨m, hm, rfl⟩ := List.mem_map.1 hn'
    rw [eq_mark_of_mem hnodes hm hn hid, mark_eq]
    exact Or.inl rfl
  · rw [dataEdges_of_overlay hedges, hindsight, Graph.dataEdges, Graph.dataEdges,
      List.filter_filter, List.filter_filter]
    apply List.filter_congr
    intro e _
    exact Bool.and_comm _ _

/-- Two lists that name the same nodes for the same ports. -/
def SameEntries (ds ds' : List Descriptor) : Prop :=
  (∀ d ∈ ds, d.key ∈ ds'.map Descriptor.key) ∧ ∀ d ∈ ds', d.key ∈ ds.map Descriptor.key

instance (ds ds' : List Descriptor) : Decidable (SameEntries ds ds') :=
  inferInstanceAs (Decidable (_ ∧ _))

theorem SameEntries.refl (ds : List Descriptor) : SameEntries ds ds :=
  ⟨fun _ hd => List.mem_map_of_mem hd, fun _ hd => List.mem_map_of_mem hd⟩

/-- Two graphs with the same entries for each mux, but for order and detail, and
with the same edges, but for order. -/
def Unchanged (g g' : Graph) : Prop :=
  (∀ n ∈ g.nodes, n.isMux → ∀ n' ∈ g'.nodes, n'.id = n.id →
      SameEntries n'.continuations n.continuations) ∧
    ∀ e, e ∈ g'.edges ↔ e ∈ g.edges

theorem Unchanged.refl (g : Graph) : Unchanged g g := by
  refine ⟨?_, fun e => Iff.rfl⟩
  intro n hn _ n' hn' hid
  obtain rfl := List.inj_on_of_nodup_map g.ids_nodup hn' hn hid
  exact SameEntries.refl n'.continuations

instance (g g' : Graph) : Decidable (Unchanged g g') :=
  decidable_of_iff
    ((∀ n ∈ g.nodes, n.isMux → ∀ n' ∈ g'.nodes, n'.id = n.id →
        SameEntries n'.continuations n.continuations) ∧
      (∀ e ∈ g'.edges, e ∈ g.edges) ∧ ∀ e ∈ g.edges, e ∈ g'.edges)
    (and_congr_right fun _ =>
      ⟨fun h e => ⟨h.1 e, h.2 e⟩, fun h => ⟨fun e => (h e).1, fun e => (h e).2⟩⟩)

/-- A run on a graph succeeds and changes no list and no edge. -/
def Stable (s : Scheduling) (g : Graph) (o : Options) : Prop :=
  ∃ g' r', annotate s g o = .ok (g', r') ∧ Unchanged g g'

instance (s : Scheduling) (g : Graph) (o : Options) : Decidable (Stable s g o) :=
  decidable_of_iff (okAnd (annotate s g o) (fun x => decide (Unchanged g x.1)) = true) (by
    constructor
    · exact exists_of_okAnd (P := fun g' _ => Unchanged g g')
    · rintro ⟨g', r', hrun, hsame⟩
      rw [hrun]
      exact decide_eq_true hsame)

/-- What a report lists is in a graph: each mux that is listed has the same
entries there, and each link is there, the last one where links share a name. -/
structure Covered (g : Graph) (r : Report) : Prop where
  lists : ∀ n ∈ g.nodes, ∀ mc ∈ r.muxes, mc.mux = n.id →
    SameEntries mc.continuations n.continuations
  links : ∀ e ∈ links r.muxes, Edge.current (links r.muxes) e ∈ g.edges

theorem unchanged_iff_covered {s : Scheduling} {g g' : Graph} {o : Options} {r : Report}
    (h : annotate s g o = .ok (g', r)) : Unchanged g g' ↔ Covered g r := by
  obtain ⟨_, hmuxes, _, _, hout⟩ := annotate_eq_ok_iff.1 h
  have hreported := reported_of_analyse hmuxes
  obtain ⟨hnodes, hedges⟩ := rebuild_eq_ok_iff.1 hout
  have hlist : ∀ n, (mark r.muxes r.roots n).continuations = listed r.muxes n := by
    intro n
    rw [mark_eq]
  constructor
  · rintro ⟨hlists, hsame⟩
    constructor
    · intro n hn mc hmc hid
      have hmux : n.isMux = true := (g.mem_muxes_of_mem hn).1 (hid ▸ (hreported mc hmc).1)
      have hmem : mark r.muxes r.roots n ∈ g'.nodes := hnodes ▸ List.mem_map_of_mem hn
      have hentries := hlists n hn hmux _ hmem (mark_id _ _ n)
      rwa [hlist, hreported.listed_eq hmc hid] at hentries
    · rw [← Edge.forall_mem_overlay_iff g.names_nodup, ← hedges]
      exact hsame
  · rintro ⟨hlists, hlinks⟩
    constructor
    · intro n hn _ n' hn' hid
      rw [eq_mark_of_mem hnodes hn hn' hid, hlist, listed]
      cases hf : r.muxes.find? fun mc => mc.mux = n.id with
      | none => exact SameEntries.refl n.continuations
      | some mc =>
          have hmc : mc.mux = n.id := by simpa using List.find?_some hf
          exact hlists n hn mc (List.mem_of_find?_eq_some hf) hmc
    · rw [hedges]
      exact (Edge.forall_mem_overlay_iff g.names_nodup).2 hlinks

end Annotate

/-- Running again on an annotated graph changes no list and no edge exactly when a
run on the graph in hindsight, scheduled in the same way as the second run, succeeds and
lists nothing but what the first run has left there. It does when all bodies that the
first run has flagged were flagged before or are outermost, no link has taken the name of
an edge that carries data, and the runs are not up to the schedule. -/
theorem annotate_stable_iff {s s' : Scheduling} {g g₁ : Graph} {o : Options} {r : Report}
    (h : annotate s g o = .ok (g₁, r)) :
    (Annotate.Stable s' g₁ o ↔
      ∃ out r', annotate s' (Annotate.hindsight g r) o = .ok (out, r') ∧
        Annotate.Covered g₁ r') ∧
    ((∀ n ∈ g.nodes, n.id ∈ r.roots → n.recursiveRoot = true ∨ g.Outermost n) →
      (∀ e ∈ g.edges, e.continuation = false → e.name ∉ Annotate.linkNames r.muxes) →
      (s = s' ∨ Annotate.Steady s g o ∧ Annotate.Steady s' g o) → Annotate.Stable s' g₁ o) := by
  have htwin := Annotate.twin_hindsight h
  constructor
  · constructor
    · rintro ⟨g₂, r', hrun, hsame⟩
      obtain ⟨out, hout⟩ := htwin.annotate hrun
      exact ⟨out, r', hout, (Annotate.unchanged_iff_covered hrun).1 hsame⟩
    · rintro ⟨out, r', hout, hcov⟩
      obtain ⟨g₂, hrun⟩ := htwin.symm.annotate hout
      exact ⟨g₂, r', hrun, (Annotate.unchanged_iff_covered hrun).2 hcov⟩
  · intro hroots hnames hs
    exact ⟨g₁, r, Annotate.rerun_of_outermost h hs hroots hnames, Annotate.Unchanged.refl g₁⟩

/-- The flag is new and the body outermost. -/
theorem annotate_countdown_stable : ∃ g₁ r, annotate {} (countdown false) .default = .ok (g₁, r) ∧
    r.roots = ["f"] ∧ Annotate.Stable {} g₁ .default := by
  have hrun : ∃ g₁ r, annotate {} (countdown false) .default = .ok (g₁, r) ∧ r.roots = ["f"] ∧
      (∀ n ∈ (countdown false).nodes, n.id ∈ r.roots →
        n.recursiveRoot = true ∨ (countdown false).Outermost n) ∧
      ∀ e ∈ (countdown false).edges, e.continuation = false →
        e.name ∉ Annotate.linkNames r.muxes :=
    exists_of_okAnd (by decide +kernel)
  obtain ⟨g₁, r, h, hids, hroots, hnames⟩ := hrun
  exact ⟨g₁, r, h, hids, (annotate_stable_iff h).2 hroots hnames (Or.inl rfl)⟩

/-- A call whose result reaches both operands of a mux, one of them through an input
of the body that the call enters. -/
def throughBody : Graph where
  nodes := [Node.selector "m", Node.function "f" false, Node.call "c" ["f"]]
  edges :=
    [Edge.wire "c" "o" "m" "input1", Edge.wire "c" "o" "f" "n", Edge.wire "f" "n" "m" "input2"]
  id_ne_empty := by decide
  ids_nodup := by decide
  kind_eq_mux := by decide
  name_ne_empty := by decide
  names_nodup := by decide
  closed := by decide

/-- The first run lists the call for both operands and flags the body, and the
second run does not get past the body. -/
theorem annotate_throughBody : ∃ g₁ r, annotate {} throughBody .default = .ok (g₁, r) ∧
    ¬Annotate.Stable {} g₁ .default :=
  exists_of_okAnd (by decide +kernel)

end MuxFlow
