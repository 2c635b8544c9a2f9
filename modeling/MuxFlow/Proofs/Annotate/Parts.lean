import MuxFlow.Proofs.Annotate.Delta
import MuxFlow.Proofs.Continuation.Likeness

/-!
# Independent parts of a graph

A graph splits into parts when every edge stays within a part and so does every
recursive call. Such parts are annotated independently: `annotate_part` says that
a run on a part does what the run on the whole graph does there, and finds nothing
in other parts. The tables of a run are shared by all parts, and each of them is
the part of the whole table: the muxes, the targets, the roots and the links.

Names are the one thing that parts have in common. A link whose name an edge of
another part has takes the place of that edge, and then a part by itself comes out
differently; `Annotate.Separate` says that there is no such name.
-/

namespace MuxFlow

section
variable {κ : Type} [DecidableEq κ] (side : String → κ) (k : κ)

/-- The nodes of one side and the edges between them, in order. -/
def Graph.part (g : Graph) : Graph where
  nodes := g.nodes.filter fun n => side n.id = k
  edges := g.edges.filter fun e => side e.source = k ∧ side e.target = k
  id_ne_empty n hn := g.id_ne_empty n (List.mem_filter.1 hn).1
  ids_nodup := g.ids_nodup.sublist (List.filter_sublist.map Node.id)
  kind_eq_mux n hn := g.kind_eq_mux n (List.mem_filter.1 hn).1
  name_ne_empty e he := g.name_ne_empty e (List.mem_filter.1 he).1
  names_nodup := g.names_nodup.sublist (List.filter_sublist.map Edge.name)
  closed := by
    intro e he
    obtain ⟨hmem, hends⟩ := List.mem_filter.1 he
    obtain ⟨hsource, htarget⟩ := of_decide_eq_true hends
    have hkept : ∀ id, g.hasNode id = true → side id = k →
        (g.nodes.filter fun n => side n.id = k).any (fun n => n.id = id) = true := by
      intro id hid hside
      obtain ⟨n, hn, rfl⟩ := g.exists_node_of_hasNode hid
      exact List.any_eq_true.2 ⟨n, List.mem_filter.2 ⟨hn, by simp [hside]⟩, by simp⟩
    exact ⟨hkept _ (g.closed e hmem).1 hsource, hkept _ (g.closed e hmem).2 htarget⟩

/-- What a report says about one side. -/
def Report.part (r : Report) : Report where
  muxes := r.muxes.filter fun mc => side mc.mux = k
  roots := r.roots.filter fun id => side id = k
  edges := (Annotate.links (r.muxes.filter fun mc => side mc.mux = k)).length

end

/-- The ends of every edge are on one side, and a call is on the side of the bodies
that it enters. -/
structure Graph.Splits {κ : Type} (g : Graph) (side : String → κ) : Prop where
  edges : ∀ e ∈ g.edges, side e.source = side e.target
  bodies : ∀ n ∈ g.nodes, ∀ r ∈ n.recursesTo, ∀ id ∈ r.ids, g.hasNode id → side id = side n.id

/-- No link has the name of an edge or a link of another side. -/
def Annotate.Separate {κ : Type} (g : Graph) (r : Report) (side : String → κ) : Prop :=
  ∀ l ∈ links r.muxes, ∀ e ∈ g.edges ++ links r.muxes, e.name = l.name →
    side e.source = side l.source

instance {κ : Type} [DecidableEq κ] (g : Graph) (r : Report) (side : String → κ) :
    Decidable (Annotate.Separate g r side) :=
  inferInstanceAs (Decidable (∀ l ∈ Annotate.links r.muxes, _))

variable {κ : Type} {side : String → κ} {k : κ} {g : Graph}

namespace Graph.Splits

theorem side_of_mem_continuations (h : g.Splits side) {m : String} {o : Options}
    {mc : MuxContinuations} (hmc : Mux.continuations g m o = .ok mc) {d : Descriptor}
    (hd : d ∈ mc.continuations) : side d.node = side mc.mux := by
  rw [Mux.continuations_mux hmc]
  apply Mux.node_of_mem_continuations (P := fun id => side id = side m) hmc rfl _ hd
  intro e he _ htarget
  rw [h.edges e he]
  exact htarget

theorem side_of_mem_entered (h : g.Splits side) {d : Descriptor} {ids : List String}
    (hok : Annotate.bodies g d = .ok ids) : ∀ id ∈ Annotate.entered g d, side id = side d.node := by
  obtain ⟨_, n, hn, hid, hto⟩ := Annotate.bodies_eq_ok_iff.1 hok
  intro id hmem
  unfold Annotate.entered at hmem
  rw [g.node?_eq_some_iff.2 ⟨hn, hid⟩] at hmem
  by_cases hrec : n.recursive = true
  · obtain ⟨r, hr, hall⟩ := hto hrec
    simp only [hrec, if_true, hr, Option.map_some, Option.getD_some] at hmem
    rw [h.bodies n hn r hr id hmem (hall id hmem), hid]
  · simp [hrec] at hmem

theorem side_of_mem_edges (h : g.Splits side) {muxes : List MuxContinuations}
    (hside : ∀ mc ∈ muxes, ∀ d ∈ mc.continuations, side d.node = side mc.mux) :
    ∀ e ∈ g.edges ++ Annotate.links muxes, side e.source = side e.target := by
  intro e he
  rcases List.mem_append.1 he with he | he
  · exact h.edges e he
  · obtain ⟨mc, hmc, d, hd, rfl⟩ := Annotate.mem_links.1 he
    exact (hside mc hmc d hd).symm

end Graph.Splits

variable [DecidableEq κ]

namespace Graph

theorem mem_part_nodes {n : Node} : n ∈ (g.part side k).nodes ↔ n ∈ g.nodes ∧ side n.id = k := by
  simp [part]

theorem part_node? {id : String} (h : side id = k) : (g.part side k).node? id = g.node? id := by
  apply find?_filter_of_imp
  intro n _ hn
  simpa [of_decide_eq_true hn] using h

theorem part_hasNode {id : String} (h : side id = k) :
    (g.part side k).hasNode id = g.hasNode id := by
  rw [← isSome_node?, ← isSome_node?, part_node? h]

theorem part_muxes : (g.part side k).muxes = g.muxes.filter fun m => side m = k := by
  change ((g.nodes.filter fun n => side n.id = k).filter Node.isMux).map Node.id = _
  rw [muxes, List.filter_map, List.filter_filter, List.filter_filter]
  simp only [Function.comp_def, Bool.and_comm]

namespace Splits

/-- A part is like the whole graph to those who stand in it. -/
theorem alikeWithin (h : g.Splits side) (k : κ) :
    g.AlikeWithin (fun id => side id = k) (g.part side k) where
  faces id hid := by rw [part_node? hid]
  flags := by
    intro n hn _ n' hn' hid
    rw [List.inj_on_of_nodup_map g.ids_nodup hn (mem_part_nodes.1 hn').1 hid]
    exact Or.inl rfl
  dataEdges := by
    intro id hid
    change _ = ((g.edges.filter _).filter _).filter _
    rw [dataEdges, List.filter_filter, List.filter_filter, List.filter_filter]
    apply List.filter_congr
    intro e he
    by_cases htarget : e.target = id
    · have hside := h.edges e he
      rw [htarget, hid] at hside
      simp [htarget, hid, hside]
    · simp [htarget]
  closed := by
    intro e he htarget
    rw [h.edges e (List.mem_filter.1 he).1]
    exact htarget

theorem bodies_part (h : g.Splits side) {d : Descriptor} (hd : side d.node = k) :
    Annotate.bodies (g.part side k) d = Annotate.bodies g d := by
  have hnode : (g.part side k).node d.node = g.node d.node := by
    rw [node, node, part_node? hd]
  unfold Annotate.bodies
  rw [hnode]
  apply bind_congr_of_ok
  intro n hn
  obtain ⟨hmem, hid⟩ := g.node_eq_ok_iff.1 hn
  cases hto : n.recursesTo with
  | none => rfl
  | some r =>
      -- a body that exists is on the side of the call, so the part has it as well
      have hbodies : ∀ id ∈ r.ids, (g.part side k).hasNode id = g.hasNode id := by
        intro id hr
        rw [Bool.eq_iff_iff]
        constructor
        · intro hpart
          obtain ⟨m, hm, rfl⟩ := (g.part side k).exists_node_of_hasNode hpart
          exact g.hasNode_of_mem (mem_part_nodes.1 hm).1
        · intro hall
          rw [part_hasNode (by rw [h.bodies n hmem r hto id hr hall, hid, hd])]
          exact hall
      have hmissing : (r.ids.find? fun id => !(g.part side k).hasNode id) =
          r.ids.find? fun id => !g.hasNode id :=
        List.find?_congr fun id hr => by rw [hbodies id hr]
      simp only [hmissing]

end Splits

end Graph

namespace Annotate

theorem entered_part {d : Descriptor} (hd : side d.node = k) :
    entered (g.part side k) d = entered g d := by
  rw [entered, entered, Graph.part_node? hd]

theorem Complete.part (h : g.Splits side) {o : Options} {muxes : List MuxContinuations}
    (hmuxes : Complete g o muxes) (k : κ) :
    Complete (g.part side k) o (muxes.filter fun mc => side mc.mux = k) := by
  obtain ⟨all, hall, rfl⟩ := hmuxes
  refine ⟨all.filter fun mc => side mc.mux = k, ?_, ?_⟩
  · rw [Graph.part_muxes]
    have hrel : List.Forall₂ (fun m mc => Mux.continuations g m o = .ok mc)
        (g.muxes.filter fun m => side m = k) (all.filter fun mc => side mc.mux = k) := by
      refine List.rel_filter ?_ hall
      intro m mc hmc
      simp only [Mux.continuations_mux hmc]
    have hside : ∀ m ∈ g.muxes.filter (fun m => side m = k), side m = k := by
      intro m hm
      simpa using (List.mem_filter.1 hm).2
    refine ((List.forall₂_and_left _ _).2 ⟨hside, hrel⟩).imp ?_
    rintro m mc ⟨hm, hmc⟩
    rw [← (h.alikeWithin k).continuations hm o]
    exact hmc
  · rw [List.filter_filter, List.filter_filter]
    simp only [Bool.and_comm]

section
variable {muxes : List MuxContinuations}
  (hside : ∀ mc ∈ muxes, ∀ d ∈ mc.continuations, side d.node = side mc.mux)
include hside

theorem filter_targets :
    ((muxes.flatMap MuxContinuations.continuations).filter fun d => side d.node = k) =
      (muxes.filter fun mc => side mc.mux = k).flatMap MuxContinuations.continuations :=
  filter_flatMap_of_forall fun mc hmc d hd => by rw [hside mc hmc d hd]

theorem filter_links :
    ((links muxes).filter fun e => side e.source = k ∧ side e.target = k) =
      links (muxes.filter fun mc => side mc.mux = k) := by
  apply filter_flatMap_of_forall
  intro mc hmc e he
  obtain ⟨d, hd, rfl⟩ := List.mem_map.1 he
  simp [link, hside mc hmc d hd]

/-- A node is marked as its side of the findings says. -/
theorem mark_filter (roots : List String) {n : Node} (hn : side n.id = k) :
    mark (muxes.filter fun mc => side mc.mux = k) (roots.filter fun id => side id = k) n =
      mark muxes roots n := by
  have hroots : n.id ∈ roots.filter (fun id => side id = k) ↔ n.id ∈ roots := by
    simp [hn]
  -- what is looked up under the id of a node is on the side of the node
  have hfind : ∀ {α : Type} (name : α → String) (xs : List α),
      (xs.filter fun x => side (name x) = k).find? (fun x => name x = n.id) =
        xs.find? fun x => name x = n.id := by
    intro α name xs
    apply find?_filter_of_imp
    intro x _ hx
    simpa [of_decide_eq_true hx] using hn
  have hnoted : noted (muxes.filter fun mc => side mc.mux = k)
      (roots.filter fun id => side id = k) n = noted muxes roots n := by
    unfold noted
    rw [← filter_targets hside, hfind Descriptor.node]
    simp only [hroots]
  have hlisted : listed (muxes.filter fun mc => side mc.mux = k) n = listed muxes n := by
    unfold listed
    rw [hfind MuxContinuations.mux]
  rw [mark_eq, mark_eq, hnoted, hlisted]
  simp only [hroots]

end

variable {r : Report}

/-- The roots of a part are those that the calls of the part enter. -/
theorem roots_part (h : g.Splits side)
    (hside : ∀ mc ∈ r.muxes, ∀ d ∈ mc.continuations, side d.node = side mc.mux)
    {found : List (List String)} (hfound : r.targets.mapM (bodies g) = .ok found)
    (hroots : r.roots = distinct found.flatten) (k : κ) :
    ∃ foundₖ, (r.part side k).targets.mapM (bodies (g.part side k)) = .ok foundₖ ∧
      (r.part side k).roots = distinct foundₖ.flatten := by
  have htargets : (r.part side k).targets = r.targets.filter fun d => side d.node = k :=
    (filter_targets hside).symm
  have hwhole := exists_mapM_eq_ok_iff.1 ⟨found, hfound⟩
  have hpart : ∀ d ∈ (r.part side k).targets, ∃ ids, bodies (g.part side k) d = .ok ids := by
    intro d hd
    rw [htargets, List.mem_filter, decide_eq_true_eq] at hd
    rw [h.bodies_part hd.2]
    exact hwhole d hd.1
  obtain ⟨foundₖ, hfoundₖ⟩ := exists_mapM_eq_ok_iff.2 hpart
  refine ⟨foundₖ, hfoundₖ, ?_⟩
  have hentered : ((r.targets.flatMap (entered g)).filter fun id => side id = k) =
      (r.part side k).targets.flatMap (entered (g.part side k)) := by
    rw [htargets, filter_flatMap_of_forall (p := fun d => side d.node = k)]
    · apply List.flatMap_congr
      intro d hd
      rw [entered_part (by simpa using (List.mem_filter.1 hd).2)]
    · intro d hd id hid
      obtain ⟨_, hok⟩ := hwhole d hd
      rw [h.side_of_mem_entered hok id hid]
  calc r.roots.filter (fun id => side id = k)
      = (distinct (r.targets.flatMap (entered g))).filter fun id => side id = k := by
        rw [hroots, flatten_bodies hfound]
    _ = distinct ((r.targets.flatMap (entered g)).filter fun id => side id = k) :=
        filter_distinctBy id fun x _ y _ hxy => by rw [show x = y from hxy]
    _ = distinct foundₖ.flatten := by rw [hentered, flatten_bodies hfoundₖ]

/-- Where names are kept apart, rebuilding a part gives the part of what is rebuilt. -/
theorem rebuild_part (h : g.Splits side)
    (hside : ∀ mc ∈ r.muxes, ∀ d ∈ mc.continuations, side d.node = side mc.mux)
    (hsep : Separate g r side) {out : Graph} (hout : rebuild g r.muxes r.roots = .ok out) (k : κ) :
    rebuild (g.part side k) (r.part side k).muxes (r.part side k).roots =
      .ok (out.part side k) := by
  obtain ⟨hnodes, hedges⟩ := rebuild_eq_ok_iff.1 hout
  refine rebuild_eq_ok_iff.2 ⟨?_, ?_⟩
  · change (out.nodes.filter fun n => side n.id = k) = _
    have hid : ((fun n : Node => decide (side n.id = k)) ∘ mark r.muxes r.roots) =
        fun n => decide (side n.id = k) := by
      funext n
      simp
    rw [hnodes, List.filter_map, hid]
    apply List.map_congr_left
    intro n hn
    exact (mark_filter hside r.roots (by simpa using (List.mem_filter.1 hn).2)).symm
  · change (out.edges.filter fun e => side e.source = k ∧ side e.target = k) =
      Edge.overlay (g.edges.filter _) (links (r.muxes.filter _))
    rw [hedges, ← filter_links hside]
    apply Edge.filter_overlay_of_names
    intro a ha b hb hname
    have hsource : side a.source = side b.source := by
      rcases List.mem_append.1 ha with ha' | ha'
      · rcases List.mem_append.1 hb with hb' | hb'
        · rw [List.inj_on_of_nodup_map g.names_nodup ha' hb' hname]
        · exact hsep b hb' a ha hname
      · exact (hsep a ha' b hb hname.symm).symm
    rw [← h.side_of_mem_edges hside a ha, ← h.side_of_mem_edges hside b hb, hsource]

end Annotate

/-- Two recursive functions that are written into the gaps of each other. -/
def interleaved : Graph where
  nodes :=
    [Node.function "f" false, Node.function "F" false, Node.call "c" ["f"], Node.selector "M",
      Node.selector "m", Node.call "C" ["F"]]
  edges :=
    [Edge.wire "f" "n" "m" "control", Edge.wire "F" "n" "C" "n", Edge.wire "f" "n" "m" "input1",
      Edge.wire "C" "o" "M" "input1", Edge.wire "f" "n" "c" "n", Edge.wire "F" "n" "M" "control",
      Edge.wire "c" "o" "m" "input2", Edge.wire "M" "o" "F" "v", Edge.wire "F" "n" "M" "input2",
      Edge.wire "m" "o" "f" "v"]
  id_ne_empty := by decide
  ids_nodup := by decide
  kind_eq_mux := by decide
  name_ne_empty := by decide
  names_nodup := by decide
  closed := by decide

/-- The nodes of the function in capitals. -/
def inCapitals (id : String) : Bool := id ∈ ["F", "C", "M"]

end MuxFlow
