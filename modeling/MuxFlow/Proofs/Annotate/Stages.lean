import MuxFlow.Continuation.Annotate
import MuxFlow.Proofs.Continuation.Findings
import MuxFlow.Proofs.TaskGroup

/-!
# The stages of an annotation run

A run goes through four stages: it analyses the muxes, looks up the bodies that
the continuations enter, marks the nodes and places the links. Here is what each
stage does, one statement for each, and `annotate_eq_ok_iff` puts them together.
Nothing later looks into the definitions of the stages again.

What the analysis reports is the list of some mux each time, whatever the scheduling
(`Annotate.Reported`). That it reports every mux for which something was found, and
each once, in node order (`Annotate.Complete`), is sure when the run does not depend on
the scheduling: when there is one worker, when tasks have variables of their own, or when
there is one mux at most (`Annotate.Steady`).
-/

namespace MuxFlow

/-- All continuations that a run reports, mux by mux. -/
def Report.targets (r : Report) : List Descriptor :=
  r.muxes.flatMap MuxContinuations.continuations

theorem Mux.continuations_mux {g : Graph} {m : String} {o : Options} {mc : MuxContinuations}
    (h : Mux.continuations g m o = .ok mc) : mc.mux = m := by
  obtain ⟨_, _, h⟩ := bind_eq_ok_iff.1 h
  obtain ⟨_, _, h⟩ := bind_eq_ok_iff.1 h
  obtain ⟨_, _, h⟩ := bind_eq_ok_iff.1 h
  obtain rfl := Except.ok.inj h
  rfl

namespace Annotate

/-- Every list of a report is that of a mux, and there is something in it. -/
def Reported (g : Graph) (o : Options) (muxes : List MuxContinuations) : Prop :=
  ∀ mc ∈ muxes, mc.mux ∈ g.muxes ∧ Mux.continuations g mc.mux o = .ok mc ∧
    mc.continuations ≠ []

/-- A report has the lists of all muxes for which something was found, in order. -/
def Complete (g : Graph) (o : Options) (muxes : List MuxContinuations) : Prop :=
  ∃ all, List.Forall₂ (fun m mc => Mux.continuations g m o = .ok mc) g.muxes all ∧
    muxes = all.filter fun mc => mc.continuations ≠ []

/-- What a run comes to is not up to the schedule of its tasks. -/
def Steady (s : Scheduling) (g : Graph) (o : Options) : Prop :=
  o.workers ≤ 1 ∨ s.loopVars = .own ∨ g.muxes.length ≤ 1

instance (s : Scheduling) (g : Graph) (o : Options) : Decidable (Steady s g o) :=
  inferInstanceAs (Decidable (_ ∨ _))

variable {s : Scheduling}

theorem Complete.mem_iff {g : Graph} {o : Options} {muxes : List MuxContinuations}
    (h : Complete g o muxes) (mc : MuxContinuations) :
    mc ∈ muxes ↔ mc.mux ∈ g.muxes ∧ Mux.continuations g mc.mux o = .ok mc ∧
      mc.continuations ≠ [] := by
  obtain ⟨all, hall, rfl⟩ := h
  rw [List.mem_filter, decide_eq_true_eq]
  constructor
  · rintro ⟨hmc, hne⟩
    obtain ⟨m, hmem, hm⟩ := exists_of_mem_right hall hmc
    rw [Mux.continuations_mux hm]
    exact ⟨hmem, hm, hne⟩
  · rintro ⟨hmux, hm, hne⟩
    refine ⟨?_, hne⟩
    obtain ⟨mc', hmem, hm'⟩ := exists_of_mem_left hall hmux
    rw [hm] at hm'
    rw [Except.ok.inj hm']
    exact hmem

theorem Complete.reported {g : Graph} {o : Options} {muxes : List MuxContinuations}
    (h : Complete g o muxes) : Reported g o muxes :=
  fun mc hmc => (h.mem_iff mc).1 hmc

theorem analyse_eq_ok_iff {g : Graph} {o : Options} {muxes : List MuxContinuations} :
    analyse s g o = .ok muxes ↔
      ∃ all, lists s g o = .ok all ∧ muxes = all.filter fun mc => mc.continuations ≠ [] := by
  unfold analyse
  rw [bind_eq_ok_iff]
  apply exists_congr
  intro all
  have hfilter : (all.filter fun mc => !mc.continuations.isEmpty) =
      all.filter fun mc => mc.continuations ≠ [] := by
    apply List.filter_congr
    intro mc _
    cases mc.continuations <;> simp
  rw [hfilter, Except.ok.injEq, eq_comm (b := muxes)]

theorem analyse_eq_error_iff {g : Graph} {o : Options} {e : Fault} :
    analyse s g o = .error e ↔ lists s g o = .error e := by
  rw [analyse, bind_eq_error_iff, or_iff_left]
  rintro ⟨all, _, h⟩
  cases h

/-- A list that comes out is that of a mux, unless it is the blank of a mux that was
passed over. -/
theorem of_mem_lists {g : Graph} {o : Options} {all : List MuxContinuations}
    (h : lists s g o = .ok all) {mc : MuxContinuations} (hmc : mc ∈ all) :
    mc = ⟨"", []⟩ ∨ ∃ m ∈ g.muxes, Mux.continuations g m o = .ok mc := by
  unfold lists at h
  split at h
  · exact Or.inr (exists_of_mem_right (mapM_eq_ok_iff.1 h) hmc)
  · exact ((tasks s.loopVars g o).of_outcome_eq_ok h).2 mc hmc

theorem exists_mux_of_lists {g : Graph} {o : Options} {e : Fault}
    (h : lists s g o = .error e) : ∃ m ∈ g.muxes, Mux.continuations g m o = .error e := by
  unfold lists at h
  split at h
  · exact exists_of_mapM_eq_error h
  · exact (tasks s.loopVars g o).of_outcome_eq_error h

theorem reported_of_analyse {g : Graph} {o : Options} {muxes : List MuxContinuations}
    (h : analyse s g o = .ok muxes) : Reported g o muxes := by
  obtain ⟨all, hall, rfl⟩ := analyse_eq_ok_iff.1 h
  intro mc hmc
  obtain ⟨hmem, hne⟩ := List.mem_filter.1 hmc
  rw [decide_eq_true_eq] at hne
  rcases of_mem_lists hall hmem with rfl | ⟨m, hm, hcont⟩
  · exact absurd rfl hne
  · rw [Mux.continuations_mux hcont]
    exact ⟨hm, hcont, hne⟩

theorem Steady.lists_eq_ok_iff {g : Graph} {o : Options} (hs : Steady s g o)
    {all : List MuxContinuations} :
    lists s g o = .ok all ↔ (g.muxes.mapM fun m => Mux.continuations g m o) = .ok all := by
  unfold lists
  split
  · rfl
  · next hworkers =>
      have hlimit : 0 < (tasks s.loopVars g o).limit := by
        change 0 < o.workers.toNat
        omega
      have hsteady : (tasks s.loopVars g o).Steady := hs.resolve_left hworkers
      exact hsteady.outcome_eq_ok_iff hlimit s.turns

theorem Steady.analyse_eq_ok_iff {g : Graph} {o : Options} (hs : Steady s g o)
    {muxes : List MuxContinuations} : analyse s g o = .ok muxes ↔ Complete g o muxes := by
  simp only [Annotate.analyse_eq_ok_iff, hs.lists_eq_ok_iff, mapM_eq_ok_iff, Complete]

theorem Steady.analyse_eq {s s' : Scheduling} {g : Graph} {o : Options}
    {muxes : List MuxContinuations} (hs : Steady s g o) (hs' : Steady s' g o)
    (h : analyse s g o = .ok muxes) : analyse s' g o = .ok muxes :=
  hs'.analyse_eq_ok_iff.2 (hs.analyse_eq_ok_iff.1 h)

/-- The bodies that the node of a continuation may enter, whether or not they
exist. -/
def entered (g : Graph) (d : Descriptor) : List String :=
  match g.node? d.node with
  | some n => if n.recursive then (n.recursesTo.map RecursesTo.ids).getD [] else []
  | none => []

/-- The bodies of a continuation are found when its node exists and, for a
recursive call, when it says what it enters and all of that exists. -/
theorem bodies_eq_ok_iff {g : Graph} {d : Descriptor} {ids : List String} :
    bodies g d = .ok ids ↔
      ids = entered g d ∧ ∃ n ∈ g.nodes, n.id = d.node ∧
        (n.recursive → ∃ r, n.recursesTo = some r ∧ ∀ id ∈ r.ids, g.hasNode id) := by
  -- the same node is looked up on both sides
  have hnode : (ids = entered g d ∧ ∃ n ∈ g.nodes, n.id = d.node ∧
        (n.recursive → ∃ r, n.recursesTo = some r ∧ ∀ id ∈ r.ids, g.hasNode id)) ↔
      ∃ n, g.node d.node = .ok n ∧ ids = entered g d ∧
        (n.recursive → ∃ r, n.recursesTo = some r ∧ ∀ id ∈ r.ids, g.hasNode id) := by
    simp only [g.node_eq_ok_iff]
    constructor
    · rintro ⟨hids, n, hmem, hid, hto⟩
      exact ⟨n, ⟨hmem, hid⟩, hids, hto⟩
    · rintro ⟨n, ⟨hmem, hid⟩, hids, hto⟩
      exact ⟨hids, n, hmem, hid, hto⟩
  unfold bodies
  rw [bind_eq_ok_iff, hnode]
  apply exists_congr
  intro n
  apply and_congr_right
  intro hn
  simp only [entered, g.node?_eq_some_iff.2 (g.node_eq_ok_iff.1 hn)]
  -- the cases are those of what the node says
  by_cases hrec : n.recursive = true
  · rw [if_pos hrec, if_pos hrec]
    cases hto : n.recursesTo with
    | none => simp [hrec]
    | some r =>
        simp only [hrec, true_implies, Option.some.injEq, exists_eq_left', Option.map_some,
          Option.getD_some]
        cases hfind : r.ids.find? fun id => !g.hasNode id with
        | none =>
            have hall : ∀ id ∈ r.ids, g.hasNode id = true := by
              simpa using List.find?_eq_none.1 hfind
            rw [and_iff_left hall, Except.ok.injEq]
            exact eq_comm
        | some id =>
            have hmem := List.mem_of_find?_eq_some hfind
            have hmiss : g.hasNode id = false := by simpa using List.find?_some hfind
            simp only [reduceCtorEq, false_iff, not_and]
            intro _ hall
            rw [hall id hmem] at hmiss
            cases hmiss
  · rw [if_neg hrec, if_neg hrec, Except.ok.injEq]
    constructor
    · rintro rfl
      exact ⟨rfl, fun h => absurd h hrec⟩
    · rintro ⟨rfl, _⟩
      rfl

/-- The mark that a run leaves on a node: that of a body for a root, else the
first continuation that names the node, else what was there. -/
def noted (muxes : List MuxContinuations) (roots : List String) (n : Node) : Option Mark :=
  if n.id ∈ roots then some .body
  else
    match (muxes.flatMap MuxContinuations.continuations).find? fun d => d.node = n.id with
    | some d => some (.descriptor d)
    | none => n.mark

/-- The list that a run leaves on a node: that of a reported mux, else what was
there. -/
def listed (muxes : List MuxContinuations) (n : Node) : List Descriptor :=
  match muxes.find? fun mc => mc.mux = n.id with
  | some mc => mc.continuations
  | none => n.continuations

theorem Reported.listed_eq {g : Graph} {o : Options} {muxes : List MuxContinuations}
    (h : Reported g o muxes) {n : Node} {mc : MuxContinuations} (hmc : mc ∈ muxes)
    (hid : mc.mux = n.id) : listed muxes n = mc.continuations := by
  unfold listed
  cases hf : muxes.find? fun x => x.mux = n.id with
  | none =>
      have hnone : ∀ x ∈ muxes, x.mux ≠ n.id := by simpa using List.find?_eq_none.1 hf
      exact absurd hid (hnone mc hmc)
  | some x =>
      -- the analysis is a function, so the list found is the list given
      have hx : x.mux = n.id := by simpa using List.find?_some hf
      have hcont := (h x (List.mem_of_find?_eq_some hf)).2.1
      rw [hx, ← hid, (h mc hmc).2.1] at hcont
      rw [Except.ok.inj hcont]

theorem listed_of_forall_ne {muxes : List MuxContinuations} {n : Node}
    (h : ∀ mc ∈ muxes, mc.mux ≠ n.id) : listed muxes n = n.continuations := by
  have hnone : muxes.find? (fun mc => mc.mux = n.id) = none :=
    List.find?_eq_none.2 fun mc hmc => by simpa using h mc hmc
  rw [listed, hnone]

/-- Looking up a mux in a complete report gives the list that the analysis of the mux
gives, when it has something in it. -/
theorem Complete.listed_eq {g : Graph} {o : Options} {muxes : List MuxContinuations}
    (h : Complete g o muxes) {n : Node} {mc : MuxContinuations} (hn : n.id ∈ g.muxes)
    (hmc : Mux.continuations g n.id o = .ok mc) :
    listed muxes n = if mc.continuations = [] then n.continuations else mc.continuations := by
  have hmux : mc.mux = n.id := Mux.continuations_mux hmc
  split
  · next hempty =>
      apply listed_of_forall_ne
      intro x hx hid
      obtain ⟨_, hcont, hne⟩ := (h.mem_iff x).1 hx
      rw [hid, hmc] at hcont
      exact hne (Except.ok.inj hcont ▸ hempty)
  · next hne =>
      exact h.reported.listed_eq ((h.mem_iff mc).2 ⟨hmux ▸ hn, hmux ▸ hmc, hne⟩) hmux

/-- Marking a node writes three fields. -/
theorem mark_eq (muxes : List MuxContinuations) (roots : List String) (n : Node) :
    mark muxes roots n =
      { n with
        recursiveRoot := n.recursiveRoot || decide (n.id ∈ roots)
        mark := noted muxes roots n
        continuations := listed muxes n } := by
  unfold mark
  extract_lets targets n'
  have hfirst : n' =
      { n with
        recursiveRoot := n.recursiveRoot || decide (n.id ∈ roots)
        mark := noted muxes roots n } := by
    unfold n' noted
    by_cases hroot : n.id ∈ roots
    · simp [hroot]
    · cases targets.find? fun d => d.node = n.id <;> simp [hroot]
  clear_value n'
  subst hfirst
  unfold listed
  cases muxes.find? fun mc => mc.mux = n.id <;> rfl

@[simp] theorem mark_id (muxes : List MuxContinuations) (roots : List String) (n : Node) :
    (mark muxes roots n).id = n.id := by
  rw [mark_eq]

@[simp] theorem map_mark_ids (muxes : List MuxContinuations) (roots : List String)
    (ns : List Node) : (ns.map (mark muxes roots)).map Node.id = ns.map Node.id := by
  simp

theorem settled_mark (muxes : List MuxContinuations) (roots : List String) {n : Node}
    (h : n.settled = n) : (mark muxes roots n).settled = mark muxes roots n := by
  rw [mark_eq]
  unfold Node.settled at h ⊢
  split
  · next hc =>
      rw [if_pos hc] at h
      rw [← h]
  · rfl

theorem link_name_ne_empty (mux : String) (d : Descriptor) : (link mux d).name ≠ "" :=
  Edge.continuationName_ne_empty mux d.node d.port

/-- The names that links take. -/
def linkNames (muxes : List MuxContinuations) : List String := (links muxes).map Edge.name

theorem mem_links {muxes : List MuxContinuations} {e : Edge} :
    e ∈ links muxes ↔ ∃ mc ∈ muxes, ∃ d ∈ mc.continuations, link mc.mux d = e := by
  simp [links]

/-- Rebuilding comes down to building from the marked nodes and the edges with the
links placed among them. -/
theorem exists_rebuild_eq_build (g : Graph) (muxes : List MuxContinuations)
    (roots : List String) :
    ∃ b : Builder, rebuild g muxes roots = b.build ∧
      b.nodes = g.nodes.map (mark muxes roots) ∧
      b.edges = Edge.overlay g.edges (links muxes) := by
  have hid : ∀ n ∈ g.nodes.map (mark muxes roots), n.id ≠ "" := by
    intro n hn
    obtain ⟨m, hm, rfl⟩ := List.mem_map.1 hn
    rw [mark_id]
    exact g.id_ne_empty m hm
  have hset : ∀ n ∈ g.nodes.map (mark muxes roots), n.settled = n := by
    intro n hn
    obtain ⟨m, hm, rfl⟩ := List.mem_map.1 hn
    exact settled_mark muxes roots (g.settled_of_mem hm)
  have hnd : ((Builder.empty.nodes ++ g.nodes.map (mark muxes roots)).map Node.id).Nodup := by
    rw [show Builder.empty.nodes = [] from rfl, List.nil_append, map_mark_ids]
    exact g.ids_nodup
  have hnames : ∀ e ∈ g.edges ++ links muxes, e.name ≠ "" := by
    intro e he
    rcases List.mem_append.1 he with he | he
    · exact g.name_ne_empty e he
    · obtain ⟨mc, _, d, _, rfl⟩ := mem_links.1 he
      exact link_name_ne_empty mc.mux d
  obtain ⟨b, hb, hnodes, hedges⟩ := Builder.foldlM_addNode _ Builder.empty hid hnd
  refine ⟨(g.edges ++ links muxes).foldl Builder.addEdge b, ?_, ?_, ?_⟩
  · rw [rebuild, hb, ok_bind]
  · rw [Builder.foldl_addEdge_nodes, hnodes, Builder.map_settled hset]
    rfl
  · rw [Builder.foldl_addEdge_edges _ _ hnames, hedges, List.foldl_append, Edge.foldl_place,
      Edge.foldl_place, show Builder.empty.edges = [] from rfl,
      Edge.overlay_nil_of_nodup g.names_nodup]

theorem rebuild_eq_ok_iff {g out : Graph} {muxes : List MuxContinuations}
    {roots : List String} :
    rebuild g muxes roots = .ok out ↔
      out.nodes = g.nodes.map (mark muxes roots) ∧
        out.edges = Edge.overlay g.edges (links muxes) := by
  obtain ⟨b, hb, hnodes, hedges⟩ := exists_rebuild_eq_build g muxes roots
  rw [hb, Builder.build_eq_ok_iff]
  constructor
  · rintro rfl
    exact ⟨hnodes, hedges⟩
  · rintro ⟨hn, he⟩
    exact Builder.eq_of_parts (hn.trans hnodes.symm) (he.trans hedges.symm)

theorem exists_rebuild_eq_ok {g : Graph} {muxes : List MuxContinuations} (roots : List String)
    (h : ∀ e ∈ links muxes, g.hasNode e.source ∧ g.hasNode e.target) :
    ∃ out, rebuild g muxes roots = .ok out := by
  obtain ⟨b, hb, hnodes, hedges⟩ := exists_rebuild_eq_build g muxes roots
  have hhas : ∀ id, b.hasNode id = g.hasNode id := by
    intro id
    rw [Bool.eq_iff_iff, Builder.hasNode_iff, Builder.hasNode_iff, hnodes, map_mark_ids]
  rw [hb]
  apply b.exists_build_eq_ok
  intro e he
  rw [hhas, hhas]
  rw [hedges] at he
  rcases Edge.mem_overlay.1 he with ⟨he, _⟩ | he
  · exact g.closed e he
  · exact h e (Edge.mem_of_latest? he)

/-- A link joins two nodes of the graph. -/
theorem Reported.links_closed {g : Graph} {o : Options} {muxes : List MuxContinuations}
    (h : Reported g o muxes) :
    ∀ e ∈ links muxes, g.hasNode e.source ∧ g.hasNode e.target := by
  intro e he
  obtain ⟨mc, hmc, d, hd, rfl⟩ := mem_links.1 he
  obtain ⟨hmux, hcont, _⟩ := h mc hmc
  obtain ⟨n, hn, _, hid⟩ := g.mem_muxes_iff.1 hmux
  constructor
  · change g.hasNode mc.mux = true
    exact hid ▸ g.hasNode_of_mem hn
  · exact Mux.hasNode_of_mem_continuations hcont hd

end Annotate

/-- A run that succeeds has gone through all stages, and its report says what they
gave. -/
theorem annotate_eq_ok_iff {s : Scheduling} {g out : Graph} {o : Options} {r : Report} :
    annotate s g o = .ok (out, r) ↔
      o.validate = .ok () ∧ Annotate.analyse s g o = .ok r.muxes ∧
        (∃ found, r.targets.mapM (Annotate.bodies g) = .ok found ∧
          r.roots = distinct found.flatten) ∧
        r.edges = (Annotate.links r.muxes).length ∧
        Annotate.rebuild g r.muxes r.roots = .ok out := by
  unfold annotate
  constructor
  · intro h
    obtain ⟨_, hval, h⟩ := bind_eq_ok_iff.1 h
    obtain ⟨muxes, hmuxes, h⟩ := bind_eq_ok_iff.1 h
    obtain ⟨found, hfound, h⟩ := bind_eq_ok_iff.1 h
    obtain ⟨out', hout, h⟩ := bind_eq_ok_iff.1 h
    obtain ⟨rfl, rfl⟩ := Prod.mk.inj (Except.ok.inj h)
    exact ⟨hval, hmuxes, ⟨found, hfound, rfl⟩, rfl, hout⟩
  · rintro ⟨hval, hmuxes, ⟨found, hfound, hroots⟩, hedges, hout⟩
    refine bind_eq_ok_iff.2 ⟨(), hval, bind_eq_ok_iff.2 ⟨r.muxes, hmuxes,
      bind_eq_ok_iff.2 ⟨found, hfound, bind_eq_ok_iff.2 ⟨out, ?_, ?_⟩⟩⟩⟩
    · rw [← hroots]
      exact hout
    · rw [← hroots, ← hedges]

theorem Annotate.Steady.annotate_eq {s s' : Scheduling} {g out : Graph} {o : Options}
    {r : Report} (hs : Steady s g o) (hs' : Steady s' g o) (h : annotate s g o = .ok (out, r)) :
    annotate s' g o = .ok (out, r) := by
  obtain ⟨hval, hmuxes, hrest⟩ := annotate_eq_ok_iff.1 h
  exact annotate_eq_ok_iff.2 ⟨hval, hs.analyse_eq hs' hmuxes, hrest⟩

/-! Parts of the small graphs on which runs are tried out, and a scheduling for them. -/

/-- Two workers that have the muxes in hand at the same time. -/
def Scheduling.crosswise : Scheduling where
  loopVars := .own
  turns := [.loop, .loop, .loop, .task 1, .task 0, .task 1, .task 0, .task 1, .task 1, .task 0]

/-- A mux with the usual ports. -/
def Node.selector (id : String) : Node :=
  { id, component := muxComponent, kind := .mux
    inputs := [⟨"control", "boolean"⟩, ⟨"input1", "any"⟩, ⟨"input2", "any"⟩]
    outputs := [⟨"o", "any"⟩] }

/-- A recursive call that enters the given bodies. -/
def Node.call (id : String) (entered : List String) : Node :=
  { id, kind := .compound, inputs := [⟨"n", "any"⟩], outputs := [⟨"o", "any"⟩]
    recursive := true, recursesTo := some ⟨some entered⟩ }

/-- The body of a function, flagged as recursive or not. -/
def Node.function (id : String) (flag : Bool) : Node :=
  { id, kind := .compound, inputs := [⟨"n", "any"⟩], outputs := [⟨"v", "any"⟩]
    recursiveRoot := flag }

/-- An edge that carries data, named after its ends. -/
def Edge.wire (source sourcePort target targetPort : String) : Edge :=
  named { source, sourcePort, target, targetPort }

/-- A recursive function that hands its argument on until it gives it back; the
body is flagged or not. -/
def countdown (flag : Bool) : Graph where
  nodes := [Node.function "f" flag, Node.call "c" ["f"], Node.selector "m"]
  edges :=
    [Edge.wire "f" "n" "m" "control", Edge.wire "f" "n" "m" "input1", Edge.wire "f" "n" "c" "n",
      Edge.wire "c" "o" "m" "input2", Edge.wire "m" "o" "f" "v"]
  id_ne_empty := by decide +revert
  ids_nodup := by decide +revert
  kind_eq_mux := by decide +revert
  name_ne_empty := by decide
  names_nodup := by decide
  closed := by decide +revert

end MuxFlow
