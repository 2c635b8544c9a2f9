import MuxFlow.Proofs.Annotate.Stages

/-!
# Why a run is refused

A run is refused because of its options, because of a port that a mux does not
declare, or because of a recursive call behind a mux that does not say what it enters
or says something that does not exist; in each case the first of them counts
(`Annotate.Refused`), or of several undeclared ports some other when several workers look
for them. There are many more places where a run could stop, such as the
look-ups of nodes on the way of a walk, the check that a path starts at the mux, and
the checks of the builder when the copy is put together. None of them is ever the
place (`Annotate.Unfailing`).
-/

namespace MuxFlow

/-- The ports that muxes do not declare, mux by mux. -/
def Graph.undeclared (g : Graph) : List (String × MuxPort) :=
  (g.nodes.filter Node.isMux).flatMap fun n => n.undeclared.map fun x => (n.id, x)

theorem Graph.undeclared_ne_nil_iff {g : Graph} :
    g.undeclared ≠ [] ↔ ∃ n ∈ g.nodes, n.isMux = true ∧ ∃ x : MuxPort, n.direction x.name = .none := by
  constructor
  · intro h
    obtain ⟨⟨m, x⟩, hmem⟩ := List.exists_mem_of_ne_nil _ h
    obtain ⟨n, hn, hx⟩ := List.mem_flatMap.1 hmem
    obtain ⟨hmem, hmux⟩ := List.mem_filter.1 hn
    obtain ⟨x, hx, _⟩ := List.mem_map.1 hx
    exact ⟨n, hmem, hmux, x, Node.mem_undeclared.1 hx⟩
  · rintro ⟨n, hn, hmux, x, hx⟩
    apply List.ne_nil_of_mem (a := (n.id, x))
    exact List.mem_flatMap.2 ⟨n, List.mem_filter.2 ⟨hn, hmux⟩,
      List.mem_map.2 ⟨x, Node.mem_undeclared.2 hx, rfl⟩⟩

namespace Annotate

/-- A recursive call that does not say what it enters, or enters what does not
exist. -/
def Astray (g : Graph) (n : Node) : Prop :=
  n.recursive = true ∧
    (n.recursesTo = none ∨ ∃ r, n.recursesTo = some r ∧ ∃ id ∈ r.ids, g.hasNode id = false)

/-- What is wrong with a node that is such a call, in the order of the bodies. -/
def strayFaults (g : Graph) (n : Node) : List Fault :=
  if n.recursive then
    match n.recursesTo with
    | none => [noRecursesTo n.id]
    | some r => (r.ids.filter fun id => !g.hasNode id).map (missingBody n.id)
  else []

/-- What is wrong with the node of a continuation. -/
def targetFaults (g : Graph) (d : Descriptor) : List Fault :=
  ((g.node? d.node).map (strayFaults g)).getD []

theorem strayFaults_ne_nil_iff {g : Graph} {n : Node} : strayFaults g n ≠ [] ↔ Astray g n := by
  unfold strayFaults Astray
  by_cases hrec : n.recursive = true
  · cases hto : n.recursesTo with
    | none => simp [hrec]
    | some r => simp [hrec]
  · simp [hrec]

theorem targetFaults_ne_nil_iff {g : Graph} {d : Descriptor} :
    targetFaults g d ≠ [] ↔ ∃ n ∈ g.nodes, n.id = d.node ∧ Astray g n := by
  unfold targetFaults
  cases hnode : g.node? d.node with
  | none =>
      have hnone : ∀ n ∈ g.nodes, n.id ≠ d.node := by simpa using List.find?_eq_none.1 hnode
      simpa using fun n hn hid _ => hnone n hn hid
  | some n =>
      obtain ⟨hn, hid⟩ := g.node?_eq_some_iff.1 hnode
      constructor
      · intro h
        exact ⟨n, hn, hid, strayFaults_ne_nil_iff.1 h⟩
      · rintro ⟨n', hn', hid', hstray⟩
        obtain rfl := List.inj_on_of_nodup_map g.ids_nodup hn' hn (hid'.trans hid.symm)
        exact strayFaults_ne_nil_iff.2 hstray

theorem targetFaults_of_mem {g : Graph} {d : Descriptor} {n : Node} (hn : n ∈ g.nodes)
    (hid : n.id = d.node) : targetFaults g d = strayFaults g n := by
  rw [targetFaults, g.node?_eq_some_iff.2 ⟨hn, hid⟩]
  rfl

/-- A target is refused for the first thing that is wrong with it. -/
theorem bodies_eq_error_iff {g : Graph} {d : Descriptor} (hd : g.hasNode d.node = true)
    {e : Fault} : bodies g d = .error e ↔ (targetFaults g d).head? = some e := by
  obtain ⟨n, hn, hid⟩ := g.exists_node_of_hasNode hd
  rw [targetFaults_of_mem hn hid, bodies, g.node_eq_ok_iff.2 ⟨hn, hid⟩, ok_bind, strayFaults]
  by_cases hrec : n.recursive = true
  · rw [if_pos hrec, if_pos hrec]
    cases n.recursesTo with
    | none => simp
    | some r =>
        simp only [List.head?_map, List.head?_filter]
        cases r.ids.find? fun id => !g.hasNode id <;> simp
  · rw [if_neg hrec, if_neg hrec]
    simp

/-- The analysis of one mux after another is refused for the first port that a mux does
not declare. -/
theorem mapM_continuations_eq_error_iff {g : Graph} {o : Options} (hval : o.validate = .ok ())
    {e : Fault} :
    (g.muxes.mapM fun m => Mux.continuations g m o) = .error e ↔
      (g.undeclared.map fun mx => Graph.portNotFound .walk mx.1 mx.2.name).head? = some e := by
  have hfault : ∀ n ∈ g.nodes.filter Node.isMux, ∀ e, Mux.continuations g n.id o = .error e ↔
      ((n.undeclared.map fun x => (n.id, x)).map fun mx =>
        Graph.portNotFound .walk mx.1 mx.2.name).head? = some e := by
    intro n hn e
    obtain ⟨hmem, hmux⟩ := List.mem_filter.1 hn
    rw [Mux.continuations_eq_error_iff hval, Mux.inputPaths_eq_error_iff hmem hmux, List.map_map]
    rfl
  rw [Graph.undeclared, List.map_flatMap, ← mapM_eq_error_iff hfault, Graph.muxes, List.mapM_map]
  rfl

theorem exists_mapM_continuations_iff {g : Graph} {o : Options} (hval : o.validate = .ok ()) :
    (∃ all, (g.muxes.mapM fun m => Mux.continuations g m o) = .ok all) ↔ g.undeclared = [] := by
  cases hall : g.muxes.mapM fun m => Mux.continuations g m o with
  | ok all =>
      refine ⟨fun _ => ?_, fun _ => ⟨all, rfl⟩⟩
      by_contra hne
      obtain ⟨mx, rest, hports⟩ := List.exists_cons_of_ne_nil hne
      have herr := (mapM_continuations_eq_error_iff hval).2 (by rw [hports]; rfl)
      rw [hall] at herr
      cases herr
  | error e =>
      constructor
      · rintro ⟨all, ⟨⟩⟩
      · intro hports
        have hhead := (mapM_continuations_eq_error_iff hval).1 hall
        rw [hports] at hhead
        cases hhead

/-- Leaving out empty lists leaves out no entry. -/
theorem flatMap_filter_ne_nil (all : List MuxContinuations) :
    (all.filter fun mc => mc.continuations ≠ []).flatMap MuxContinuations.continuations =
      all.flatMap MuxContinuations.continuations := by
  induction all with
  | nil => rfl
  | cons mc all ih =>
      by_cases h : mc.continuations = []
      · simpa [h] using ih
      · simpa [h] using ih

/-- Why a run is refused: the options, the first port that is not declared, or, when
there is none, the first fault of a target in the order of the report. -/
inductive Refused (g : Graph) (o : Options) : Fault → Prop
  | options {e : Fault} (h : o.validate = .error e) : Refused g o e
  | port {m : String} {x : MuxPort} (hval : o.validate = .ok ())
      (h : g.undeclared.head? = some (m, x)) :
      Refused g o (Graph.portNotFound .walk m x.name)
  | target {all : List MuxContinuations} {e : Fault} (hval : o.validate = .ok ())
      (hports : g.undeclared = [])
      (hall : List.Forall₂ (fun m mc => Mux.continuations g m o = .ok mc) g.muxes all)
      (h : ((all.flatMap MuxContinuations.continuations).flatMap (targetFaults g)).head? = some e) :
      Refused g o e

/-- The stages of a run that never fail by themselves: walks from declared ports, what
is looked for on their paths, the look-up of targets, and the writing of the copy. -/
structure Unfailing (g : Graph) (o : Options) : Prop where
  walks : ∀ n ∈ g.nodes, n.isMux = true → ∀ x : MuxPort, n.direction x.name ≠ .none →
    ∃ paths, Walk.back g n.id x.name (Mux.rule n.id) = .ok paths
  findings : ∀ m paths, Mux.inputPaths g m = .ok paths →
    ∀ x, ∃ f, Mux.findings g m paths x = .ok f
  targets : ∀ m mc, Mux.continuations g m o = .ok mc → ∀ d ∈ mc.continuations,
    ∃ n, g.node d.node = .ok n
  writing : ∀ s muxes, analyse s g o = .ok muxes →
    ∀ roots, ∃ out, rebuild g muxes roots = .ok out

theorem unfailing (g : Graph) (o : Options) : Unfailing g o where
  walks n hn _ x hx := Mux.exists_back hn hx
  findings m paths h x := ⟨_, Mux.findings_eq_found h x⟩
  targets m mc h d hd := by
    obtain ⟨n, hn⟩ := g.exists_node_of_hasNode (Mux.hasNode_of_mem_continuations h hd)
    exact ⟨n, g.node_eq_ok_iff.2 hn⟩
  writing _ _ h roots := exists_rebuild_eq_ok roots (reported_of_analyse h).links_closed

variable {s : Scheduling}

/-- With options that can be honoured, a run is refused by the analysis or because of
a target. -/
theorem error_iff_of_validate {g : Graph} {o : Options} (hval : o.validate = .ok ()) {e : Fault} :
    annotate s g o = .error e ↔
      analyse s g o = .error e ∨ ∃ muxes, analyse s g o = .ok muxes ∧
        ((muxes.flatMap MuxContinuations.continuations).flatMap (targetFaults g)).head? =
          some e := by
  have htargets : ∀ muxes, analyse s g o = .ok muxes →
      ∀ d ∈ muxes.flatMap MuxContinuations.continuations, ∀ e,
        bodies g d = .error e ↔ (targetFaults g d).head? = some e := by
    intro muxes hmuxes d hd e
    obtain ⟨mc, hmc, hd⟩ := List.mem_flatMap.1 hd
    have hcont := (reported_of_analyse hmuxes mc hmc).2.1
    exact bodies_eq_error_iff (Mux.hasNode_of_mem_continuations hcont hd)
  rw [annotate, hval, ok_bind, bind_eq_error_iff]
  apply or_congr_right
  apply exists_congr
  intro muxes
  apply and_congr_right
  intro hmuxes
  rw [bind_eq_error_iff, mapM_eq_error_iff (htargets muxes hmuxes), or_iff_left]
  -- what is left is the writing of the copy
  rintro ⟨found, _, h⟩
  obtain ⟨out, hout⟩ := (unfailing g o).writing s muxes hmuxes (distinct found.flatten)
  simp only [hout, ok_bind] at h
  cases h

/-- Nothing refuses a run with one worker but what is named in `Refused`. -/
theorem error_iff_refused {g : Graph} {o : Options} (hworkers : o.workers ≤ 1) {e : Fault} :
    annotate s g o = .error e ↔ Refused g o e := by
  have hs : Steady s g o := Or.inl hworkers
  have hanalyse : analyse s g o = .error e ↔
      (g.muxes.mapM fun m => Mux.continuations g m o) = .error e := by
    rw [analyse_eq_error_iff, lists, if_pos hworkers]
  constructor
  · intro h
    cases hval : o.validate with
    | error e' =>
        rw [annotate, hval] at h
        obtain rfl : e' = e := Except.error.inj h
        exact Refused.options hval
    | ok _ =>
        rcases (error_iff_of_validate hval).1 h with h | ⟨muxes, hmuxes, h⟩
        · rw [hanalyse, mapM_continuations_eq_error_iff hval, List.head?_map,
            Option.map_eq_some_iff] at h
          obtain ⟨⟨m, x⟩, hhead, rfl⟩ := h
          exact Refused.port hval hhead
        · obtain ⟨all, hall, rfl⟩ := hs.analyse_eq_ok_iff.1 hmuxes
          have hports := (exists_mapM_continuations_iff hval).1 ⟨all, mapM_eq_ok_iff.2 hall⟩
          rw [flatMap_filter_ne_nil] at h
          exact Refused.target hval hports hall h
  · intro h
    cases h with
    | options hval =>
        rw [annotate, hval]
        rfl
    | port hval h =>
        apply (error_iff_of_validate hval).2
        rw [hanalyse, mapM_continuations_eq_error_iff hval, List.head?_map, h]
        exact Or.inl rfl
    | target hval hports hall h =>
        apply (error_iff_of_validate hval).2
        rw [← flatMap_filter_ne_nil] at h
        exact Or.inr ⟨_, hs.analyse_eq_ok_iff.2 ⟨_, hall, rfl⟩, h⟩

/-- What may refuse a run: its options, a mux that lacks one of its three ports, or a
recursive call behind a mux that goes astray. -/
def Refusable (g : Graph) (o : Options) : Prop :=
  (∃ e, o.validate = .error e) ∨
  (∃ n ∈ g.nodes, n.isMux = true ∧ ∃ x : MuxPort, n.direction x.name = .none) ∨
  ∃ m ∈ g.muxes, ∃ mc, Mux.continuations g m o = .ok mc ∧ ∃ d ∈ mc.continuations,
    ∃ n ∈ g.nodes, n.id = d.node ∧ Astray g n

theorem refusable_of_error {g : Graph} {o : Options} {e : Fault}
    (h : annotate s g o = .error e) : Refusable g o := by
  cases hval : o.validate with
  | error e' => exact Or.inl ⟨e', hval⟩
  | ok _ =>
      rcases (error_iff_of_validate hval).1 h with h | ⟨muxes, hmuxes, hhead⟩
      · obtain ⟨m, hm, herr⟩ := exists_mux_of_lists (analyse_eq_error_iff.1 h)
        have hports : g.undeclared ≠ [] := by
          intro hnil
          obtain ⟨mc, hmc⟩ :=
            exists_mapM_eq_ok_iff.1 ((exists_mapM_continuations_iff hval).2 hnil) m hm
          cases herr.symm.trans hmc
        exact Or.inr (Or.inl (Graph.undeclared_ne_nil_iff.1 hports))
      · obtain ⟨d, hd, hfault⟩ := List.mem_flatMap.1 (List.mem_of_mem_head? hhead)
        obtain ⟨mc, hmc, hd⟩ := List.mem_flatMap.1 hd
        obtain ⟨hm, hcont, _⟩ := reported_of_analyse hmuxes mc hmc
        have hstray := targetFaults_ne_nil_iff.1 (List.ne_nil_of_mem hfault)
        exact Or.inr (Or.inr ⟨mc.mux, hm, mc, hcont, d, hd, hstray⟩)

theorem Steady.not_refusable_of_ok {g : Graph} {o : Options} (hs : Steady s g o)
    {x : Graph × Report} (h : annotate s g o = .ok x) : ¬Refusable g o := by
  obtain ⟨hval, hmuxes, ⟨found, hfound, _⟩, _, _⟩ := annotate_eq_ok_iff.1 h
  have hcomplete := hs.analyse_eq_ok_iff.1 hmuxes
  rintro (⟨e, herr⟩ | hports | ⟨m, hm, mc, hcont, d, hd, hstray⟩)
  · rw [hval] at herr
    cases herr
  · obtain ⟨all, hall, _⟩ := hcomplete
    exact Graph.undeclared_ne_nil_iff.2 hports
      ((exists_mapM_continuations_iff hval).1 ⟨all, mapM_eq_ok_iff.2 hall⟩)
  · obtain rfl := Mux.continuations_mux hcont
    have hmem := (hcomplete.mem_iff mc).2 ⟨hm, hcont, List.ne_nil_of_mem hd⟩
    obtain ⟨ids, hids⟩ := exists_mapM_eq_ok_iff.1 ⟨found, hfound⟩ d
      (List.mem_flatMap.2 ⟨mc, hmem, hd⟩)
    obtain ⟨e, rest, hfaults⟩ := List.exists_cons_of_ne_nil (targetFaults_ne_nil_iff.2 hstray)
    have herror := (bodies_eq_error_iff (Mux.hasNode_of_mem_continuations hcont hd)).2
      (by rw [hfaults]; rfl)
    rw [hids] at herror
    cases herror

end Annotate

/-- Two muxes, the second without ports. -/
def lopsided : Graph where
  nodes := [Node.selector "m", { id := "n", component := muxComponent, kind := .mux }]
  edges := []
  id_ne_empty := by decide
  ids_nodup := by decide
  kind_eq_mux := by decide
  name_ne_empty := by decide
  names_nodup := List.nodup_nil
  closed := by decide

end MuxFlow
