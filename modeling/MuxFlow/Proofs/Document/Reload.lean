import MuxFlow.Proofs.Annotate.Refusal
import MuxFlow.Proofs.Continuation.Likeness
import MuxFlow.Proofs.Document.RoundTrip
import MuxFlow.Proofs.Text.Quoted

/-!
# Saving and loading before a run

A graph that comes from a document is read back as it is, unless a node names the
target of its recursive calls without a list of bodies. Such a list is written as
nothing and read back as the list of the empty id, and no node has the empty id. So a
run on the graph that was saved and loaded is refused at the first recursive call of
this sort behind a mux, where a run on the graph itself passes over it. The two runs
agree exactly when there is no such node or when something else refuses both of them
before (`annotate_reloaded_iff`).
-/

namespace MuxFlow

/-- The kind of the node is one that a document tells from the others. -/
def Node.KindSaid (n : Node) : Prop :=
  n.kind = .compound ∨ n.kind = .atomic ∨ n.component = muxComponent

def Graph.KindsSaid (g : Graph) : Prop := ∀ n ∈ g.nodes, n.KindSaid

namespace Document

theorem NodeEntry.kind_of_node {e : NodeEntry} {n : Node} (h : e.node = .ok n) : n.KindSaid := by
  have hplain : e.plainNode.KindSaid := by
    simp only [Node.KindSaid, plainNode, Kind.resolve]
    by_cases hc : e.value.component = muxComponent
    · simp [hc]
    · cases e.value.atomic.getD true <;> simp [hc]
  unfold node at h
  split at h
  · exact Except.ok.inj h ▸ hplain
  split at h
  · cases h
  · exact Except.ok.inj h ▸ hplain

/-- A document says all there is to say of the kinds of the nodes it describes. -/
theorem kind_of_graph {d : Document} {g : Graph} (h : d.graph = .ok g) : g.KindsSaid := by
  obtain ⟨b, hb, hbuild⟩ := bind_eq_ok_iff.1 h
  have hnodes : g.nodes = b.nodes := by
    rw [(Builder.build_eq_ok_iff _ g).1 hbuild, ← List.foldl_map, Builder.foldl_addEdge_nodes]
  rw [Graph.KindsSaid, hnodes]
  refine foldlM_keeps (P := fun b : Builder => ∀ n ∈ b.nodes, n.KindSaid) ?_
    (by simp [Builder.empty]) hb
  intro b e b' hkinds hadd n hn
  obtain ⟨m, hm, hadd⟩ := bind_eq_ok_iff.1 hadd
  rw [(Builder.addNode_eq_ok_iff.1 hadd).2.1] at hn
  rcases List.mem_append.1 hn with hn | hn
  · exact hkinds n hn
  · rw [List.mem_singleton.1 hn]
    have hkind := NodeEntry.kind_of_node hm
    unfold Node.settled
    split
    · next hc => exact Or.inr (Or.inr hc)
    · exact hkind

end Document

theorem Graph.kind_of_ofJson {v : Json} {g : Graph} (h : ofJson v = .ok g) : g.KindsSaid := by
  unfold ofJson at h
  split at h
  · cases h
  · exact Document.kind_of_graph h

theorem Graph.kind_of_readJson {s : Text.Source} {g : Graph} (h : readJson s = .ok g) :
    g.KindsSaid := by
  unfold readJson ofJsonChars at h
  split at h
  · cases h
  · exact kind_of_ofJson h

theorem Node.kind_reread {n : Node} (h : n.KindSaid) : n.reread.kind = n.kind := by
  rcases h with h | h | h <;> simp [reread, h]

theorem Node.face_reread {n : Node} (h : n.KindSaid) : n.reread.face = n.face := by
  rw [face, Node.kind_reread h]
  rfl

namespace Graph

variable (g : Graph)

theorem node?_reread (id : String) : g.reread.node? id = (g.node? id).map Node.reread :=
  List.find?_map

theorem hasNode_reread (id : String) : g.reread.hasNode id = g.hasNode id := by
  rw [← isSome_node?, ← isSome_node?, node?_reread, Option.isSome_map]

theorem hasNode_empty : g.hasNode "" = false := by
  simpa [Builder.hasNode] using g.id_ne_empty

variable {g}

/-- The analysis cannot tell a graph whose kinds can be written from what is read
back of it. -/
theorem alike_reread (h : g.KindsSaid) : g.Alike g.reread where
  faces := by
    intro id
    rw [node?_reread, Option.map_map]
    cases hn : g.node? id with
    | none => rfl
    | some n => exact congrArg some (Node.face_reread (h n (g.node?_eq_some_iff.1 hn).1)).symm
  flags := by
    intro n hn n' hn' hid
    obtain ⟨m, hm, rfl⟩ := List.mem_map.1 hn'
    rw [List.inj_on_of_nodup_map g.ids_nodup hn hm hid]
    exact Or.inl rfl
  dataEdges := rfl

theorem muxes_reread (h : g.KindsSaid) : g.reread.muxes = g.muxes := by
  have hmux : ∀ n ∈ g.nodes, n.reread.isMux = n.isMux := by
    intro n hn
    rw [← Node.face_isMux, Node.face_reread (h n hn), Node.face_isMux]
  have hfilter : g.nodes.filter (Node.isMux ∘ Node.reread) = g.nodes.filter Node.isMux :=
    List.filter_congr hmux
  change ((g.nodes.map Node.reread).filter Node.isMux).map Node.id = _
  rw [List.filter_map, hfilter, List.map_map]
  rfl

end Graph

namespace Annotate

theorem analyse_reread {g : Graph} (h : g.KindsSaid) (s : Scheduling) (o : Options) :
    analyse s g.reread o = analyse s g o := by
  simp only [analyse, lists, tasks, Graph.muxes_reread h, (Graph.alike_reread h).continuations]

/-- The node of a continuation is a recursive call that names its target without a
list of bodies. -/
def Unsaid (g : Graph) (d : Descriptor) : Prop :=
  ∃ n ∈ g.nodes, n.id = d.node ∧ n.recursive = true ∧ n.recursesTo = some ⟨none⟩

theorem targetFaults_reread {g : Graph} {d : Descriptor} (h : ¬Unsaid g d) :
    targetFaults g.reread d = targetFaults g d := by
  unfold targetFaults
  rw [Graph.node?_reread, Option.map_map]
  cases hn : g.node? d.node with
  | none => rfl
  | some n =>
      obtain ⟨hmem, hid⟩ := g.node?_eq_some_iff.1 hn
      have hsaid : n.recursive = true → n.recursesTo ≠ some ⟨none⟩ :=
        fun hrec hto => h ⟨n, hmem, hid, hrec, hto⟩
      simp only [Option.map_some, Option.getD_some, Function.comp_apply, strayFaults,
        Graph.hasNode_reread, Node.reread]
      by_cases hrec : n.recursive = true
      · obtain hto | ⟨⟨_ | ids⟩, hto⟩ := Option.eq_none_or_eq_some n.recursesTo
        · rw [hto]
          rfl
        · exact absurd hto (hsaid hrec)
        · rw [hto]
          rfl
      · simp [hrec]

/-- A call without a list of bodies is a fault only where it has been read back. -/
theorem targetFaults_of_unsaid {g : Graph} {d : Descriptor} (h : Unsaid g d) :
    targetFaults g d = [] ∧ targetFaults g.reread d = [missingBody d.node ""] := by
  obtain ⟨n, hn, hid, hrec, hto⟩ := h
  have hnode := g.node?_eq_some_iff.2 ⟨hn, hid⟩
  constructor
  · simp [targetFaults, hnode, strayFaults, hrec, hto, RecursesTo.ids]
  · simp [targetFaults, Graph.node?_reread, hnode, strayFaults, Node.reread, hrec, hto,
      RecursesTo.ids, RecursesTo.reread, Graph.hasNode_reread, g.hasNode_empty, hid]

theorem missingBody_inj {call call' body body' : String}
    (h : missingBody call body = missingBody call' body') : call = call' ∧ body = body' := by
  simp only [missingBody, Fault.trouble.injEq, Trouble.mk.injEq] at h
  obtain ⟨_, _, hbody, _, hdetail⟩ := h
  have hquote : Text.quote call = Text.quote call' := by
    simpa using hdetail
  exact ⟨Text.quote_injective hquote, hbody⟩

theorem noRecursesTo_ne_missingBody (id call body : String) :
    noRecursesTo id ≠ missingBody call body := by
  intro h
  have hkind : FaultKind.invalidData = FaultKind.notFound :=
    congrArg (fun e => match e with | .trouble t => t.kind | _ => .invalidData) h
  exact absurd hkind (by decide)

/-- No other target has the fault of a call without a list of bodies. -/
theorem missingBody_not_mem_of_unsaid {g : Graph} {d x : Descriptor} (h : Unsaid g d) :
    missingBody d.node "" ∉ targetFaults g x := by
  obtain ⟨n, hn, hid, _, hto⟩ := h
  intro hmem
  unfold targetFaults at hmem
  cases hx : g.node? x.node with
  | none => simp [hx] at hmem
  | some m =>
      simp only [hx, Option.map_some, Option.getD_some, strayFaults] at hmem
      split at hmem
      · split at hmem
        · exact noRecursesTo_ne_missingBody _ _ _ (List.mem_singleton.1 hmem).symm
        · next r hr =>
            obtain ⟨id, hids, hfault⟩ := List.mem_map.1 hmem
            obtain ⟨hcall, _⟩ := missingBody_inj hfault
            -- the quoted id is that of the call itself, which names no body at all
            have hsame : m = n := List.inj_on_of_nodup_map g.ids_nodup
              (g.node?_eq_some_iff.1 hx).1 hn (hcall.trans hid.symm)
            rw [hsame, hto] at hr
            obtain rfl := Option.some.inj hr
            simp [RecursesTo.ids] at hids
      · cases hmem

/-- The first fault of the targets is the same before and after exactly when it comes
before any call without a list of bodies. -/
theorem head?_targetFaults_iff {g : Graph} (ds : List Descriptor) :
    (∃ e, (ds.flatMap (targetFaults g)).head? = some e ∧
        (ds.flatMap (targetFaults g.reread)).head? = some e) ↔
      ∃ before d after, ds = before ++ d :: after ∧ targetFaults g d ≠ [] ∧
        ∀ x ∈ before, ¬Unsaid g x := by
  induction ds with
  | nil => simp
  | cons d ds ih =>
      simp only [List.flatMap_cons, List.head?_append]
      by_cases hd : Unsaid g d
      · obtain ⟨hnone, hfault⟩ := targetFaults_of_unsaid hd
        rw [hnone, hfault]
        constructor
        · rintro ⟨e, he, he'⟩
          obtain rfl : missingBody d.node "" = e := by simpa using he'
          obtain ⟨x, _, hx⟩ := List.mem_flatMap.1 (List.mem_of_mem_head? he)
          exact absurd hx (missingBody_not_mem_of_unsaid hd)
        · rintro ⟨before, x, after, hsplit, hx, hbefore⟩
          cases before with
          | nil =>
              obtain ⟨rfl, _⟩ := List.cons.inj hsplit
              exact absurd hnone hx
          | cons y before =>
              obtain ⟨rfl, _⟩ := List.cons.inj hsplit
              exact absurd hd (hbefore d List.mem_cons_self)
      · rw [targetFaults_reread hd]
        cases hfaults : targetFaults g d with
        | cons e es =>
            constructor
            · intro _
              exact ⟨[], d, ds, rfl, by simp [hfaults], by simp⟩
            · intro _
              exact ⟨e, rfl, rfl⟩
        | nil =>
            simp only [List.head?_nil, Option.none_or, ih]
            constructor
            · rintro ⟨before, x, after, rfl, hx, hbefore⟩
              exact ⟨d :: before, x, after, rfl, hx, List.forall_mem_cons.2 ⟨hd, hbefore⟩⟩
            · rintro ⟨before, x, after, hsplit, hx, hbefore⟩
              cases before with
              | nil =>
                  obtain ⟨rfl, _⟩ := List.cons.inj hsplit
                  exact absurd hfaults hx
              | cons y before =>
                  obtain ⟨rfl, hrest⟩ := List.cons.inj hsplit
                  exact ⟨before, x, after, hrest, hx, (List.forall_mem_cons.1 hbefore).2⟩

/-- A run is refused, and not later than it comes to a recursive call without a list
of bodies: because of its options, because of a mux, or because of a target in front
of all such calls. -/
def RefusedBefore (s : Scheduling) (g : Graph) (o : Options) : Prop :=
  (∃ e, o.validate = .error e) ∨ (∃ e, analyse s g o = .error e) ∨
    ∃ muxes, analyse s g o = .ok muxes ∧
      ∃ before d after, muxes.flatMap MuxContinuations.continuations = before ++ d :: after ∧
        (∃ n ∈ g.nodes, n.id = d.node ∧ Astray g n) ∧ ∀ x ∈ before, ¬Unsaid g x

theorem recursesTo_mark (muxes : List MuxContinuations) (roots : List String) (n : Node) :
    (mark muxes roots n).recursesTo = n.recursesTo := by
  rw [mark_eq]

/-- Runs that write the same graph have read the same bodies. -/
theorem reread_eq_of_annotate {s : Scheduling} {g out : Graph} {o : Options} {r : Report}
    (h : annotate s g o = .ok (out, r)) (h' : annotate s g.reread o = .ok (out, r)) :
    ∀ n ∈ g.nodes, n.recursesTo ≠ some ⟨none⟩ := by
  obtain ⟨_, _, _, _, hout⟩ := annotate_eq_ok_iff.1 h
  obtain ⟨_, _, _, _, hout'⟩ := annotate_eq_ok_iff.1 h'
  have hnodes : g.nodes.map (mark r.muxes r.roots) =
      (g.nodes.map Node.reread).map (mark r.muxes r.roots) :=
    (rebuild_eq_ok_iff.1 hout).1.symm.trans (rebuild_eq_ok_iff.1 hout').1
  rw [List.map_map, List.map_inj_left] at hnodes
  intro n hn hto
  have hsame := congrArg Node.recursesTo (hnodes n hn)
  rw [Function.comp_apply, recursesTo_mark, recursesTo_mark] at hsame
  simp [Node.reread, hto, RecursesTo.reread] at hsame

theorem annotate_reread_iff {g : Graph} (h : g.KindsSaid) (s : Scheduling) (o : Options) :
    annotate s g.reread o = annotate s g o ↔
      (∀ n ∈ g.nodes, n.recursesTo ≠ some ⟨none⟩) ∨ RefusedBefore s g o := by
  have hanalyse := analyse_reread h s o
  constructor
  · intro heq
    cases hval : o.validate with
    | error e => exact Or.inr (Or.inl ⟨e, hval⟩)
    | ok _ =>
        cases hrun : annotate s g o with
        | ok x => exact Or.inl (reread_eq_of_annotate hrun (heq.trans hrun))
        | error e =>
            have hrun' := heq.trans hrun
            rw [error_iff_of_validate hval] at hrun hrun'
            rw [hanalyse] at hrun'
            rcases hrun with hrun | ⟨muxes, hmuxes, hhead⟩
            · exact Or.inr (Or.inr (Or.inl ⟨e, hrun⟩))
            · rcases hrun' with hrun' | ⟨muxes', hmuxes', hhead'⟩
              · exact Or.inr (Or.inr (Or.inl ⟨e, hrun'⟩))
              · rw [hmuxes] at hmuxes'
                obtain rfl := Except.ok.inj hmuxes'
                obtain ⟨before, d, after, hsplit, hd, hbefore⟩ :=
                  (head?_targetFaults_iff _).1 ⟨e, hhead, hhead'⟩
                exact Or.inr (Or.inr (Or.inr ⟨muxes, hmuxes, before, d, after, hsplit,
                  targetFaults_ne_nil_iff.1 hd, hbefore⟩))
  · rintro (hsaid | hval | hanalysed | ⟨muxes, hmuxes, before, d, after, hsplit, hd, hbefore⟩)
    · rw [(g.reread_eq_self_iff).2 fun n hn => ⟨h n hn, hsaid n hn⟩]
    · obtain ⟨e, hval⟩ := hval
      rw [annotate, annotate, hval]
      rfl
    · obtain ⟨e, hanalysed⟩ := hanalysed
      rw [annotate, annotate, hanalyse, hanalysed]
      rfl
    · obtain ⟨e, hhead, hhead'⟩ := (head?_targetFaults_iff _).2
        ⟨before, d, after, hsplit, targetFaults_ne_nil_iff.2 hd, hbefore⟩
      cases hval : o.validate with
      | error e => rw [annotate, annotate, hval]; rfl
      | ok _ =>
          rw [(error_iff_of_validate hval).2 (Or.inr ⟨muxes, hmuxes, hhead⟩),
            (error_iff_of_validate hval).2 (Or.inr ⟨muxes, hanalyse.trans hmuxes, hhead'⟩)]

end Annotate

/-- What is saved of a graph that was read can be loaded again, and a run on what was
loaded ends as a run on the graph does that is scheduled in the same way, with the same
fault or with the same report and the same graph, exactly when every node that names the
target of its calls gives a list of bodies or the run is refused before it comes to a
call that does not. -/
theorem annotate_reloaded_iff {text : Text.Source} {g : Graph} (h : Graph.readJson text = .ok g)
    (s : Scheduling) (o : Options) :
    ∃ loaded, Graph.readJson (.ofString g.toJsonText) = .ok loaded ∧
      (annotate s loaded o = annotate s g o ↔
        (∀ n ∈ g.nodes, n.recursesTo ≠ some ⟨none⟩) ∨ Annotate.RefusedBefore s g o) :=
  ⟨g.reread, g.readJson_toJsonText, Annotate.annotate_reread_iff (Graph.kind_of_readJson h) s o⟩

/-- A document of a mux with a recursive call behind its first operand; the call names
its target with the given members. -/
def callDocument (target : List (String × Json)) : Json :=
  .obj
    [("nodes", .arr [(Node.selector "m").toJson,
        .obj [("v", .str "c"), ("value", .obj
          [("recursive", .bool true), ("recursesTo", .obj target)])]]),
      ("edges", .arr [(Edge.wire "c" "o" "m" "input1").toJson])]

/-- The text of such a document. -/
def callText (target : List (String × Json)) : Text.Source :=
  .ofString (String.ofList (callDocument target).compact)

theorem readJson_callText (target : List (String × Json))
    (h : ∀ m ∈ target, Json.Fits 3 m.2) :
    Graph.readJson (callText target) = Graph.ofJson (callDocument target) := by
  have hcall : Json.Fits 6 (.obj [("v", .str "c"), ("value", .obj
      [("recursive", .bool true), ("recursesTo", .obj target)])]) := by
    refine .obj (List.forall_mem_cons.2 ⟨.str _, List.forall_mem_singleton.2 (.obj ?_)⟩)
    exact List.forall_mem_cons.2 ⟨.bool _, List.forall_mem_singleton.2 (.obj h)⟩
  have hfits : Json.Fits 8 (callDocument target) := by
    refine .obj (List.forall_mem_cons.2 ⟨.arr ?_, List.forall_mem_singleton.2 (.arr ?_)⟩)
    · exact List.forall_mem_cons.2 ⟨Node.fits_toJson _, List.forall_mem_singleton.2 hcall⟩
    · exact List.forall_mem_singleton.2 (Edge.fits_toJson _)
  have hread := Graph.readJson_of_readsAs (Json.readsAs_compact hfits) (by decide) []
  rwa [List.append_nil] at hread

/-- A call that enters itself is written in full, and both runs succeed. -/
theorem annotate_call_reloaded :
    ∃ g loaded, Graph.readJson (callText [("branch", .str "c")]) = .ok g ∧
      Graph.readJson (.ofString g.toJsonText) = .ok loaded ∧
      annotate {} loaded .default = annotate {} g .default ∧
      ∃ out r, annotate {} g .default = .ok (out, r) ∧ r.roots = ["c"] := by
  have hread := readJson_callText [("branch", .str "c")] (by simpa using .str "c")
  have hrun : okAnd (Graph.ofJson (callDocument [("branch", .str "c")])) (fun g =>
      decide (∀ n ∈ g.nodes, n.recursesTo ≠ some ⟨none⟩) &&
        okAnd (annotate {} g .default) fun x => decide (x.2.roots = ["c"])) = true := by
    decide +kernel
  cases hg : Graph.ofJson (callDocument [("branch", .str "c")]) with
  | error e => rw [hg] at hrun; cases hrun
  | ok g =>
      rw [hg] at hread hrun
      obtain ⟨hsaid, hroots⟩ := Bool.and_eq_true_iff.1 hrun
      obtain ⟨loaded, hloaded, hiff⟩ := annotate_reloaded_iff hread {} .default
      have hok : ∃ out r, annotate {} g .default = .ok (out, r) ∧ r.roots = ["c"] :=
        exists_of_okAnd hroots
      exact ⟨g, loaded, hread, hloaded, hiff.2 (Or.inl (of_decide_eq_true hsaid)), hok⟩

/-- A call that names its target without a list of bodies: the run succeeds, and after
saving and loading it is refused because there is no node with the empty id. -/
theorem annotate_unsaid_reloaded :
    ∃ g loaded, Graph.readJson (callText []) = .ok g ∧
      Graph.readJson (.ofString g.toJsonText) = .ok loaded ∧
      (∃ out r, annotate {} g .default = .ok (out, r) ∧ r.edges = 1) ∧
      annotate {} loaded .default = .error (Annotate.missingBody "c" "") := by
  have hread := readJson_callText [] (by simp)
  have hrun : okAnd (Graph.ofJson (callDocument [])) (fun g =>
      okAnd (annotate {} g .default) (fun x => decide (x.2.edges = 1)) &&
        match annotate {} g.reread .default with
        | .error e => decide (e = Annotate.missingBody "c" "")
        | .ok _ => false) = true := by
    decide +kernel
  cases hg : Graph.ofJson (callDocument []) with
  | error e => rw [hg] at hrun; cases hrun
  | ok g =>
      rw [hg] at hread hrun
      obtain ⟨hok, hfault⟩ := Bool.and_eq_true_iff.1 hrun
      refine ⟨g, g.reread, hread, g.readJson_toJsonText, exists_of_okAnd hok, ?_⟩
      cases hreloaded : annotate {} g.reread .default with
      | ok x => rw [hreloaded] at hfault; cases hfault
      | error e =>
          rw [hreloaded] at hfault
          rw [of_decide_eq_true hfault]

end MuxFlow
