import MuxFlow.Proofs.Continuation.Divergence
import MuxFlow.Proofs.Continuation.Entries
import MuxFlow.Proofs.Continuation.Paths

/-!
# What is found behind a mux

Once the paths behind a mux are known, nothing can go wrong: they start at the mux
and stay at nodes of the graph, and so do the parts of them that are looked at. So
what is found behind a port is a function of the paths (`found`), a list is merged
from that (`continuations_eq`), and it is refused only when the paths are
(`continuations_eq_error_iff`). What is found is a node that one of the paths goes
through or that an edge on it leads into, so the entries of a continuation list are
never further away than the paths are (`node_of_mem_continuations`).
-/

namespace MuxFlow

namespace Graph

/-- The ids of the recursive calls, in order. -/
def calls (g : Graph) : List String := (g.nodes.filter Node.recursive).map Node.id

theorem mem_calls_of_mem (g : Graph) {n : Node} (h : n ∈ g.nodes) :
    n.id ∈ g.calls ↔ n.recursive = true := by
  simp only [calls, List.mem_map, List.mem_filter]
  constructor
  · rintro ⟨c, ⟨hc, hrec⟩, hid⟩
    rwa [← List.inj_on_of_nodup_map g.ids_nodup hc h hid]
  · intro hrec
    exact ⟨n, ⟨h, hrec⟩, rfl⟩

theorem not_mem_calls_iff (g : Graph) {id : String} :
    id ∉ g.calls ↔ ∀ n ∈ g.nodes, n.id = id → n.recursive = false := by
  constructor
  · rintro h n hn rfl
    rw [g.mem_calls_of_mem hn] at h
    exact Bool.eq_false_iff.2 h
  · intro h hmem
    obtain ⟨n, hn, rfl⟩ := List.mem_map.1 hmem
    obtain ⟨hn, hrec⟩ := List.mem_filter.1 hn
    exact Bool.eq_false_iff.1 (h n hn rfl) hrec

end Graph

namespace Recursion

variable {g : Graph}

/-- The frame at a call that is nearest to the start of a path. -/
def nearest? (g : Graph) (p : Path) : Option Frame := p.outward.find? fun f => f.node ∈ g.calls

/-- The nearest calls of paths, one for each node. -/
def nearestOf (g : Graph) (ps : List Path) : List Frame :=
  distinctBy Frame.node (ps.filterMap (nearest? g))

/-- The frames that are kept may be others at the same nodes. -/
theorem mem_nodes_nearestOf_iff {ps : List Path} {id : String} :
    id ∈ (nearestOf g ps).map Frame.node ↔ ∃ p ∈ ps, ∃ f, nearest? g p = some f ∧ f.node = id := by
  rw [nearestOf, mem_keys_distinctBy, List.mem_map]
  simp only [List.mem_filterMap]
  constructor
  · rintro ⟨f, ⟨p, hp, hf⟩, hid⟩
    exact ⟨p, hp, f, hf, hid⟩
  · rintro ⟨p, hp, f, hf, hid⟩
    exact ⟨f, ⟨p, hp, hf⟩, hid⟩

theorem firstRecursive_eq {fs : List Frame} (h : ∀ f ∈ fs, g.hasNode f.node = true) :
    firstRecursive g fs = .ok (fs.find? fun f => f.node ∈ g.calls) := by
  induction fs with
  | nil => rfl
  | cons f fs ih =>
      obtain ⟨hf, hfs⟩ := List.forall_mem_cons.1 h
      obtain ⟨n, hn, hid⟩ := g.exists_node_of_hasNode hf
      have hcall : f.node ∈ g.calls ↔ n.recursive = true := hid ▸ g.mem_calls_of_mem hn
      rw [firstRecursive, g.node_eq_ok_iff.2 ⟨hn, hid⟩, ok_bind]
      by_cases hrec : n.recursive = true
      · rw [if_pos hrec, List.find?_cons_of_pos (by simpa using hcall.2 hrec)]
      · rw [if_neg hrec, ih hfs, List.find?_cons_of_neg (by simpa [hcall] using hrec)]

theorem firstOnPath_eq {mux : String} {p : Path}
    (hstart : ∀ s, p.start? = some s → s.node = mux) (h : ∀ f ∈ p, g.hasNode f.node = true) :
    firstOnPath g mux p = .ok (nearest? g p) := by
  unfold firstOnPath
  cases hs : p.start? with
  | none =>
      obtain rfl := List.getLast?_eq_none_iff.1 hs
      rfl
  | some s =>
      simp only [if_pos (hstart s hs)]
      apply firstRecursive_eq
      intro f hf
      exact h f (List.mem_reverse.1 hf)

theorem firstOnPaths_eq {mux : String} {ps : List Path}
    (hstart : ∀ p ∈ ps, ∀ s, p.start? = some s → s.node = mux)
    (h : ∀ p ∈ ps, ∀ f ∈ p, g.hasNode f.node = true) :
    firstOnPaths g mux ps = .ok (nearestOf g ps) := by
  have hall : ps.mapM (firstOnPath g mux) = .ok (ps.map (nearest? g)) :=
    mapM_eq_ok_map fun p hp => firstOnPath_eq (hstart p hp) (h p hp)
  rw [firstOnPaths, hall, ok_bind, List.filterMap_map]
  rfl

end Recursion

namespace Branching

theorem mem_of_departure? {segments : List (List Frame)} {fs : List Frame} {f : Frame} {e : Edge}
    (h : departure? segments fs = some (f, e)) : f ∈ fs ∧ f.edge = some e := by
  obtain ⟨f', hf', h⟩ := Option.bind_eq_some_iff.1 h
  obtain ⟨e', he', h⟩ := Option.bind_eq_some_iff.1 h
  obtain ⟨rfl, rfl⟩ := Prod.mk.inj (Option.some.inj h)
  exact ⟨List.mem_of_getElem? hf', he'⟩

/-- A branch is joined where an edge of one of the paths leads. -/
theorem exists_of_mem_points {paths : List Path} {recursions : List Frame} {port : String}
    {d : Descriptor} (h : d ∈ points paths recursions port) :
    ∃ p ∈ paths, ∃ f ∈ p, ∃ e, f.edge = some e ∧ e.target = d.node := by
  unfold points at h
  extract_lets recursive segments plain leaving at h
  split at h
  · cases h
  · obtain ⟨v, hv, rfl⟩ := List.mem_map.1 h
    obtain ⟨e, he, rfl⟩ := List.mem_map.1 (mem_of_mem_distinctBy id hv)
    obtain ⟨⟨f, e⟩, hfe, rfl⟩ := List.mem_map.1 he
    obtain ⟨fs, hfs, hdep⟩ := List.mem_filterMap.1 (mem_of_mem_distinctBy _ hfe)
    obtain ⟨p, hp, rfl⟩ := List.mem_map.1 hfs
    obtain ⟨hf, hedge⟩ := mem_of_departure? hdep
    exact ⟨p, (List.mem_filter.1 hp).1, f, List.mem_reverse.1 hf, e, hedge, rfl⟩

end Branching

namespace Mux

variable {g : Graph} {m : String} {paths : InputPaths}

/-- The ids of the muxes at which paths end, other than by not going anywhere. -/
def nested (g : Graph) (ps : List Path) : List String :=
  (((ps.filterMap Path.terminal?).filter fun f => !f.isStart).map Frame.node).filter
    fun id => id ∈ g.muxes

theorem nestedStarts_eq (port : String) {ps : List Path}
    (h : ∀ p ∈ ps, ∀ f ∈ p, g.hasNode f.node = true) :
    nestedStarts g port ps = .ok ((nested g ps).map fun id => { node := id, port }) := by
  have hall : ∀ f ∈ (ps.filterMap Path.terminal?).filter (fun f => !f.isStart),
      (g.node f.node >>= fun n => Except.ok (n.isMux, f.node)) =
        .ok (decide (f.node ∈ g.muxes), f.node) := by
    intro f hf
    obtain ⟨p, hp, hterminal⟩ := List.mem_filterMap.1 (List.mem_filter.1 hf).1
    obtain ⟨n, hn, hid⟩ := g.exists_node_of_hasNode (h p hp f (List.mem_of_mem_head? hterminal))
    have hmux : f.node ∈ g.muxes ↔ n.isMux = true := hid ▸ g.mem_muxes_of_mem hn
    rw [g.node_eq_ok_iff.2 ⟨hn, hid⟩, ok_bind, ← Bool.decide_coe n.isMux, decide_eq_decide.2 hmux]
  unfold nestedStarts
  rw [mapM_eq_ok_map hall, ok_bind, nested, List.filter_map, List.map_map, List.filter_map,
    List.map_map]
  rfl

/-- A part that is looked at belongs to a path. -/
theorem exists_of_mem_trimmed {x : MuxPort} {p : Path} (h : p ∈ trimmed g paths x) :
    ∃ q ∈ paths.port x, p <:+ q ∧ p.start? = q.start? := by
  obtain ⟨q, hq, rfl⟩ := List.mem_map.1 h
  exact ⟨q, hq, Divergence.trim_suffix _ _ q, Divergence.start?_trim _ _ q⟩

theorem hasNode_of_mem_trimmed (h : inputPaths g m = .ok paths) {x : MuxPort} {p : Path}
    (hp : p ∈ trimmed g paths x) : ∀ f ∈ p, g.hasNode f.node = true := by
  obtain ⟨q, hq, hsuffix, _⟩ := exists_of_mem_trimmed hp
  intro f hf
  exact hasNode_of_frame h hq f (hsuffix.subset hf)

theorem start_of_mem_trimmed (h : inputPaths g m = .ok paths) {x : MuxPort} {p : Path}
    (hp : p ∈ trimmed g paths x) : ∀ s, p.start? = some s → s.node = m := by
  obtain ⟨q, hq, _, heq⟩ := exists_of_mem_trimmed hp
  intro s hs
  rw [heq, (maximal_of_mem h hq).start] at hs
  exact (Option.some.inj hs) ▸ rfl

/-- What is found behind a port. -/
def found (g : Graph) (paths : InputPaths) (x : MuxPort) : PortFindings where
  recursions := (Recursion.nearestOf g (trimmed g paths x)).map fun f =>
    { node := f.node, port := x.name, type := Descriptor.recursion }
  branchings :=
    Branching.points (trimmed g paths x) (Recursion.nearestOf g (trimmed g paths x)) x.name
  starts := (nested g (paths.port x)).map fun id => { node := id, port := x.name }

/-- The analysis of a port comes to an end and finds that. -/
theorem findings_eq_found (h : inputPaths g m = .ok paths) (x : MuxPort) :
    findings g m paths x = .ok (found g paths x) := by
  have hcalls := Recursion.firstOnPaths_eq
    (fun p (hp : p ∈ trimmed g paths x) => start_of_mem_trimmed h hp)
    (fun p hp => hasNode_of_mem_trimmed h hp)
  have hstarts := nestedStarts_eq x.name fun p (hp : p ∈ paths.port x) => hasNode_of_frame h hp
  simp only [findings]
  rw [hcalls, ok_bind, hstarts]
  rfl

section
variable {x : MuxPort} {d : Descriptor}

theorem type_of_mem_recursions (hd : d ∈ (found g paths x).recursions) :
    d.type = Descriptor.recursion := by
  obtain ⟨f, _, rfl⟩ := List.mem_map.1 hd
  rfl

theorem type_of_mem_branchings (hd : d ∈ (found g paths x).branchings) :
    d.type = Descriptor.branching :=
  Branching.type_of_mem_points hd

theorem type_of_mem_starts (hd : d ∈ (found g paths x).starts) : d.type = "" := by
  obtain ⟨id, _, rfl⟩ := List.mem_map.1 hd
  rfl

/-- All that is found behind a port carries its name. -/
theorem port_of_mem_found (hd : (found g paths x).Has d) : d.port = x.name := by
  rcases hd with hd | hd | hd
  · obtain ⟨f, _, rfl⟩ := List.mem_map.1 hd
    rfl
  · exact Branching.port_of_mem_points hd
  · obtain ⟨id, _, rfl⟩ := List.mem_map.1 hd
    rfl

theorem mem_recursions_iff : d ∈ (found g paths x).recursions ↔
    ∃ p ∈ trimmed g paths x, ∃ f, Recursion.nearest? g p = some f ∧
      d = { node := f.node, port := x.name, type := Descriptor.recursion } := by
  rw [found, List.mem_map]
  constructor
  · rintro ⟨f, hf, rfl⟩
    obtain ⟨p, hp, f', hnearest, hnode⟩ :=
      Recursion.mem_nodes_nearestOf_iff.1 (List.mem_map_of_mem hf)
    exact ⟨p, hp, f', hnearest, by rw [hnode]⟩
  · rintro ⟨p, hp, f, hnearest, rfl⟩
    obtain ⟨f', hf', hnode⟩ :=
      List.mem_map.1 (Recursion.mem_nodes_nearestOf_iff.2 ⟨p, hp, f, hnearest, rfl⟩)
    exact ⟨f', hf', by rw [hnode]⟩

theorem mem_nested_iff {ps : List Path} {id : String} :
    id ∈ nested g ps ↔ id ∈ g.muxes ∧
      ∃ p ∈ ps, ∃ f, p.terminal? = some f ∧ f.isStart = false ∧ f.node = id := by
  simp only [nested, List.mem_filter, List.mem_map, List.mem_filterMap, Bool.not_eq_true',
    decide_eq_true_eq]
  constructor
  · rintro ⟨⟨f, ⟨⟨p, hp, hterminal⟩, hstart⟩, hnode⟩, hmux⟩
    exact ⟨hmux, p, hp, f, hterminal, hstart, hnode⟩
  · rintro ⟨hmux, p, hp, f, hterminal, hstart, hnode⟩
    exact ⟨⟨f, ⟨⟨p, hp, hterminal⟩, hstart⟩, hnode⟩, hmux⟩

/-- Whatever is found is a node on a path or one that an edge of a path leads
into. -/
theorem exists_of_mem_found (hd : (found g paths x).Has d) :
    ∃ p ∈ paths.port x, ∃ f ∈ p, f.node = d.node ∨ ∃ e, f.edge = some e ∧ e.target = d.node := by
  rcases hd with hd | hd | hd
  · obtain ⟨p, hp, f, hnearest, rfl⟩ := mem_recursions_iff.1 hd
    obtain ⟨q, hq, hsuffix, _⟩ := exists_of_mem_trimmed hp
    have hf : f ∈ p := List.mem_reverse.1 (List.mem_of_find?_eq_some hnearest)
    exact ⟨q, hq, f, hsuffix.subset hf, Or.inl rfl⟩
  · obtain ⟨p, hp, f, hf, hedge⟩ := Branching.exists_of_mem_points hd
    obtain ⟨q, hq, hsuffix, _⟩ := exists_of_mem_trimmed hp
    exact ⟨q, hq, f, hsuffix.subset hf, Or.inr hedge⟩
  · obtain ⟨id, hid, rfl⟩ := List.mem_map.1 hd
    obtain ⟨_, p, hp, f, hterminal, _, hnode⟩ := mem_nested_iff.1 hid
    exact ⟨p, hp, f, List.mem_of_mem_head? hterminal, Or.inl hnode⟩

end

/-! ## The list -/

/-- The list that is merged from what is found behind the analysed ports. -/
def merged (g : Graph) (m : String) (o : Options) (paths : InputPaths) : MuxContinuations :=
  { mux := m, continuations := merge (o.ports.map (found g paths)) }

section
variable {o : Options} {mc : MuxContinuations} {d : Descriptor}

/-- The options and the paths are all that can go wrong. -/
theorem continuations_eq (g : Graph) (m : String) (o : Options) :
    continuations g m o =
      (o.validate >>= fun _ => inputPaths g m >>= fun paths => .ok (merged g m o paths)) := by
  unfold continuations
  congr 1
  funext _
  apply bind_congr_of_ok
  intro paths hpaths
  rw [mapM_eq_ok_map fun x _ => findings_eq_found hpaths x]
  rfl

theorem exists_merged (h : continuations g m o = .ok mc) :
    ∃ paths, inputPaths g m = .ok paths ∧ mc = merged g m o paths := by
  rw [continuations_eq] at h
  obtain ⟨_, _, h⟩ := bind_eq_ok_iff.1 h
  obtain ⟨paths, hpaths, h⟩ := bind_eq_ok_iff.1 h
  exact ⟨paths, hpaths, (Except.ok.inj h).symm⟩

theorem exists_of_mem_merged (hd : d ∈ (merged g m o paths).continuations) :
    ∃ x ∈ o.ports, (found g paths x).Has d := by
  obtain ⟨f, hf, hd⟩ := exists_of_mem_merge hd
  obtain ⟨x, hx, rfl⟩ := List.mem_map.1 hf
  exact ⟨x, hx, hd⟩

/-- Every entry belongs to an analysed port. -/
theorem port_of_mem_continuations (h : continuations g m o = .ok mc)
    (hd : d ∈ mc.continuations) : ∃ x ∈ o.ports, d.port = x.name := by
  obtain ⟨paths, _, rfl⟩ := exists_merged h
  obtain ⟨x, hx, hd⟩ := exists_of_mem_merged hd
  exact ⟨x, hx, port_of_mem_found hd⟩

/-- No entry is there twice. -/
theorem keys_nodup_of_continuations (h : continuations g m o = .ok mc) :
    (mc.continuations.map Descriptor.key).Nodup := by
  obtain ⟨paths, _, rfl⟩ := exists_merged h
  exact nodup_keys_distinctBy Descriptor.key _

/-- What holds of the mux and is carried backward along edges holds of every
continuation of the mux. -/
theorem node_of_mem_continuations {P : String → Prop} (h : continuations g m o = .ok mc)
    (hm : P m) (hstep : ∀ e ∈ g.edges, e.continuation = false → P e.target → P e.source)
    (hd : d ∈ mc.continuations) : P d.node := by
  obtain ⟨paths, hpaths, rfl⟩ := exists_merged h
  obtain ⟨x, _, hd⟩ := exists_of_mem_merged hd
  obtain ⟨p, hp, f, hf, hd⟩ := exists_of_mem_found hd
  obtain ⟨hnode, hedge⟩ := forall_frame hpaths hm hstep hp f hf
  rcases hd with hd | ⟨e, he, hd⟩
  · exact hd ▸ hnode
  · exact hd ▸ hedge e he

theorem hasNode_of_mem_continuations (h : continuations g m o = .ok mc)
    (hd : d ∈ mc.continuations) : g.hasNode d.node = true := by
  obtain ⟨_, hpaths, _⟩ := exists_merged h
  obtain ⟨n, hn, rfl, _⟩ := inputPaths_eq_ok hpaths
  exact node_of_mem_continuations (P := fun id => g.hasNode id = true) h (g.hasNode_of_mem hn)
    (fun e he _ _ => (g.closed e he).1) hd

/-- The list of a mux is refused exactly when its paths are. -/
theorem continuations_eq_error_iff (hval : o.validate = .ok ()) {e : Fault} :
    continuations g m o = .error e ↔ inputPaths g m = .error e := by
  rw [continuations_eq, hval, ok_bind, bind_eq_error_iff]
  simp only [reduceCtorEq, and_false, exists_false, or_false]

end

end Mux

end MuxFlow
