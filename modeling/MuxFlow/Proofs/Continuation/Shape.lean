import MuxFlow.Proofs.Continuation.Joins

/-!
# The shape of a continuation list

What can be relied on in a list of continuations, whatever the graph looks like: which
entries there are, in what order they come, what they say, and when there are none. This
is `Shape`, and every list has it (`continuations_shape`).

The list is what is left of the calls, joins and nested muxes of all ports when entries
are dropped, so its blocks come in the order in which these were put together
(`eq_flatMap_filter`). An entry without a type is dropped exactly when its node is in the
list for a reason.
-/

namespace MuxFlow

open Branching

variable {g : Graph} {m : String} {o : Options} {mc : MuxContinuations} {paths : InputPaths}
  {x : MuxPort}

/-- What is left of blocks that a test tells apart is left block by block. -/
theorem eq_flatMap_filter {α κ : Type} {test : κ → α → Bool} {block : κ → List α} {ks : List κ}
    {xs : List α} (hks : ks.Pairwise fun k k' => ∀ a, test k a = true → test k' a = false)
    (hblock : ∀ k ∈ ks, ∀ a ∈ block k, test k a = true) (h : xs.Sublist (ks.flatMap block)) :
    xs = ks.flatMap fun k => xs.filter (test k) := by
  induction ks generalizing xs with
  | nil => exact List.sublist_nil.1 h
  | cons k ks ih =>
      rw [List.flatMap_cons] at h
      obtain ⟨ys, zs, rfl, hys, hzs⟩ := List.sublist_append_iff.1 h
      obtain ⟨hk, hks⟩ := List.pairwise_cons.1 hks
      obtain ⟨hblock_k, hblock⟩ := List.forall_mem_cons.1 hblock
      have hys_k : ∀ a ∈ ys, test k a = true := fun a ha => hblock_k a (hys.subset ha)
      have hzs_k : zs.filter (test k) = [] := by
        apply List.filter_eq_nil_iff.2
        intro a ha hka
        obtain ⟨k', hk', hak'⟩ := List.mem_flatMap.1 (hzs.subset ha)
        have hfalse := hk k' hk' a hka
        rw [hblock k' hk' a hak'] at hfalse
        cases hfalse
      have hrest : ∀ k' ∈ ks, zs.filter (test k') = (ys ++ zs).filter (test k') := by
        intro k' hk'
        have hys_k' : ys.filter (test k') = [] := by
          apply List.filter_eq_nil_iff.2
          intro a ha
          simp [hk k' hk' a (hys_k a ha)]
        rw [List.filter_append, hys_k', List.nil_append]
      rw [List.flatMap_cons, List.filter_append, List.filter_eq_self.2 hys_k, hzs_k,
        List.append_nil, ← List.flatMap_congr hrest, ← ih hks hblock hzs]

/-- The edge of a frame leads into a node on the chain. -/
theorem Walk.Chain.target_mem {follow : Follow} {start f : Frame} {p : Path} {e : Edge}
    (h : Walk.Chain g follow start p) (hstart : start.edge = none) (hf : f ∈ p)
    (he : f.edge = some e) : e.target ∈ p.nodes := by
  obtain ⟨before, rest, rfl⟩ := List.append_of_mem hf
  rcases h.after with ⟨_, rfl⟩ | ⟨f', rest', e', rfl, rfl, hopen⟩
  · rw [hstart] at he
    cases he
  · obtain rfl := Option.some.inj he
    rw [hopen.target]
    exact List.mem_map_of_mem (by simp)

namespace Mux

/-- A path behind a port, taken as a whole, ends at a mux and goes somewhere. -/
def EndsAt (g : Graph) (paths : InputPaths) (x : MuxPort) (id : String) : Prop :=
  id ∈ g.muxes ∧ ∃ p ∈ paths.port x, ∃ f, p.terminal? = some f ∧ f.isStart = false ∧ f.node = id

/-- What a list of continuations looks like. -/
structure Shape (g : Graph) (o : Options) (paths : InputPaths) (mc : MuxContinuations) :
    Prop where
  keys : (mc.continuations.map Descriptor.key).Nodup
  /-- Sorted by reason and then by port. -/
  blocks : mc.continuations =
    [Descriptor.recursion, Descriptor.branching, ""].flatMap fun type =>
      o.ports.flatMap (mc.block type)
  ports : ∀ d ∈ mc.continuations, ∃ x ∈ o.ports, d.port = x.name
  nodes : ∀ d ∈ mc.continuations, g.hasNode d.node = true
  on_path : ∀ d ∈ mc.continuations, ∀ x : MuxPort, d.port = x.name →
    ∃ p ∈ paths.port x, d.node ∈ p.nodes
  calls : ∀ d ∈ mc.continuations, d.type = Descriptor.recursion → d.node ∈ g.calls
  muxes : ∀ d ∈ mc.continuations, d.type = "" → d.node ∈ g.muxes
  branchPorts : ∀ d ∈ mc.continuations, d.branchPorts ≠ [] → d.type = Descriptor.branching
  /-- Without a type are the nested muxes that are not there for a reason. -/
  untyped : ∀ x ∈ o.ports, ∀ id, { node := id, port := x.name } ∈ mc.continuations ↔
    EndsAt g paths x id ∧
      ¬∃ d ∈ mc.continuations, d.node = id ∧ d.port = x.name ∧ d.type ≠ ""
  empty : mc.continuations = [] ↔ ∀ x ∈ o.ports,
    (∀ p ∈ trimmed g paths x, ∀ f ∈ p, f.node ∉ g.calls) ∧ ∀ id, ¬EndsAt g paths x id

/-! ## What an entry says -/

theorem nodes_of_mem_found (h : inputPaths g m = .ok paths) {d : Descriptor}
    (hd : (found g paths x).Has d) : ∃ p ∈ paths.port x, d.node ∈ p.nodes := by
  obtain ⟨p, hp, f, hf, hnode | ⟨e, he, htarget⟩⟩ := exists_of_mem_found hd
  · exact ⟨p, hp, hnode ▸ List.mem_map_of_mem hf⟩
  · exact ⟨p, hp, htarget ▸ (maximal_of_mem h hp).toChain.target_mem rfl hf he⟩

theorem mem_calls_of_mem_recursions {d : Descriptor} (hd : d ∈ (found g paths x).recursions) :
    d.node ∈ g.calls := by
  obtain ⟨p, _, f, hnearest, rfl⟩ := mem_recursions_iff.1 hd
  simpa using List.find?_some hnearest

theorem endsAt_of_mem_starts {d : Descriptor} (hd : d ∈ (found g paths x).starts) :
    EndsAt g paths x d.node := by
  obtain ⟨id, hid, rfl⟩ := List.mem_map.1 hd
  exact mem_nested_iff.1 hid

theorem branchPorts_of_mem_found {d : Descriptor} (hd : (found g paths x).Has d)
    (hports : d.branchPorts ≠ []) : d.type = Descriptor.branching := by
  rcases hd with hd | hd | hd
  · obtain ⟨f, _, rfl⟩ := List.mem_map.1 hd
    exact absurd rfl hports
  · exact type_of_mem_branchings hd
  · obtain ⟨id, _, rfl⟩ := List.mem_map.1 hd
    exact absurd rfl hports

/-! ## Which entries there are -/

theorem ports_pairwise (o : Options) : o.ports.Pairwise fun x y => x.name ≠ y.name := by
  unfold Options.ports
  split <;> decide

/-- The blocks of one reason make up what a list has for that reason, if this is left of
what was found port by port. -/
theorem flatMap_block {type : String} {part : PortFindings → List Descriptor}
    {ds : List Descriptor} (hport : ∀ x, ∀ d ∈ part (found g paths x), d.port = x.name)
    (hds : (mc.continuations.filter fun d => d.type = type) = ds)
    (hsub : ds.Sublist ((o.ports.map (found g paths)).flatMap part)) :
    o.ports.flatMap (mc.block type) = ds := by
  have hblock : ∀ x ∈ o.ports, mc.block type x = ds.filter fun d => d.port = x.name := by
    intro x _
    rw [MuxContinuations.block, ← hds, List.filter_filter]
    simp only [Bool.decide_and, Bool.and_comm]
  rw [List.flatMap_map] at hsub
  rw [List.flatMap_congr hblock, ← eq_flatMap_filter _ _ hsub]
  · apply (ports_pairwise o).imp
    intro x y hne d hd
    simpa [of_decide_eq_true hd] using hne
  · intro x _ d hd
    simpa using hport x d hd

theorem merged_eq_blocks (g : Graph) (m : String) (o : Options) (paths : InputPaths) :
    (merged g m o paths).continuations =
      [Descriptor.recursion, Descriptor.branching, ""].flatMap fun type =>
        o.ports.flatMap ((merged g m o paths).block type) := by
  have htype : ∀ {part : PortFindings → List Descriptor} {type : String} {ds : List Descriptor},
      (∀ x, ∀ d ∈ part (found g paths x), d.type = type) →
      ds.Sublist ((o.ports.map (found g paths)).flatMap part) → ∀ d ∈ ds, d.type = type := by
    intro part type ds hpart hsub d hd
    obtain ⟨f, hf, hd⟩ := List.mem_flatMap.1 (hsub.subset hd)
    obtain ⟨x, _, rfl⟩ := List.mem_map.1 hf
    exact hpart x d hd
  -- the list is what is left of the calls, then of the joins, then of the nested muxes
  obtain ⟨typed, starts, hlist, htyped, hstarts⟩ :=
    List.sublist_append_iff.1 (distinctBy_sublist Descriptor.key
      ((o.ports.map (found g paths)).flatMap PortFindings.recursions ++
        (o.ports.map (found g paths)).flatMap PortFindings.branchings ++
        (o.ports.map (found g paths)).flatMap PortFindings.starts))
  obtain ⟨calls, joins, rfl, hcalls, hjoins⟩ := List.sublist_append_iff.1 htyped
  replace hlist : (merged g m o paths).continuations = calls ++ joins ++ starts := hlist
  have hcalls' := htype (fun x d => type_of_mem_recursions) hcalls
  have hjoins' := htype (fun x d => type_of_mem_branchings) hjoins
  have hstarts' := htype (fun x d => type_of_mem_starts) hstarts
  have hfilter : ∀ type, ((merged g m o paths).continuations.filter fun d => d.type = type) =
      ((if Descriptor.recursion = type then calls else []) ++
        if Descriptor.branching = type then joins else []) ++
        if "" = type then starts else [] := by
    intro type
    rw [hlist, List.filter_append, List.filter_append, filter_type hcalls', filter_type hjoins',
      filter_type hstarts']
  have hrecursion : o.ports.flatMap ((merged g m o paths).block Descriptor.recursion) = calls :=
    flatMap_block (fun x d hd => port_of_mem_found (.inl hd))
      ((hfilter _).trans (by simp [Descriptor.recursion, Descriptor.branching])) hcalls
  have hbranching : o.ports.flatMap ((merged g m o paths).block Descriptor.branching) = joins :=
    flatMap_block (fun x d hd => port_of_mem_found (.inr (.inl hd)))
      ((hfilter _).trans (by simp [Descriptor.recursion, Descriptor.branching])) hjoins
  have huntyped : o.ports.flatMap ((merged g m o paths).block "") = starts :=
    flatMap_block (fun x d hd => port_of_mem_found (.inr (.inr hd)))
      ((hfilter _).trans (by simp [Descriptor.recursion, Descriptor.branching])) hstarts
  rw [List.flatMap_cons, List.flatMap_cons, List.flatMap_cons, List.flatMap_nil, hrecursion,
    hbranching, huntyped, hlist, List.append_nil, List.append_assoc]

/-- Behind a port, the list has the calls and joins, and the nested muxes that are not
among them. -/
theorem mem_merged_iff (hx : x ∈ o.ports) {d : Descriptor} (hport : d.port = x.name) :
    d ∈ (merged g m o paths).continuations ↔
      d ∈ distinctBy Descriptor.key
          ((found g paths x).recursions ++ (found g paths x).branchings) ∨
        d ∈ distinctBy Descriptor.key (found g paths x).starts ∧
          d.key ∉ ((found g paths x).recursions ++ (found g paths x).branchings).map
            Descriptor.key := by
  have hfilter : d ∈ (merged g m o paths).continuations ↔
      d ∈ (merged g m o paths).continuations.filter fun d => d.port = x.name := by
    simp only [List.mem_filter, hport, decide_true, and_true]
  rw [hfilter, filter_merged hx, List.mem_append, List.mem_filter, decide_eq_true_eq]

/-- An entry without a type is there when its node is not there for a reason. -/
theorem untyped_mem_merged_iff (hx : x ∈ o.ports) {id : String} :
    { node := id, port := x.name } ∈ (merged g m o paths).continuations ↔
      EndsAt g paths x id ∧ ¬∃ d ∈ (merged g m o paths).continuations,
        d.node = id ∧ d.port = x.name ∧ d.type ≠ "" := by
  have htyped : ∀ d ∈ distinctBy Descriptor.key
      ((found g paths x).recursions ++ (found g paths x).branchings),
      d.port = x.name ∧ d.type ≠ "" := by
    intro d hd
    rcases List.mem_append.1 (mem_of_mem_distinctBy Descriptor.key hd) with hd | hd
    · exact ⟨port_of_mem_found (.inl hd), type_of_mem_recursions hd ▸ by decide⟩
    · exact ⟨port_of_mem_found (.inr (.inl hd)), type_of_mem_branchings hd ▸ by decide⟩
  rw [mem_merged_iff hx rfl]
  constructor
  · rintro (hd | ⟨hd, hnew⟩)
    · exact absurd rfl (htyped _ hd).2
    · refine ⟨endsAt_of_mem_starts (mem_of_mem_distinctBy Descriptor.key hd), ?_⟩
      rintro ⟨d', hd', hnode, hport, htype⟩
      rcases (mem_merged_iff hx hport).1 hd' with hd' | ⟨hd', _⟩
      · have hkey := List.mem_map_of_mem (f := Descriptor.key)
          (mem_of_mem_distinctBy Descriptor.key hd')
        rw [Descriptor.key, hnode, hport] at hkey
        exact hnew hkey
      · exact htype (type_of_mem_starts (mem_of_mem_distinctBy Descriptor.key hd'))
  · rintro ⟨hends, hnone⟩
    right
    constructor
    · -- an entry of the nested muxes is known by its key
      have hkey : (id, x.name) ∈ (distinctBy Descriptor.key (found g paths x).starts).map
          Descriptor.key := by
        rw [mem_keys_distinctBy]
        exact List.mem_map_of_mem (List.mem_map_of_mem (mem_nested_iff.2 hends))
      obtain ⟨d, hd, hid⟩ := List.mem_map.1 hkey
      obtain ⟨id', _, rfl⟩ := List.mem_map.1 (mem_of_mem_distinctBy Descriptor.key hd)
      obtain ⟨rfl, _⟩ := Prod.mk.inj hid
      exact hd
    · intro hkey
      rw [← mem_keys_distinctBy] at hkey
      obtain ⟨d, hd, hid⟩ := List.mem_map.1 hkey
      obtain ⟨hport, htype⟩ := htyped d hd
      exact hnone ⟨d, (mem_merged_iff hx hport).2 (.inl hd), (Prod.mk.inj hid).1, hport, htype⟩

theorem recursions_eq_nil_iff : (found g paths x).recursions = [] ↔
    ∀ p ∈ trimmed g paths x, ∀ f ∈ p, f.node ∉ g.calls := by
  simp [found, Recursion.nearestOf, distinctBy_eq_nil_iff, Recursion.nearest?, Path.outward]

theorem starts_eq_nil_iff : (found g paths x).starts = [] ↔ ∀ id, ¬EndsAt g paths x id := by
  rw [found, List.map_eq_nil_iff, List.eq_nil_iff_forall_not_mem]
  simp only [mem_nested_iff, EndsAt]

/-- Without a call there is nothing to join. -/
theorem branchings_eq_nil (h : (found g paths x).recursions = []) :
    (found g paths x).branchings = [] := by
  have hways : (trimmed g paths x).filterMap (segment? []) = [] :=
    List.filterMap_eq_nil_iff.2 fun p _ => segment?_eq_none_iff.2 (by simp [Plain])
  rw [found, List.map_eq_nil_iff] at h
  rw [found, h]
  simp [points, hways]

theorem merged_eq_nil_iff : (merged g m o paths).continuations = [] ↔ ∀ x ∈ o.ports,
    (∀ p ∈ trimmed g paths x, ∀ f ∈ p, f.node ∉ g.calls) ∧ ∀ id, ¬EndsAt g paths x id := by
  simp only [merged, merge, distinctBy_eq_nil_iff, List.append_eq_nil_iff, List.flatMap_eq_nil_iff,
    List.forall_mem_map, ← recursions_eq_nil_iff, ← starts_eq_nil_iff]
  constructor
  · rintro ⟨⟨hcalls, _⟩, hstarts⟩ x hx
    exact ⟨hcalls x hx, hstarts x hx⟩
  · intro h
    exact ⟨⟨fun x hx => (h x hx).1, fun x hx => branchings_eq_nil (h x hx).1⟩,
      fun x hx => (h x hx).2⟩

end Mux

/-- What there is behind the tapped mux. -/
def Tapped.entries : List Descriptor :=
  [{ node := "c", port := "input1", type := Descriptor.recursion },
    { node := "e", port := "input2", type := Descriptor.recursion },
    { node := "e", port := "control", type := Descriptor.recursion },
    { node := "add", port := "input1", type := Descriptor.branching, branchPorts := ["b"] },
    { node := "m", port := "input2", type := Descriptor.branching, branchPorts := ["input2"] },
    { node := "n", port := "input2" }]

namespace Mux

/-- Every list of continuations has the shape. -/
theorem continuations_shape (h : continuations g m o = .ok mc) :
    ∃ paths, inputPaths g m = .ok paths ∧ Shape g o paths mc := by
  have hkeys := keys_nodup_of_continuations h
  have hports := fun d => port_of_mem_continuations h (d := d)
  have hnodes := fun d => hasNode_of_mem_continuations h (d := d)
  obtain ⟨paths, hpaths, rfl⟩ := exists_merged h
  refine ⟨paths, hpaths, hkeys, merged_eq_blocks g m o paths, hports, hnodes, ?on_path, ?calls,
    ?muxes, ?branchPorts, fun x hx id => untyped_mem_merged_iff hx, merged_eq_nil_iff⟩
  case on_path =>
    intro d hd x hport
    obtain ⟨y, _, hd⟩ := exists_of_mem_merged hd
    obtain rfl := MuxPort.name_injective ((port_of_mem_found hd).symm.trans hport)
    exact nodes_of_mem_found hpaths hd
  case calls =>
    intro d hd htype
    obtain ⟨x, _, hd⟩ := (recursion_mem_merged_iff htype).1 hd
    exact mem_calls_of_mem_recursions hd
  case muxes =>
    intro d hd htype
    obtain ⟨x, _, hd | hd | hd⟩ := exists_of_mem_merged hd
    · exact absurd ((type_of_mem_recursions hd).symm.trans htype) (by decide)
    · exact absurd ((type_of_mem_branchings hd).symm.trans htype) (by decide)
    · exact (endsAt_of_mem_starts hd).1
  case branchPorts =>
    intro d hd hne
    obtain ⟨x, _, hd⟩ := exists_of_mem_merged hd
    exact branchPorts_of_mem_found hd hne

/-- All three reasons: calls behind every port, a join at the sum and one at the mux itself,
and a nested mux. -/
theorem continuations_shape_tapped : ∃ paths mc, inputPaths Tapped.graph "m" = .ok paths ∧
    continuations Tapped.graph "m" { includeControl := true } = .ok mc ∧
    mc.continuations = Tapped.entries ∧
    Shape Tapped.graph { includeControl := true } paths mc := by
  obtain ⟨mc, hmc, hlist⟩ : ∃ mc, continuations Tapped.graph "m" { includeControl := true } =
      .ok mc ∧ mc.continuations = Tapped.entries :=
    exists_ok_of_okAnd (by decide +kernel)
  obtain ⟨paths, hpaths, hshape⟩ := continuations_shape hmc
  exact ⟨paths, mc, hpaths, hmc, hlist, hshape⟩

end Mux

end MuxFlow
