import MuxFlow.Proofs.Continuation.Blocks
import MuxFlow.Proofs.Continuation.Leaving

/-!
# Branches that wait with a call

A branch joins the way to a call at the node that the edge leads into on which it leaves.

Every join in a list of continuations is such a node, and its ports are where branches
come in (`branching_justified`). Not every branch is in the list: a value that several
edges carry off counts once, where the first path leaves along one of them
(`reported_or_earlier`). So a value that is used on two sides of a call is missing on
one of them (`unreported_outer`).
-/

namespace MuxFlow

open Branching

variable {g : Graph} {m : String} {o : Options} {mc : MuxContinuations} {paths : InputPaths}
  {x : MuxPort} {p : Path}

theorem MuxPort.name_injective : Function.Injective MuxPort.name := by
  intro x y h
  cases x <;> cases y <;> first | rfl | exact absurd h (by decide)

namespace MuxContinuations

/-- The nodes that a list has as calls behind a port. -/
def calls (mc : MuxContinuations) (x : MuxPort) : Set String :=
  {id | ∃ d ∈ mc.continuations, d.type = Descriptor.recursion ∧ d.port = x.name ∧ d.node = id}

/-- The node that an edge leads into is in a list, behind a port, and if it is there as a
join, then with the port that the edge comes in at. -/
def Reports (mc : MuxContinuations) (x : MuxPort) (e : Edge) : Prop :=
  ∃ d ∈ mc.continuations, d.node = e.target ∧ d.port = x.name ∧
    (d.type = Descriptor.branching → e.targetPort ∈ d.branchPorts)

end MuxContinuations

namespace Mux

/-! ## The paths -/

theorem outward_zero (h : inputPaths g m = .ok paths) (hp : p ∈ trimmed g paths x) :
    p.outward[0]? = some ⟨m, x.name, none⟩ := by
  obtain ⟨q, hq, _, hstart⟩ := exists_of_mem_trimmed hp
  rw [Path.outward, ← List.head?_eq_getElem?, List.head?_reverse]
  exact hstart.trans (maximal_of_mem h hq).start

/-- Every frame but the first is where an edge into the node in front of it leads. -/
theorem outward_succ (h : inputPaths g m = .ok paths) (hp : p ∈ trimmed g paths x) {j : Nat}
    {f : Frame} (hf : p.outward[j + 1]? = some f) :
    ∃ f' e, p.outward[j]? = some f' ∧ f = e.frame ∧ Walk.Open g (rule m) f' e := by
  obtain ⟨q, hq, hsuffix, _⟩ := exists_of_mem_trimmed hp
  have hsteps := List.isChain_reverse.2 ((maximal_of_mem h hq).steps.suffix hsuffix)
  obtain ⟨hlt, rfl⟩ := List.getElem?_eq_some_iff.1 hf
  obtain ⟨e, he, hopen⟩ := List.isChain_iff_getElem.1 hsteps j hlt
  exact ⟨_, e, List.getElem?_eq_getElem (Nat.lt_of_succ_lt hlt), he, hopen⟩

theorem eq_frame_of_edge (h : inputPaths g m = .ok paths) (hp : p ∈ trimmed g paths x) :
    ∀ f ∈ p, ∀ e, f.edge = some e → f = e.frame := by
  intro f hf e he
  obtain ⟨i, hi⟩ := List.mem_iff_getElem?.1 (List.mem_reverse.2 hf)
  cases i with
  | zero =>
      obtain rfl := Option.some.inj ((outward_zero h hp).symm.trans hi)
      cases he
  | succ j =>
      obtain ⟨_, e', _, rfl, _⟩ := outward_succ h hp hi
      exact congrArg Edge.frame (Option.some.inj he)

/-- All paths have their start in common. -/
theorem longest_pos {calls : Set String} {k : Nat} (h : inputPaths g m = .ok paths)
    (hp : p ∈ trimmed g paths x) (hk : Longest calls (trimmed g paths x) p k) : 0 < k := by
  obtain ⟨⟨r, hr, way, hcarries, _⟩, hgreatest⟩ := hk
  -- the way that is as long as any has the start as well, so one node is in common
  apply hgreatest
  refine ⟨r, hr, way, hcarries, ?_⟩
  obtain ⟨start, fs, call, rest, rfl, hsplit, _⟩ := hcarries
  have hr0 := outward_zero h hr
  rw [hsplit, List.cons_append, List.getElem?_cons_zero] at hr0
  obtain rfl := Option.some.inj hr0
  obtain ⟨fs', hfs'⟩ := List.head?_eq_some_iff.1
    (List.head?_eq_getElem?.trans (outward_zero h hp))
  rw [hfs']
  simp [BeginAlike]

/-! ## The list -/

/-- What an entry for a port can be, where `found` are the calls behind that port: one of
the calls, a join, or the start of a nested mux, which has no type. -/
def Accounted (own : List Path) (found : List Frame) (x : MuxPort) (d : Descriptor) : Prop :=
  (d.type = Descriptor.recursion ∧ d.node ∈ found.map Frame.node) ∨
    (d.type = Descriptor.branching ∧ d ∈ points own found x.name) ∨ d.type = ""

/-- What a list has for a port, where `found` are the calls behind that port. -/
structure Analysed (mc : MuxContinuations) (own : List Path) (found : List Frame)
    (x : MuxPort) : Prop where
  accounted : ∀ d ∈ mc.continuations, d.port = x.name → Accounted own found x d
  recursions : ∀ c ∈ found, ∃ d ∈ mc.continuations, d.type = Descriptor.recursion ∧
    d.port = x.name ∧ d.node = c.node
  branchings : ∀ d ∈ points own found x.name, ∃ d' ∈ mc.continuations,
    d'.node = d.node ∧ d'.port = x.name

theorem exists_analysed (h : continuations g m o = .ok mc) (hx : x ∈ o.ports) :
    ∃ paths found, inputPaths g m = .ok paths ∧ Analysed mc (trimmed g paths x) found x := by
  obtain ⟨paths, hpaths, rfl⟩ := exists_merged h
  refine ⟨paths, Recursion.nearestOf g (trimmed g paths x), hpaths, ?_, ?_, ?_⟩
  · intro d hd hport
    obtain ⟨y, _, hd⟩ := exists_of_mem_merged hd
    obtain rfl := MuxPort.name_injective ((port_of_mem_found hd).symm.trans hport)
    rcases hd with hd | hd | hd
    · obtain ⟨c, hc, rfl⟩ := List.mem_map.1 hd
      exact .inl ⟨rfl, List.mem_map_of_mem hc⟩
    · exact .inr (.inl ⟨type_of_mem_branchings hd, hd⟩)
    · exact .inr (.inr (type_of_mem_starts hd))
  · intro c hc
    exact ⟨_, (recursion_mem_merged_iff rfl).2 ⟨x, hx, List.mem_map_of_mem hc⟩, rfl, rfl, rfl⟩
  · intro d hd
    obtain ⟨d', hd', hkey⟩ :=
      exists_mem_merge (List.mem_map_of_mem hx) (.inr (.inl hd) : (found g paths x).Has d)
    obtain ⟨hnode, hport⟩ := Prod.mk.inj hkey
    exact ⟨d', hd', hnode, hport.trans (port_of_mem_points hd)⟩

namespace Analysed

variable {own : List Path} {found : List Frame}

theorem calls_eq (h : Analysed mc own found x) :
    mc.calls x = idsOf (found.map Frame.node) := by
  ext id
  constructor
  · rintro ⟨d, hd, htype, hport, rfl⟩
    rcases h.accounted d hd hport with ⟨_, hnode⟩ | ⟨htype', _⟩ | htype'
    · exact hnode
    · exact absurd (htype.symm.trans htype') (by decide)
    · exact absurd (htype.symm.trans htype') (by decide)
  · intro hid
    obtain ⟨c, hc, rfl⟩ := List.mem_map.1 hid
    exact h.recursions c hc

theorem mem_join (h : Analysed mc own found x) {d : Descriptor} (hd : d ∈ mc.continuations)
    (hport : d.port = x.name) (htype : d.type = Descriptor.branching) :
    d ∈ join x.name (kept (found.map Frame.node) own) := by
  rw [← points_eq]
  rcases h.accounted d hd hport with ⟨htype', _⟩ | ⟨_, hpoints⟩ | htype'
  · exact absurd (htype.symm.trans htype') (by decide)
  · exact hpoints
  · exact absurd (htype.symm.trans htype') (by decide)

theorem reports (h : Analysed mc own found x) {e : Edge}
    (he : e ∈ kept (found.map Frame.node) own) : mc.Reports x e := by
  obtain ⟨d, hd, hnode⟩ := exists_mem_join x.name he
  rw [← points_eq] at hd
  obtain ⟨d', hd', hnode', hport⟩ := h.branchings d hd
  refine ⟨d', hd', hnode'.trans hnode, hport, ?_⟩
  intro htype
  have hports := (branchPorts_of_mem_join (h.mem_join hd' hport htype)).2.2
  exact (hports e.targetPort).2 ⟨e, he, (hnode'.trans hnode).symm, rfl⟩

end Analysed

/-! ## Branches and joins -/

/-- A plain path that does not end on the way to a call leaves it along some edge. -/
theorem exists_leaves {calls : Set String} {k : Nat} (h : inputPaths g m = .ok paths)
    (hp : p ∈ trimmed g paths x) (hplain : Plain calls p)
    (hk : Longest calls (trimmed g paths x) p k) (hlt : k < p.length) :
    ∃ e, Leaves calls (trimmed g paths x) p k e := by
  obtain ⟨j, rfl⟩ := Nat.exists_eq_succ_of_ne_zero (longest_pos h hp hk).ne'
  have hlt : j + 1 < p.outward.length := by rwa [Path.outward, List.length_reverse]
  obtain ⟨_, e, _, he, _⟩ := outward_succ h hp (List.getElem?_eq_getElem hlt)
  exact ⟨e, hp, hplain, hk, he ▸ List.getElem?_eq_getElem hlt⟩

/-- Every plain path that does not end on the way to a call is in the list, where it
leaves, unless an earlier one leaves at the same place for somewhere else; and then one
of the earlier ones is. -/
theorem reported_or_earlier (h : continuations g m o = .ok mc) (hx : x ∈ o.ports) :
    ∃ paths, inputPaths g m = .ok paths ∧
      ∀ before p after k, trimmed g paths x = before ++ p :: after → Plain (mc.calls x) p →
        Longest (mc.calls x) (trimmed g paths x) p k → k < p.length →
        ∃ e, Leaves (mc.calls x) (trimmed g paths x) p k e ∧
          ((∀ q ∈ before, ∀ j a, Leaves (mc.calls x) (trimmed g paths x) q j a →
              a.origin = e.origin → a.target = e.target ∧ a.targetPort = e.targetPort) →
            mc.Reports x e) ∧
          ∃ q ∈ before ++ [p], ∃ j a, Leaves (mc.calls x) (trimmed g paths x) q j a ∧
            a.origin = e.origin ∧ mc.Reports x a := by
  obtain ⟨paths, found, hpaths, hanalysed⟩ := exists_analysed h hx
  refine ⟨paths, hpaths, ?_⟩
  rw [hanalysed.calls_eq]
  intro before p after k hown hplain hk hlt
  have hp : p ∈ trimmed g paths x := by simp [hown]
  obtain ⟨e, he⟩ := exists_leaves hpaths hp hplain hk hlt
  obtain ⟨q, hq, j, a, ha, horigin, hkept⟩ :=
    exists_mem_kept_of_leaves (fun q hq => eq_frame_of_edge hpaths hq) hown he
  have hreports : mc.Reports x a := hanalysed.reports hkept
  refine ⟨e, he, ?_, q, hq, j, a, ha, horigin, hreports⟩
  intro hearlier
  -- the kept edge is that of an earlier path or that of the path itself
  have hsame : a.target = e.target ∧ a.targetPort = e.targetPort := by
    rcases List.mem_append.1 hq with hq | hq
    · exact hearlier q hq j a ha horigin
    · obtain rfl := List.mem_singleton.1 hq
      obtain rfl := he.unique ha
      exact ⟨rfl, rfl⟩
  obtain ⟨d, hd, hnode, hport, hports⟩ := hreports
  exact ⟨d, hd, hnode.trans hsame.1, hport, fun htype => hsame.2 ▸ hports htype⟩

end Mux

/-- A sum of a value and a product of the same value with what a call gives. -/
def UsedTwice.graph : Graph where
  nodes :=
    [Node.selector "m",
      { id := "add", inputs := [⟨"a", "any"⟩, ⟨"b", "any"⟩], outputs := [⟨"o", "any"⟩] },
      { id := "mul", inputs := [⟨"a", "any"⟩, ⟨"b", "any"⟩], outputs := [⟨"o", "any"⟩] },
      Node.call "c" [], { id := "s", outputs := [⟨"o", "any"⟩] }]
  edges :=
    [Edge.wire "add" "o" "m" "input1", Edge.wire "mul" "o" "add" "a", Edge.wire "s" "o" "add" "b",
      Edge.wire "c" "o" "mul" "a", Edge.wire "s" "o" "mul" "b"]
  id_ne_empty := by decide
  ids_nodup := by decide
  kind_eq_mux := by decide
  name_ne_empty := by decide
  names_nodup := by decide
  closed := by decide

namespace UsedTwice

/-! Three paths lead back from the sum: to the call, and through the product or straight to
the value. -/

/-- The path behind the first operand along the given edges. -/
def along (es : List Edge) : Path := es.map Edge.frame ++ [⟨"m", "input1", none⟩]

def toCall : Path :=
  along [Edge.wire "c" "o" "mul" "a", Edge.wire "mul" "o" "add" "a",
    Edge.wire "add" "o" "m" "input1"]

def inner : Path :=
  along [Edge.wire "s" "o" "mul" "b", Edge.wire "mul" "o" "add" "a",
    Edge.wire "add" "o" "m" "input1"]

def outer : Path :=
  along [Edge.wire "s" "o" "add" "b", Edge.wire "add" "o" "m" "input1"]

/-- The call, and the product as a join. -/
def listed : List Descriptor :=
  [{ node := "c", port := "input1", type := Descriptor.recursion },
    { node := "mul", port := "input1", type := Descriptor.branching, branchPorts := ["b"] }]

theorem run : ∃ paths mc, Mux.inputPaths graph "m" = .ok paths ∧
    Mux.continuations graph "m" .default = .ok mc ∧
    Mux.trimmed graph paths .input1 = [toCall, inner, outer] ∧
    mc.continuations = listed ∧ mc.calls .input1 = idsOf ["c"] := by
  obtain ⟨paths, hpaths, htrimmed⟩ : ∃ paths, Mux.inputPaths graph "m" = .ok paths ∧
      Mux.trimmed graph paths .input1 = [toCall, inner, outer] :=
    exists_ok_of_okAnd (by decide +kernel)
  obtain ⟨mc, hmc, hlist⟩ : ∃ mc, Mux.continuations graph "m" .default = .ok mc ∧
      mc.continuations = listed :=
    exists_ok_of_okAnd (by decide +kernel)
  refine ⟨paths, mc, hpaths, hmc, htrimmed, hlist, ?_⟩
  ext id
  simp [MuxContinuations.calls, hlist, listed, MuxPort.name, Descriptor.recursion,
    Descriptor.branching, eq_comm]

theorem leaves_inner : Leaves (idsOf ["c"]) [toCall, inner, outer] inner 3
    (Edge.wire "s" "o" "mul" "b") :=
  leaves_iff.2 (by decide)

theorem leaves_outer : Leaves (idsOf ["c"]) [toCall, inner, outer] outer 2
    (Edge.wire "s" "o" "add" "b") :=
  leaves_iff.2 (by decide)

end UsedTwice

namespace Mux

open UsedTwice

/-- The value is used in the product, and the list says so. -/
theorem reported_inner : ∃ paths mc, inputPaths graph "m" = .ok paths ∧
    continuations graph "m" .default = .ok mc ∧
    Leaves (mc.calls .input1) (trimmed graph paths .input1) inner 3
      (Edge.wire "s" "o" "mul" "b") ∧
    mc.Reports .input1 (Edge.wire "s" "o" "mul" "b") := by
  obtain ⟨paths, mc, hpaths, hmc, htrimmed, _, hcalls⟩ := UsedTwice.run
  have hleaves := leaves_inner
  rw [← htrimmed, ← hcalls] at hleaves
  obtain ⟨paths', hpaths', hall⟩ := reported_or_earlier hmc (x := .input1) (by decide)
  obtain rfl := Except.ok.inj (hpaths.symm.trans hpaths')
  obtain ⟨e, he, hreports, _⟩ := hall [toCall] inner [outer] 3 htrimmed hleaves.plain
    hleaves.longest (by decide)
  obtain rfl := he.unique hleaves
  refine ⟨paths, mc, hpaths, hmc, hleaves, hreports ?_⟩
  -- the only path that comes before is the one to the call
  intro q hq j a ha
  obtain rfl := List.mem_singleton.1 hq
  rw [hcalls] at ha
  exact absurd (segment?_eq_none_iff.2 ha.plain) (by decide)

/-- The value is used in the sum as well, and the list does not say so. -/
theorem unreported_outer : ∃ paths mc, inputPaths graph "m" = .ok paths ∧
    continuations graph "m" .default = .ok mc ∧
    Leaves (mc.calls .input1) (trimmed graph paths .input1) outer 2
      (Edge.wire "s" "o" "add" "b") ∧
    ¬mc.Reports .input1 (Edge.wire "s" "o" "add" "b") := by
  obtain ⟨paths, mc, hpaths, hmc, htrimmed, hlist, hcalls⟩ := UsedTwice.run
  have hleaves := leaves_outer
  rw [← htrimmed, ← hcalls] at hleaves
  refine ⟨paths, mc, hpaths, hmc, hleaves, ?_⟩
  rintro ⟨d, hd, hnode, _⟩
  rw [hlist] at hd
  revert d
  decide

/-- The branch along `p` and the way to a call on `r` have their first `j + 1` nodes in
common, and no way has more of them; `e` leads from the branch into the port `q` of the
last of these nodes, which is `v`. -/
structure Joins (g : Graph) (calls : Set String) (own : List Path) (v q : String) (p r : Path)
    (way : List Frame) (j : Nat) (e : Edge) : Prop where
  leaves : Leaves calls own p (j + 1) e
  mem : r ∈ own
  carries : Carries calls r way
  alike : BeginAlike (j + 1) p.outward way
  on_path : (p.outward[j]?).map Frame.node = some v
  on_way : (way[j]?).map Frame.node = some v
  edge_mem : e ∈ g.edges
  data : e.continuation = false
  target : e.target = v
  port : e.targetPort = q

theorem exists_joins_of_leaves {calls : Set String} {k : Nat} {e : Edge}
    (h : inputPaths g m = .ok paths) (he : Leaves calls (trimmed g paths x) p k e) :
    ∃ r way j, Joins g calls (trimmed g paths x) e.target e.targetPort p r way j e := by
  obtain ⟨j, rfl⟩ := Nat.exists_eq_succ_of_ne_zero (longest_pos h he.mem he.longest).ne'
  obtain ⟨r, hr, way, hcarries, halike⟩ := he.longest.1
  obtain ⟨f, e', hf, hframe, hopen⟩ := outward_succ h he.mem he.next
  obtain rfl := Edge.frame_injective hframe
  have hpath : (p.outward[j]?).map Frame.node = some e.target := by
    rw [hf, hopen.target]
    rfl
  refine ⟨r, way, j, he, hr, hcarries, halike, hpath, ?_, hopen.mem, hopen.data, rfl, rfl⟩
  exact (halike.getElem? j.lt_succ_self).symm.trans hpath

/-- Every join in a list is one, at each of its ports; and there are none where no path
carries a call and none where all do. -/
theorem branching_justified (h : continuations g m o = .ok mc) (hx : x ∈ o.ports) :
    ∃ paths, inputPaths g m = .ok paths ∧
      (∀ d ∈ mc.continuations, d.port = x.name → d.type = Descriptor.branching →
        d.branchPorts ≠ [] ∧ d.branchPorts.Nodup ∧ ∀ q ∈ d.branchPorts, ∃ p r way j e,
          Joins g (mc.calls x) (trimmed g paths x) d.node q p r way j e) ∧
      ((∀ p ∈ trimmed g paths x, ∃ way, Carries (mc.calls x) p way) ∨
          (∀ p ∈ trimmed g paths x, ¬∃ way, Carries (mc.calls x) p way) →
        ∀ d ∈ mc.continuations, d.port = x.name → d.type ≠ Descriptor.branching) := by
  obtain ⟨paths, found, hpaths, hanalysed⟩ := exists_analysed h hx
  refine ⟨paths, hpaths, ?_⟩
  rw [hanalysed.calls_eq]
  have hjoins : ∀ d ∈ mc.continuations, d.port = x.name → d.type = Descriptor.branching →
      d.branchPorts ≠ [] ∧ d.branchPorts.Nodup ∧ ∀ q ∈ d.branchPorts, ∃ p r way j e,
        Joins g (idsOf (found.map Frame.node)) (trimmed g paths x) d.node q p r way j e := by
    intro d hd hport htype
    obtain ⟨hne, hnodup, hports⟩ :=
      branchPorts_of_mem_join (hanalysed.mem_join hd hport htype)
    refine ⟨hne, hnodup, ?_⟩
    intro q hq
    obtain ⟨e, he, hnode, rfl⟩ := (hports q).1 hq
    obtain ⟨p, k, hleaves⟩ :=
      exists_leaves_of_mem_kept (fun p hp => eq_frame_of_edge hpaths hp) he
    obtain ⟨r, way, j, hjoins⟩ := exists_joins_of_leaves hpaths hleaves
    exact ⟨p, r, way, j, e, hnode ▸ hjoins⟩
  refine ⟨hjoins, ?_⟩
  intro hall d hd hport htype
  obtain ⟨hne, _, hports⟩ := hjoins d hd hport htype
  obtain ⟨q, hq⟩ := List.exists_mem_of_ne_nil _ hne
  obtain ⟨p, r, way, j, e, hjoin⟩ := hports q hq
  rcases hall with hall | hall
  · obtain ⟨way', hcarries⟩ := hall p hjoin.leaves.mem
    exact plain_iff.1 hjoin.leaves.plain way' hcarries
  · exact hall r hjoin.mem ⟨way, hjoin.carries⟩

theorem branching_inner : ∃ paths mc, inputPaths graph "m" = .ok paths ∧
    continuations graph "m" .default = .ok mc ∧ ∃ p r way j e,
      Joins graph (mc.calls .input1) (trimmed graph paths .input1) "mul" "b" p r way j e := by
  obtain ⟨paths, mc, hpaths, hmc, _, hlist, _⟩ := UsedTwice.run
  obtain ⟨paths', hpaths', hjoins, _⟩ := branching_justified hmc (x := .input1) (by decide)
  obtain rfl := Except.ok.inj (hpaths.symm.trans hpaths')
  have hmem : listed[1] ∈ mc.continuations := by
    rw [hlist]
    decide
  obtain ⟨_, _, hports⟩ := hjoins _ hmem rfl rfl
  exact ⟨paths, mc, hpaths, hmc, hports "b" List.mem_cons_self⟩

end Mux

end MuxFlow
