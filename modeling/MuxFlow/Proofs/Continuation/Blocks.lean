import MuxFlow.Proofs.Annotate.Stages

/-!
# The blocks of a continuation list

A list of continuations is merged from what is found behind the analysed ports. Merging
drops an entry when an earlier one has the same node and the same port, so no port is in
the way of another: the entries of some ports are what these ports give when they are
analysed alone (`filter_merge`). In particular the control port only adds entries, and
leaving it out changes nothing else (`continuations_without_control`).

The entries of one port and one reason are a `block`. Calls come first, so all that are
found are there (`block_recursion`); a join is there when it is not at a call, and a
nested mux when it is neither (`filter_merged`).
-/

namespace MuxFlow

variable {g : Graph} {m : String} {o : Options} {paths : InputPaths} {x : MuxPort}

/-- The entries that a list has behind a port for a reason. -/
def MuxContinuations.block (mc : MuxContinuations) (type : String) (x : MuxPort) :
    List Descriptor :=
  mc.continuations.filter fun d => d.type = type ∧ d.port = x.name

namespace Mux

/-- A test for a reason passes a list of entries for one reason as a whole or not at
all. -/
theorem filter_type {type : String} {ds : List Descriptor} (h : ∀ d ∈ ds, d.type = type)
    (type' : String) :
    (ds.filter fun d => d.type = type') = if type = type' then ds else [] := by
  split
  · next heq => exact List.filter_eq_self.2 fun d hd => decide_eq_true ((h d hd).trans heq)
  · next hne =>
      apply List.filter_eq_nil_iff.2
      intro d hd
      simpa [h d hd] using hne

theorem keys_recursions_nodup : ((found g paths x).recursions.map Descriptor.key).Nodup := by
  have hnodes := nodup_keys_distinctBy Frame.node
    ((trimmed g paths x).filterMap (Recursion.nearest? g))
  rw [found, List.map_map]
  exact List.Nodup.of_map Prod.fst (by rwa [List.map_map])

/-! ## One port or several -/

/-- The entries of the ports that pass a test are the merged findings of these ports. -/
theorem filter_merge (g : Graph) (paths : InputPaths) (test : String → Bool)
    (ports : List MuxPort) :
    ((merge (ports.map (found g paths))).filter fun d => test d.port) =
      merge ((ports.filter fun x => test x.name).map (found g paths)) := by
  have hpart : ∀ part : PortFindings → List Descriptor,
      (∀ x, ∀ d ∈ part (found g paths x), d.port = x.name) →
      (((ports.map (found g paths)).flatMap part).filter fun d => test d.port) =
        ((ports.filter fun x => test x.name).map (found g paths)).flatMap part := by
    intro part hport
    rw [List.flatMap_map, List.flatMap_map]
    apply filter_flatMap_of_forall
    intro x _ d hd
    rw [hport x d hd]
  rw [merge, filter_distinctBy, List.filter_append, List.filter_append,
    hpart _ fun x d hd => port_of_mem_found (.inl hd),
    hpart _ fun x d hd => port_of_mem_found (.inr (.inl hd)),
    hpart _ fun x d hd => port_of_mem_found (.inr (.inr hd))]
  · rfl
  · intro d _ d' _ hkey
    rw [(Prod.mk.inj hkey).2]

/-- A list without the control port is the list with it, less the entries of that port;
and where one of them is refused, so is the other. -/
theorem continuations_without_control (g : Graph) (m : String) (o : Options) :
    continuations g m { o with includeControl := false } =
      (continuations g m { o with includeControl := true }).map fun mc =>
        { mc with
          continuations := mc.continuations.filter fun d => d.port ≠ MuxPort.control.name } := by
  have hvalidate : ∀ b, ({ o with includeControl := b } : Options).validate = o.validate :=
    fun _ => rfl
  rw [continuations_eq, continuations_eq, hvalidate false, hvalidate true]
  cases o.validate with
  | error e => rfl
  | ok _ =>
      cases inputPaths g m with
      | error e => rfl
      | ok paths =>
          have hlist := filter_merge g paths
            (fun port => decide (port ≠ MuxPort.control.name)) MuxPort.all
          exact congrArg (fun ds => Except.ok (MuxContinuations.mk m ds)) hlist.symm

/-! ## The entries of a port -/

theorem filter_ports (hx : x ∈ o.ports) : (o.ports.filter fun y => y.name = x.name) = [x] := by
  unfold Options.ports at hx ⊢
  cases hc : o.includeControl with
  | true => cases x <;> rfl
  | false =>
      rw [hc] at hx
      revert x
      decide

/-- What a list has behind a port: the calls and joins, and the nested muxes that are not
among them. -/
theorem filter_merged (hx : x ∈ o.ports) :
    ((merged g m o paths).continuations.filter fun d => d.port = x.name) =
      distinctBy Descriptor.key ((found g paths x).recursions ++ (found g paths x).branchings) ++
        (distinctBy Descriptor.key (found g paths x).starts).filter fun d =>
          d.key ∉ ((found g paths x).recursions ++ (found g paths x).branchings).map
            Descriptor.key := by
  have hport := filter_merge g paths (fun port => port = x.name) o.ports
  rw [filter_ports hx] at hport
  rw [merged, hport, List.map_singleton, merge, List.flatMap_singleton, List.flatMap_singleton,
    List.flatMap_singleton, distinctBy_append]
  congr!

/-- The calls behind a port are all in the list, and in the order in which they were
found. -/
theorem block_recursion (hx : x ∈ o.ports) :
    (merged g m o paths).block Descriptor.recursion x = (found g paths x).recursions := by
  have hblock : (merged g m o paths).block Descriptor.recursion x =
      ((merged g m o paths).continuations.filter fun d => d.port = x.name).filter
        fun d => d.type = Descriptor.recursion := by
    rw [List.filter_filter, MuxContinuations.block]
    simp only [Bool.decide_and]
  have hcalls : ((found g paths x).recursions.filter fun d => d.type = Descriptor.recursion) =
      (found g paths x).recursions := by
    rw [filter_type fun d => type_of_mem_recursions, if_pos rfl]
  -- what is in the list for another reason is not a call
  have hother : ∀ (type : String) (ds : List Descriptor) (keep : Descriptor → Bool),
      type ≠ Descriptor.recursion → (∀ d ∈ ds, d.type = type) →
      ((distinctBy Descriptor.key ds).filter keep).filter
        (fun d => d.type = Descriptor.recursion) = [] := by
    intro type ds keep hne htype
    rw [filter_type, if_neg hne]
    intro d hd
    exact htype d (mem_of_mem_distinctBy Descriptor.key (List.mem_filter.1 hd).1)
  rw [hblock, filter_merged hx, distinctBy_append, distinctBy_eq_self _ _ keys_recursions_nodup,
    List.filter_append, List.filter_append, hcalls,
    hother Descriptor.branching _ _ (by decide) fun d hd => type_of_mem_branchings hd,
    hother "" _ _ (by decide) fun d hd => type_of_mem_starts hd, List.append_nil, List.append_nil]

/-- A call is in the list when it is found behind an analysed port. -/
theorem recursion_mem_merged_iff {d : Descriptor} (htype : d.type = Descriptor.recursion) :
    d ∈ (merged g m o paths).continuations ↔ ∃ x ∈ o.ports, d ∈ (found g paths x).recursions := by
  constructor
  · intro hd
    obtain ⟨x, hx, hd | hd | hd⟩ := exists_of_mem_merged hd
    · exact ⟨x, hx, hd⟩
    · exact absurd ((type_of_mem_branchings hd).symm.trans htype) (by decide)
    · exact absurd ((type_of_mem_starts hd).symm.trans htype) (by decide)
  · rintro ⟨x, hx, hd⟩
    rw [← block_recursion (m := m) hx] at hd
    exact (List.mem_filter.1 hd).1

end Mux

namespace Tapped

/-! A mux with a sum behind its first operand, to which a call contributes twice and a value
once, and behind its second operand a pair of calls and another mux. The control port is
tapped from where one of the pair arrives. -/

/-- The graph. -/
def graph : Graph where
  nodes :=
    [Node.selector "m",
      { id := "add", inputs := [⟨"a", "any"⟩, ⟨"b", "any"⟩], outputs := [⟨"o", "any"⟩] },
      { id := "pair", inputs := [⟨"left", "any"⟩, ⟨"right", "any"⟩], outputs := [⟨"o", "any"⟩] },
      Node.call "c" [], Node.call "d" [], Node.call "e" [],
      { id := "v", outputs := [⟨"o", "any"⟩] }, Node.selector "n"]
  edges :=
    [Edge.wire "add" "o" "m" "input1", Edge.wire "c" "o" "add" "a", Edge.wire "c" "o" "add" "b",
      Edge.wire "v" "o" "add" "b", Edge.wire "pair" "o" "m" "input2",
      Edge.wire "n" "o" "m" "input2", Edge.wire "d" "o" "pair" "left",
      Edge.wire "e" "o" "pair" "right", Edge.wire "pair" "right" "m" "control"]
  id_ne_empty := by decide
  ids_nodup := by decide
  kind_eq_mux := by decide
  name_ne_empty := by decide
  names_nodup := by decide
  closed := by decide

/-- The path behind a port along the given edges. -/
def along (x : MuxPort) (es : List Edge) : Path := es.map Edge.frame ++ [⟨"m", x.name, none⟩]

end Tapped

end MuxFlow
