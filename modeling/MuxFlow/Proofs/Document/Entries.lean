import MuxFlow.Document.Build
import MuxFlow.Document.Encode

/-!
# Entries are read back

The writer leaves out members that have nothing to say, and the reader starts from a
record that says nothing. So reading what was written for a field sets the field, also
when nothing was written for it: `members_textMember` and `members_flagMember` say so
for one field, and an entry is read field by field in the order in which it was
written. The entry of a node is `NodeEntry.ofNode`, that of an edge
`EdgeEntry.ofEdge`, and the document of a graph is read as the list of these.
-/

namespace MuxFlow

/-- The bodies of a call as they are read back: a list that was never given comes back
as one that names the empty id. -/
def RecursesTo.reread (r : RecursesTo) : RecursesTo := ⟨some (r.branch.getD [""])⟩

namespace Document

namespace Field

variable {α β : Type} {fields : List (String × Field α)}

theorem members_nil (a : α) : members fields a [] = some a := rfl

theorem members_append {a b c : α} {xs ys : List (String × Json)}
    (hx : members fields a xs = some b) (hy : members fields b ys = some c) :
    members fields a (xs ++ ys) = some c := by
  unfold members at hx hy ⊢
  rw [List.foldlM_append, hx]
  exact hy

theorem members_cons {name : String} {read : Field α} (hfind : find? fields name = some read)
    {a b c : α} {v : Json} {ms : List (String × Json)} (hv : read a v = some b)
    (hms : members fields b ms = some c) : members fields a ((name, v) :: ms) = some c := by
  simp only [members, List.foldlM_cons, hfind, hv]
  exact hms

theorem members_unknown {name : String} (hfind : find? fields name = none) (a : α) (v : Json)
    (ms : List (String × Json)) : members fields a ((name, v) :: ms) = members fields a ms := by
  simp [members, hfind]

theorem members_memberIf {name : String} {read : Field α} (hfind : find? fields name = some read)
    {present : Bool} {a b : α} {v : Json} (hthere : present = true → read a v = some b)
    (hgone : present = false → a = b) : members fields a (memberIf present name v) = some b := by
  cases present with
  | false => exact congrArg some (hgone rfl)
  | true => exact members_cons hfind (hthere rfl) (members_nil b)

variable {name : String}

theorem members_textMember {get : α → String} {set : α → String → α}
    (hfind : find? fields name = some (on get set text)) {a : α} (hset : set a "" = a)
    (s : String) : members fields a (textMember name s) = some (set a s) := by
  apply members_memberIf hfind
  · intro _
    rfl
  · intro h
    have hs : s = "" := by simpa using h
    rw [hs, hset]

theorem members_flagMember {get : α → Bool} {set : α → Bool → α}
    (hfind : find? fields name = some (on get set flag)) {a : α} (hset : set a false = a)
    (b : Bool) : members fields a (flagMember name b) = some (set a b) := by
  apply members_memberIf hfind
  · rintro rfl
    rfl
  · rintro rfl
    exact hset.symm

theorem optional_obj (fresh : α) (read : Field α) (ms : List (String × Json)) :
    optional fresh read none (.obj ms) = (read fresh (.obj ms)).map some := rfl

end Field

theorem mapM_map_eq_some {α β : Type} {read : β → Option α} {write : α → β}
    (h : ∀ x, read (write x) = some x) (xs : List α) : (xs.map write).mapM read = some xs := by
  induction xs with
  | nil => rfl
  | cons x xs ih => simp [List.mapM_cons, h, ih]

namespace Places

variable {α β : Type}

/-- A list that is read for the first time. -/
theorem field_empty {fresh : β} {read : Field β} {write : α → Json} {f : α → β}
    (h : ∀ x, read fresh (write x) = some (f x)) (xs : List α) :
    field fresh read {} (.arr (xs.map write)) = some ⟨xs.map f, []⟩ := by
  have hitems : ∀ xs : List α,
      readItems fresh read [] (xs.map write) = some (xs.map f) := by
    intro xs
    induction xs with
    | nil => rfl
    | cons x xs ih => simp [readItems, h, ih]
  cases xs with
  | nil => rfl
  | cons x xs =>
      have hcons := hitems (x :: xs)
      rw [List.map_cons] at hcons ⊢
      simp [field, hcons]

end Places

open MuxFlow.Document.Field

/-- The entry of a descriptor. -/
def DescriptorEntry.ofDescriptor (d : Descriptor) : DescriptorEntry :=
  ⟨d.node, d.port, d.type, ⟨d.branchPorts, []⟩⟩

theorem field_texts (texts : List String) :
    Places.field "" text {} (textsJson texts) = some ⟨texts, []⟩ := by
  have h : ∀ s, text "" (.str s) = some (id s) := fun _ => rfl
  rw [textsJson, Places.field_empty h, List.map_id]

theorem record_descriptor (d : Descriptor) :
    record DescriptorEntry.fields {} d.toJson = some (.ofDescriptor d) := by
  rw [Descriptor.toJson, record]
  refine members_cons rfl rfl (members_cons rfl rfl ?_)
  refine members_append (members_textMember rfl rfl d.type) ?_
  apply members_memberIf rfl
  · intro _
    simp only [on, field_texts]
    rfl
  · intro h
    have hnil : d.branchPorts = [] := by simpa using h
    simp [DescriptorEntry.ofDescriptor, hnil]

/-- What a document says of the annotations of a node. -/
def ParamsEntry.ofNode (n : Node) : ParamsEntry where
  mark := (n.mark.map Mark.toJson).getD .null
  continuations := ⟨n.continuations.map .ofDescriptor, []⟩

theorem record_params (n : Node) :
    record ParamsEntry.fields {}
        (.obj ((n.mark.map fun m => ("isContinuation", m.toJson)).toList ++
          memberIf (!n.continuations.isEmpty) "continuations"
            (.arr (n.continuations.map Descriptor.toJson)))) =
      some (.ofNode n) := by
  have hmark : members ParamsEntry.fields {}
      (n.mark.map fun m => ("isContinuation", m.toJson)).toList =
        some { mark := (n.mark.map Mark.toJson).getD .null } := by
    cases n.mark with
    | none => rfl
    | some m => exact members_cons rfl rfl (members_nil _)
  refine members_append hmark ?_
  apply members_memberIf rfl
  · intro _
    simp only [on, Places.field_empty record_descriptor]
    rfl
  · intro h
    have hnil : n.continuations = [] := by simpa using h
    simp [ParamsEntry.ofNode, hnil]

theorem mark?_toJson (m : Mark) : mark? m.toJson = some (some m) := by
  cases m with
  | body => rfl
  | descriptor d =>
      have hread : mark? d.toJson = (record DescriptorEntry.fields {} d.toJson).map
        fun e => some (.descriptor e.descriptor) := rfl
      rw [Mark.toJson, hread, record_descriptor]
      rfl

theorem mark?_getD (m : Option Mark) : mark? ((m.map Mark.toJson).getD .null) = some m := by
  cases m with
  | none => rfl
  | some m => exact mark?_toJson m

theorem ports?_portsJson (ports : List Port) : ports? (portsJson ports) = some ports := by
  rw [portsJson, ports?]
  apply mapM_map_eq_some
  intro p
  rfl

theorem branch?_textsJson (ids : List String) : branch? (textsJson ids) = some (some ids) := by
  have h : ∀ s, itemText? (.str s) = some s := fun _ => rfl
  rw [textsJson, branch?, mapM_map_eq_some h]
  rfl

theorem record_recursesTo (r : RecursesTo) :
    record recursesToFields ⟨none⟩ r.toJson = some r.reread := by
  obtain ⟨_ | ids⟩ := r
  · rfl
  · match ids with
    | [] => rfl
    | [id] => exact members_cons rfl rfl (members_nil _)
    | id :: next :: ids =>
        refine members_cons rfl ?_ (members_nil _)
        simp only [on, replace, branch?_textsJson]
        rfl

/-- What a document says of a node under `value`. -/
def NodeValue.ofNode (n : Node) : NodeValue where
  atomic := some (n.kind ≠ .compound)
  recursesTo := n.recursesTo.map RecursesTo.reread
  params := if n.mark.isSome || !n.continuations.isEmpty then some (.ofNode n) else none
  component := n.component
  inputs := n.inputs
  outputs := n.outputs
  recursive := n.recursive
  recursiveRoot := n.recursiveRoot

theorem members_recursesTo (n : Node) :
    members NodeValue.fields { atomic := some (n.kind ≠ .compound) }
        (n.recursesTo.map fun r => ("recursesTo", r.toJson)).toList =
      some { atomic := some (n.kind ≠ .compound)
             recursesTo := n.recursesTo.map RecursesTo.reread } := by
  cases n.recursesTo with
  | none => rfl
  | some r =>
      refine members_cons rfl ?_ (members_nil _)
      have hread := record_recursesTo r
      unfold RecursesTo.toJson at hread ⊢
      simp only [on, optional_obj, hread]
      rfl

theorem members_paramsMember (n : Node) (a : NodeValue) (ha : a.params = none) :
    members NodeValue.fields a n.paramsMember =
      some { a with params :=
        if n.mark.isSome || !n.continuations.isEmpty then some (.ofNode n) else none } := by
  apply members_memberIf rfl
  · intro h
    simp only [on, ha, optional_obj, record_params]
    rw [if_pos h]
    rfl
  · intro h
    rw [h]
    cases a
    cases ha
    rfl

theorem members_portsMember {name : String} {get : NodeValue → List Port}
    {set : NodeValue → List Port → NodeValue}
    (hfind : find? NodeValue.fields name = some (on get set (replace ports?))) {a : NodeValue}
    (hset : set a [] = a) (ports : List Port) :
    members NodeValue.fields a (portsMember name ports) = some (set a ports) := by
  apply members_memberIf hfind
  · intro _
    simp only [on, replace, ports?_portsJson]
    rfl
  · intro h
    have hnil : ports = [] := by simpa using h
    rw [hnil, hset]

theorem record_nodeValue (n : Node) :
    record NodeValue.fields {} n.valueJson = some (.ofNode n) := by
  rw [Node.valueJson, record]
  simp only [List.append_assoc]
  refine members_cons rfl rfl ?_
  refine members_append (members_recursesTo n) ?_
  refine members_append (members_paramsMember n _ rfl) ?_
  refine members_append (members_textMember rfl rfl n.component) ?_
  refine members_append (members_portsMember rfl rfl n.inputs) ?_
  refine members_append (members_portsMember rfl rfl n.outputs) ?_
  refine members_append (members_flagMember rfl rfl n.recursive) ?_
  exact Eq.trans (members_flagMember rfl rfl n.recursiveRoot) rfl

/-- The entry of a node. -/
def NodeEntry.ofNode (n : Node) : NodeEntry := ⟨n.id, n.parent, .ofNode n⟩

theorem record_node (n : Node) : record NodeEntry.fields {} n.toJson = some (.ofNode n) := by
  rw [Node.toJson, record]
  refine members_cons rfl rfl ?_
  refine members_append (members_textMember rfl rfl n.parent) ?_
  refine members_cons rfl ?_ (members_nil _)
  simp only [on, record_nodeValue]
  rfl

/-- The entry of an edge. -/
def EdgeEntry.ofEdge (e : Edge) : EdgeEntry :=
  ⟨e.source, e.target, e.name, ⟨e.sourcePort, e.targetPort, e.continuation, e.control⟩⟩

theorem record_edgeValue (e : Edge) :
    record EdgeValue.fields {} e.valueJson =
      some ⟨e.sourcePort, e.targetPort, e.continuation, e.control⟩ := by
  rw [Edge.valueJson, record]
  simp only [List.append_assoc]
  refine members_append (members_textMember rfl rfl e.sourcePort) ?_
  refine members_append (members_textMember rfl rfl e.targetPort) ?_
  refine members_append (members_flagMember rfl rfl e.continuation) ?_
  exact Eq.trans (members_flagMember rfl rfl e.control) rfl

theorem record_edge (e : Edge) : record EdgeEntry.fields {} e.toJson = some (.ofEdge e) := by
  rw [Edge.toJson, record]
  refine members_cons rfl rfl (members_cons rfl rfl ?_)
  refine members_append (members_textMember rfl rfl e.name) ?_
  refine members_cons rfl ?_ (members_nil _)
  simp only [on, record_edgeValue]
  rfl

/-- The document of a graph is read as the entries of its nodes and edges. -/
theorem ofJson?_toJson (g : Graph) :
    ofJson? g.toJson =
      some ⟨⟨g.nodes.map .ofNode, []⟩, ⟨g.edges.map .ofEdge, []⟩⟩ := by
  rw [Graph.toJson, ofJson?, record, members_unknown rfl]
  refine members_cons (b := ⟨⟨g.nodes.map .ofNode, []⟩, {}⟩) rfl ?_
    (members_cons rfl ?_ (members_nil _))
  · simp only [on, Places.field_empty record_node]
    rfl
  · simp only [on, Places.field_empty record_edge]
    rfl

end Document

end MuxFlow
