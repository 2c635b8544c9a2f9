import MuxFlow.Continuation.Divergence
import MuxFlow.Proofs.BitSet
import MuxFlow.Proofs.Graph.Assembly

/-!
# Shared nodes, without the positions

The nodes of a path are gathered as a set of positions in the graph. Positions
tell nodes apart (`index?_inj`), so to be in that set is to be a node of the
graph that the path goes through, whatever the positions are.
-/

namespace MuxFlow

namespace Graph

variable (g : Graph)

/-- The node at the position of an id has that id. -/
theorem getElem?_of_index? {id : String} {i : Nat} (h : g.index? id = some i) :
    (g.nodes[i]?).map Node.id = some id := by
  obtain ⟨hlt, hid, _⟩ := List.findIdx?_eq_some_iff_getElem.1 h
  rw [List.getElem?_eq_getElem hlt]
  simpa using hid

theorem index?_inj {a b : String} {i : Nat} (ha : g.index? a = some i)
    (hb : g.index? b = some i) : a = b := by
  have h := (g.getElem?_of_index? ha).symm.trans (g.getElem?_of_index? hb)
  exact Option.some.inj h

theorem index?_isSome (id : String) : (g.index? id).isSome = g.hasNode id := by
  unfold index? Builder.hasNode
  rw [List.findIdx?_isSome]

end Graph

namespace Divergence

/-- To be seen is to be a node that the path, its start left out, goes through. -/
theorem seen_nodeSet (g : Graph) (q : Path) (id : String) :
    seen g (nodeSet g q) id = (g.hasNode id && decide (id ∈ Path.nodes q.dropLast)) := by
  unfold seen nodeSet
  rw [← g.index?_isSome]
  cases hi : g.index? id with
  | none => rfl
  | some i =>
      simp only [BitSet.contains_ofList, Option.isSome_some, Bool.true_and]
      congr 1
      rw [List.mem_filterMap, eq_iff_iff]
      constructor
      · rintro ⟨a, ha, hai⟩
        rwa [g.index?_inj hi hai]
      · intro hid
        exact ⟨id, hid, hi⟩

theorem latestIn_congr {g g' : Graph} {s s' : BitSet} (p : Path)
    (h : ∀ f ∈ p, seen g s f.node = seen g' s' f.node) : latestIn g s p = latestIn g' s' p := by
  induction p with
  | nil => rfl
  | cons f p ih =>
      obtain ⟨hf, hp⟩ := List.forall_mem_cons.1 h
      cases p with
      | nil => rfl
      | cons f' p => rw [latestIn, latestIn, hf, ih hp]

/-- What is cut off is cut off at the far end. -/
theorem trim_suffix (g : Graph) (sets : List (List Path)) (p : Path) : trim g sets p <:+ p := by
  rw [trim, Path.suffix]
  split
  · exact List.suffix_rfl
  · exact List.drop_suffix _ p

theorem start?_trim (g : Graph) (sets : List (List Path)) (p : Path) :
    (trim g sets p).start? = p.start? := by
  rw [trim, Path.suffix]
  split
  · rfl
  · rw [Path.start?, Path.start?, List.getLast?_drop]
    split
    · have hp : p.length = 0 := by omega
      rw [List.length_eq_zero_iff.1 hp]
      rfl
    · rfl

/-- Where a path is cut depends on the graph only by which nodes of the path are in
it. -/
theorem trim_congr {g g' : Graph} (sets : List (List Path)) {p : Path}
    (h : ∀ f ∈ p, g.hasNode f.node = g'.hasNode f.node) : trim g sets p = trim g' sets p := by
  have hsplit : latestSplit g p = latestSplit g' p := by
    funext q
    apply latestIn_congr
    intro f hf
    rw [seen_nodeSet, seen_nodeSet, h f hf]
  rw [trim, trim, maxLatestSplit, maxLatestSplit, hsplit]

end Divergence

end MuxFlow
