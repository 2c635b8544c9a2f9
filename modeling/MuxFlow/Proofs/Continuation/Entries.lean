import MuxFlow.Continuation.ForMux
import MuxFlow.Proofs.Except

/-!
# The entries of a continuation list

A list of continuations is merged from findings: every entry comes from one of them,
and whatever has been found has an entry at its node and port, though perhaps for another
reason.
-/

namespace MuxFlow

/-- Where a test tells lists apart as a whole, it can be made before they are put
together. -/
theorem filter_flatMap_of_forall {α β : Type} {f : α → List β} {p : α → Bool} {q : β → Bool}
    {xs : List α} (h : ∀ x ∈ xs, ∀ y ∈ f x, q y = p x) :
    (xs.flatMap f).filter q = (xs.filter p).flatMap f := by
  induction xs with
  | nil => rfl
  | cons x xs ih =>
      obtain ⟨hx, hxs⟩ := List.forall_mem_cons.1 h
      rw [List.flatMap_cons, List.filter_append, ih hxs]
      cases hp : p x with
      | true =>
          rw [List.filter_cons_of_pos hp, List.flatMap_cons,
            List.filter_eq_self.2 fun y hy => (hx y hy).trans hp]
      | false =>
          have hnone : (f x).filter q = [] := by
            apply List.filter_eq_nil_iff.2
            intro y hy
            simp [hx y hy, hp]
          rw [List.filter_cons_of_neg (by simp [hp]), hnone, List.nil_append]

namespace Branching

theorem port_of_mem_join {port : String} {edges : List Edge} {d : Descriptor}
    (h : d ∈ join port edges) : d.port = port := by
  obtain ⟨v, _, rfl⟩ := List.mem_map.1 h
  rfl

theorem type_of_mem_join {port : String} {edges : List Edge} {d : Descriptor}
    (h : d ∈ join port edges) : d.type = Descriptor.branching := by
  obtain ⟨v, _, rfl⟩ := List.mem_map.1 h
  rfl

variable {paths : List Path} {recursions : List Frame} {port : String} {d : Descriptor}

theorem exists_join_of_mem_points (h : d ∈ points paths recursions port) :
    ∃ edges, d ∈ join port edges := by
  unfold points at h
  extract_lets recursive segments plain leaving at h
  split at h
  · cases h
  · exact ⟨_, h⟩

theorem port_of_mem_points (h : d ∈ points paths recursions port) : d.port = port := by
  obtain ⟨edges, hd⟩ := exists_join_of_mem_points h
  exact port_of_mem_join hd

theorem type_of_mem_points (h : d ∈ points paths recursions port) :
    d.type = Descriptor.branching := by
  obtain ⟨edges, hd⟩ := exists_join_of_mem_points h
  exact type_of_mem_join hd

end Branching

namespace Mux

variable {fs : List PortFindings} {d : Descriptor}

/-- The entry is among the findings, for one reason or another. -/
def PortFindings.Has (f : PortFindings) (d : Descriptor) : Prop :=
  d ∈ f.recursions ∨ d ∈ f.branchings ∨ d ∈ f.starts

/-- An entry of a merged list comes from some findings. -/
theorem exists_of_mem_merge (h : d ∈ merge fs) : ∃ f ∈ fs, f.Has d := by
  have hd := mem_of_mem_distinctBy Descriptor.key h
  rw [List.mem_append, List.mem_append, List.mem_flatMap, List.mem_flatMap, List.mem_flatMap] at hd
  rcases hd with (⟨f, hf, hd⟩ | ⟨f, hf, hd⟩) | ⟨f, hf, hd⟩
  · exact ⟨f, hf, Or.inl hd⟩
  · exact ⟨f, hf, Or.inr (Or.inl hd)⟩
  · exact ⟨f, hf, Or.inr (Or.inr hd)⟩

/-- Whatever is found has an entry. -/
theorem exists_mem_merge {f : PortFindings} (hf : f ∈ fs) (hd : f.Has d) :
    ∃ d' ∈ merge fs, d'.key = d.key := by
  apply List.mem_map.1
  rw [merge, mem_keys_distinctBy]
  apply List.mem_map_of_mem
  rw [List.mem_append, List.mem_append, List.mem_flatMap, List.mem_flatMap, List.mem_flatMap]
  rcases hd with hd | hd | hd
  · exact .inl (.inl ⟨f, hf, hd⟩)
  · exact .inl (.inr ⟨f, hf, hd⟩)
  · exact .inr ⟨f, hf, hd⟩

end Mux

end MuxFlow
