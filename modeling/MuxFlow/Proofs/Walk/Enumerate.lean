import MuxFlow.Proofs.Graph.Assembly
import MuxFlow.Proofs.Walk.Drain

/-!
# The work list as a recursion

What waits on a work list are the calls that a depth-first recursion has still to
make, in the order in which it makes them. So the list is worked off with the paths
that `enumerate` gives for each of its items, one after another, or with the first
fault among them (`drain_eq_enumerate`). Like the work list, the recursion is known
by three equations, one for each thing that can come of looking for extensions.
-/

namespace MuxFlow.Walk

variable {g : Graph} {follow : Follow}

theorem enumerate_of_error {p : Path} {e : Fault} (h : extensions g follow p = .error e) :
    enumerate g follow p = .error e := by
  rw [enumerate]
  split
  · next h' => rw [h] at h'; exact h'.symm ▸ rfl
  · next h' => rw [h] at h'; cases h'
  · next h' => rw [h] at h'; cases h'

theorem enumerate_of_nil {p : Path} (h : extensions g follow p = .ok []) :
    enumerate g follow p = .ok [p] := by
  rw [enumerate]
  split
  · next h' => rw [h] at h'; cases h'
  · rfl
  · next h' => rw [h] at h'; cases h'

theorem enumerate_of_cons {p q : Path} {qs : List Path}
    (h : extensions g follow p = .ok (q :: qs)) :
    enumerate g follow p =
      ((q :: qs).mapM (enumerate g follow) >>= fun found => .ok found.flatten) := by
  rw [enumerate]
  split
  · next h' => rw [h] at h'; cases h'
  · next h' => rw [h] at h'; cases h'
  · next h' =>
      rw [h] at h'
      cases h'
      simp

/-- A work list gives what is already found and then what the recursion finds for
each of its paths. -/
theorem drain_eq_enumerate (pending found : List Path) :
    drain g follow pending found =
      (pending.mapM (enumerate g follow) >>= fun paths =>
        .ok (found.reverse ++ paths.flatten)) := by
  fun_induction drain g follow pending found with
  | case1 found => simp [pure, Except.pure]
  | case2 p rest found e hext =>
      rw [List.mapM_cons, enumerate_of_error hext]
      rfl
  | case3 p rest found hext _ ih =>
      rw [ih, List.mapM_cons, enumerate_of_nil hext, ok_bind, bind_assoc]
      simp [pure, Except.pure]
  | case4 p rest found q qs hext _ ih =>
      -- the extensions of `p` wait in front of the rest, and so do their results
      have hcons : (p :: rest).mapM (enumerate g follow) =
          (enumerate g follow p >>= fun ps =>
            rest.mapM (enumerate g follow) >>= fun pss => pure (ps :: pss)) := List.mapM_cons
      rw [ih, List.mapM_append, hcons, enumerate_of_cons hext]
      simp [pure, Except.pure]

theorem drain_singleton (p : Path) : drain g follow [p] [] = enumerate g follow p := by
  rw [drain_eq_enumerate, List.mapM_cons]
  cases enumerate g follow p with
  | error e => rfl
  | ok paths => simp [pure, Except.pure]

/-- A walk gives what the recursion finds from its start. -/
theorem back_eq_enumerate {n : Node} (hn : n ∈ g.nodes) {port : String}
    (hport : n.direction port ≠ .none) :
    back g n.id port follow = enumerate g follow [⟨n.id, port, none⟩] := by
  rw [back, g.node_eq_ok_iff.2 ⟨hn, rfl⟩, ok_bind, if_neg hport, drain_singleton]

end MuxFlow.Walk
