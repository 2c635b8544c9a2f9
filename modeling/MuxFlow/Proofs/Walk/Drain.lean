import MuxFlow.Walk.Back

/-!
# The work list, step by step

One turn of the work list takes up its first path: a fault ends the run, a path
that nothing extends is finished, and any other path gives way to its extensions.
What holds of whole runs is read off these three equations.
-/

namespace MuxFlow.Walk

variable {g g' : Graph} {follow follow' : Follow}

@[simp] theorem drain_nil (found : List Path) : drain g follow [] found = .ok found.reverse := by
  rw [drain]

theorem drain_cons_of_error {p : Path} {e : Fault} (h : extensions g follow p = .error e)
    (rest found : List Path) : drain g follow (p :: rest) found = .error e := by
  rw [drain]
  split
  · next h' => rw [h] at h'; exact h'.symm ▸ rfl
  · next h' => rw [h] at h'; cases h'
  · next h' => rw [h] at h'; cases h'

theorem drain_cons_of_nil {p : Path} (h : extensions g follow p = .ok [])
    (rest found : List Path) :
    drain g follow (p :: rest) found = drain g follow rest (p :: found) := by
  rw [drain]
  split
  · next h' => rw [h] at h'; cases h'
  · rfl
  · next h' => rw [h] at h'; cases h'

theorem drain_cons_of_cons {p q : Path} {qs : List Path}
    (h : extensions g follow p = .ok (q :: qs)) (rest found : List Path) :
    drain g follow (p :: rest) found = drain g follow (q :: qs ++ rest) found := by
  rw [drain]
  split
  · next h' => rw [h] at h'; cases h'
  · next h' => rw [h] at h'; cases h'
  · next h' =>
      rw [h] at h'
      cases h'
      rfl

theorem cost_pos (g : Graph) (follow : Follow) (p : Path) : 0 < cost g follow p := by
  rw [cost]
  split <;> omega

/-- A work list is worked off in the same way wherever the paths that come up on it
have the same extensions; `P` is what these paths have in common. -/
theorem drain_congr {P : Path → Prop}
    (hstep : ∀ p qs, P p → extensions g follow p = .ok qs → ∀ q ∈ qs, P q)
    (h : ∀ p, P p → extensions g follow p = extensions g' follow' p)
    {pending : List Path} (hP : ∀ p ∈ pending, P p) (found : List Path) :
    drain g follow pending found = drain g' follow' pending found := by
  fun_induction drain g follow pending found with
  | case1 found => rw [drain_nil]
  | case2 p rest found e hext =>
      have hp : P p := hP p List.mem_cons_self
      rw [drain_cons_of_error ((h p hp).symm.trans hext)]
  | case3 p rest found hext _ ih =>
      have hp : P p := hP p List.mem_cons_self
      rw [ih fun q hq => hP q (List.mem_cons_of_mem p hq),
        drain_cons_of_nil ((h p hp).symm.trans hext)]
  | case4 p rest found q qs hext _ ih =>
      have hp : P p := hP p List.mem_cons_self
      have hnext : ∀ x ∈ q :: qs ++ rest, P x := by
        intro x hx
        rcases List.mem_append.1 hx with hx | hx
        · exact hstep p (q :: qs) hp hext x hx
        · exact hP x (List.mem_cons_of_mem p hx)
      rw [ih hnext, drain_cons_of_cons ((h p hp).symm.trans hext)]

end MuxFlow.Walk
