import MuxFlow.Graph.Basic
import MuxFlow.Total
import MuxFlow.Walk.Path

/-!
# Walking backward

`back g node port follow` lists the maximal backward paths from a port. A rule
`follow` says through which ports of a node a walk goes on after it has entered
the node at some port; every edge that carries data into one of those ports
makes one longer path, in the order of the ports and then of the edges. A place
that is already on a path is not entered again, so each step uses up a place of
the graph (`room_lt`) and every walk ends.

The paths are found with a work list, as a loop: `drain` takes the first
unfinished path and puts its extensions in its stead. The loop ends because the
number of paths that will ever come out of an unfinished one, `cost`, is known
beforehand. The recursive reading, a path with all that extends it, is
`enumerate`.
-/

namespace MuxFlow

/-- Which ports of a node a walk goes on through, after entering at a port. -/
abbrev Follow := Node → String → Except Fault (List String)

namespace Walk

/-- The edges that carry data into the given ports of a node, port by port. -/
def arrivals (g : Graph) (node : String) (ports : List String) : List Edge :=
  ports.flatMap fun p => (g.inEdges node p).filter fun e => !e.continuation

/-- The frames one step behind a path that is at `node`, places on the path left
out. -/
def nextFrames (g : Graph) (p : Path) (node : String) (ports : List String) : List Frame :=
  ((arrivals g node ports).map Edge.frame).filter fun f => f.place ∉ p.places

/-- The paths that are one frame longer. -/
def extensions (g : Graph) (follow : Follow) : Path → Except Fault (List Path)
  | [] => .ok []
  | f :: p => do
    let n ← g.node f.node
    let ports ← follow n f.port
    .ok ((nextFrames g (f :: p) f.node ports).map fun f' => f' :: f :: p)

/-- The places that the edges that carry data come from. -/
def origins (g : Graph) : List (String × String) :=
  (g.edges.filter fun e => !e.continuation).map Edge.origin

/-- How many of these places a path has not been to. -/
def room (g : Graph) (p : Path) : Nat :=
  ((origins g).filter fun o => o ∉ p.places).length

theorem mem_arrivals {g : Graph} {node : String} {ports : List String} {e : Edge} :
    e ∈ arrivals g node ports ↔
      e ∈ g.edges ∧ e.continuation = false ∧ e.target = node ∧ e.targetPort ∈ ports := by
  simp only [arrivals, Graph.inEdges, List.mem_flatMap, List.mem_filter, Bool.not_eq_true',
    decide_eq_true_eq]
  constructor
  · rintro ⟨p, hp, ⟨he, ht, rfl⟩, hc⟩
    exact ⟨he, hc, ht, hp⟩
  · rintro ⟨he, hc, ht, hp⟩
    exact ⟨e.targetPort, hp, ⟨he, ht, rfl⟩, hc⟩

/-- An extension adds one frame, at a place that edges come from and that the
path has not been to. -/
theorem mem_extensions {g : Graph} {follow : Follow} {p q : Path} {qs : List Path}
    (h : extensions g follow p = .ok qs) (hq : q ∈ qs) :
    ∃ f, q = f :: p ∧ f.place ∈ origins g ∧ f.place ∉ p.places := by
  cases p with
  | nil =>
      obtain rfl : [] = qs := Except.ok.inj h
      cases hq
  | cons f p =>
      simp only [extensions, bind, Except.bind] at h
      split at h
      · cases h
      · split at h
        · cases h
        · obtain rfl := Except.ok.inj h
          obtain ⟨f', hf', rfl⟩ := List.mem_map.1 hq
          obtain ⟨hf', hn⟩ := List.mem_filter.1 hf'
          obtain ⟨e, he, rfl⟩ := List.mem_map.1 hf'
          obtain ⟨he, hc, _⟩ := mem_arrivals.1 he
          refine ⟨e.frame, rfl, ?_, by simpa using hn⟩
          rw [Edge.frame_place]
          exact List.mem_map.2 ⟨e, List.mem_filter.2 ⟨he, by simp [hc]⟩, rfl⟩

/-- Removing more than before, and something new, leaves less. -/
theorem length_filter_lt {α : Type} {p q : α → Bool} {xs : List α}
    (hpq : ∀ x, q x = true → p x = true) {a : α} (ha : a ∈ xs) (hp : p a = true)
    (hq : q a = false) : (xs.filter q).length < (xs.filter p).length := by
  induction xs with
  | nil => cases ha
  | cons x xs ih =>
      have hle : (xs.filter q).length ≤ (xs.filter p).length := by
        rw [← List.countP_eq_length_filter, ← List.countP_eq_length_filter]
        exact List.countP_mono_left fun y _ => hpq y
      rcases List.mem_cons.1 ha with rfl | ha
      · simp only [List.filter_cons, hp, hq, if_true]
        simpa using Nat.lt_succ_of_le hle
      · have := ih ha
        simp only [List.filter_cons]
        split
        · next h => simp [hpq x h, this]
        · split
          · simp only [List.length_cons]; omega
          · exact this

theorem room_lt_of_cons {g : Graph} {f : Frame} {p : Path} (hf : f.place ∈ origins g)
    (hp : f.place ∉ p.places) : room g (f :: p) < room g p := by
  apply length_filter_lt (a := f.place) _ hf
  · simpa using hp
  · simp
  · intro x hx
    simp only [Path.places_cons, List.mem_cons, not_or, decide_eq_true_eq] at hx
    simpa using hx.2

/-- Each step of a walk leaves it less room. -/
theorem room_lt {g : Graph} {follow : Follow} {p q : Path} {qs : List Path}
    (h : extensions g follow p = .ok qs) (hq : q ∈ qs) : room g q < room g p := by
  obtain ⟨f, rfl, hf, hp⟩ := mem_extensions h hq
  exact room_lt_of_cons hf hp

/-- The maximal paths that extend a path, depth first; the path itself when
nothing extends it. -/
def enumerate (g : Graph) (follow : Follow) (p : Path) : Except Fault (List Path) :=
  match h : extensions g follow p with
  | .error e => .error e
  | .ok [] => .ok [p]
  | .ok (q :: qs) => do
    let found ← (q :: qs).attach.mapM fun ⟨r, hr⟩ =>
      have := room_lt h hr
      enumerate g follow r
    .ok found.flatten
termination_by room g p

/-- How many paths a work list takes up before it is done with this one. -/
def cost (g : Graph) (follow : Follow) (p : Path) : Nat :=
  match h : extensions g follow p with
  | .error _ => 1
  | .ok qs =>
    1 + total (qs.attach.map fun ⟨q, hq⟩ =>
      have := room_lt h hq
      cost g follow q)
termination_by room g p

theorem cost_of_ok {g : Graph} {follow : Follow} {p : Path} {qs : List Path}
    (h : extensions g follow p = .ok qs) :
    cost g follow p = 1 + total (qs.map (cost g follow)) := by
  rw [cost]
  split
  · next e h' => rw [h] at h'; cases h'
  · next qs' h' =>
      rw [h] at h'
      obtain rfl := Except.ok.inj h'
      simp

/-- Works a list of unfinished paths off, first come first served; `found` holds
the finished ones, the latest first. -/
def drain (g : Graph) (follow : Follow) : List Path → List Path → Except Fault (List Path)
  | [], found => .ok found.reverse
  | p :: rest, found =>
    match h : extensions g follow p with
    | .error e => .error e
    | .ok [] =>
      have := cost_of_ok h
      drain g follow rest (p :: found)
    | .ok (q :: qs) =>
      have := cost_of_ok h
      drain g follow (q :: qs ++ rest) found
termination_by pending => total (pending.map (cost g follow))
decreasing_by
  all_goals simp_all
  all_goals omega

/-- Every maximal backward path from a port of a node. -/
def back (g : Graph) (node port : String) (follow : Follow) : Except Fault (List Path) := do
  let n ← g.node node
  if n.direction port = .none then .error (Graph.portNotFound .walk node port)
  else drain g follow [[⟨node, port, none⟩]] []

end Walk

end MuxFlow
