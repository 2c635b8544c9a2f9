import MuxFlow.Proofs.Walk.Drain

/-!
# Linked frames

Paths that share a beginning need not be kept apart while they grow. An `Arena` holds every
frame that the walks from a start have come to, each with a link to the frame that it was
reached from. Links lead to earlier positions, so the way from a position to the start has an
end. The frames on it are a path, the `trail` of the position, and putting a frame at the end
of the arena changes no trail that is already there (`Arena.trail_push`).

Positions and depths are natural numbers. Kept in signed words of 32 bits they are the same
as long as there are fewer than `2 ^ 31` links in the arena, since a position is less than
the number of links and a depth is at most that.
-/

namespace MuxFlow.Walk

/-- A frame with the position of the frame that it was reached from and the number of frames
from here to the start. -/
structure Link where
  frame : Frame
  parent : Option Nat
  depth : Nat

/-- Frames in the order in which they were reached. -/
structure Arena where
  links : List Link
  parent_lt : ∀ (i : Nat) (l : Link), links[i]? = some l → ∀ j, l.parent = some j → j < i

namespace Arena

variable {a : Arena} {i : Nat} {l : Link}

/-- The frame that walks start from. -/
def start (f : Frame) : Arena where
  links := [⟨f, none, 1⟩]
  parent_lt := by
    intro i l hl j hj
    cases i with
    | zero => cases hl; cases hj
    | succ i => cases hl

/-- Puts a frame at the end. -/
def push (a : Arena) (l : Link) (hl : ∀ j, l.parent = some j → j < a.links.length) : Arena where
  links := a.links ++ [l]
  parent_lt := by
    intro i l' hl' j hj
    rw [List.getElem?_append] at hl'
    split at hl'
    · exact a.parent_lt i l' hl' j hj
    · obtain rfl := List.mem_singleton.1 (List.mem_of_getElem? hl')
      exact Nat.lt_of_lt_of_le (hl j hj) (by omega)

/-- The frames from a position to the start, one link after another. -/
def trail (a : Arena) (i : Nat) : Path :=
  match h : a.links[i]? with
  | none => []
  | some l =>
    l.frame ::
      match hp : l.parent with
      | none => []
      | some j =>
        have := a.parent_lt i l h j hp
        a.trail j
termination_by i

/-- Whether a place is met on the way to the start. -/
def onTrail (a : Arena) (i : Nat) (f : Frame) : Bool :=
  (a.trail i).any fun f' => f'.node = f.node ∧ f'.port = f.port

/-- A path with room for a number of frames, filled on the way to the start. -/
def unroll (a : Arena) (i depth : Nat) : Path :=
  (List.replicate depth ⟨"", "", none⟩).mapIdx fun k blank => (a.trail i)[k]?.getD blank

/-- The frames one step behind a position, port by port and edge by edge. -/
def nextFrames (a : Arena) (g : Graph) (i : Nat) (node : String) (ports : List String) :
    List Frame :=
  ports.flatMap fun port => (g.inEdges node port).filterMap fun e =>
    if e.continuation then none else if a.onTrail i e.frame then none else some e.frame

theorem trail_eq (h : a.links[i]? = some l) :
    a.trail i = l.frame :: l.parent.elim [] a.trail := by
  rw [trail]
  split
  · next h' => rw [h] at h'; cases h'
  · next l' h' =>
      obtain rfl := Option.some.inj (h.symm.trans h')
      congr 1
      split
      · next hp => simp only [hp, Option.elim_none]
      · next hp => simp only [hp, Option.elim_some]

theorem onTrail_eq {f : Frame} : a.onTrail i f = decide (f.place ∈ (a.trail i).places) := by
  rw [onTrail, ← List.decide_exists_mem, decide_eq_decide, Path.places, List.mem_map]
  constructor
  · rintro ⟨f', hf', hnode, hport⟩
    exact ⟨f', hf', Prod.ext hnode hport⟩
  · rintro ⟨f', hf', hplace⟩
    exact ⟨f', hf', congrArg Prod.fst hplace, congrArg Prod.snd hplace⟩

theorem nextFrames_eq (g : Graph) (node : String) (ports : List String) :
    a.nextFrames g i node ports = Walk.nextFrames g (a.trail i) node ports := by
  have hport : ∀ es : List Edge,
      (es.filterMap fun e =>
        if e.continuation then none else if a.onTrail i e.frame then none else some e.frame) =
      ((es.filter fun e => !e.continuation).map Edge.frame).filter fun f =>
        f.place ∉ (a.trail i).places := by
    intro es
    induction es with
    | nil => rfl
    | cons e es ih =>
        by_cases hdata : e.continuation = true
        · simp [hdata, ih]
        · have hmet : a.onTrail i e.frame = decide (e.origin ∈ (a.trail i).places) := onTrail_eq
          by_cases hplace : e.origin ∈ (a.trail i).places
          · simp [hdata, hmet, hplace, ih]
          · simp [hdata, hmet, hplace, ih]
  rw [nextFrames, Walk.nextFrames, arrivals, List.map_flatMap, List.filter_flatMap]
  simp only [hport]

/-- What is put at the end is not met on the way from an earlier position. -/
theorem trail_push (hl : ∀ j, l.parent = some j → j < a.links.length)
    (hi : i < a.links.length) : (a.push l hl).trail i = a.trail i := by
  induction i using Nat.strongRecOn with
  | ind i ih =>
      obtain ⟨l', hl'⟩ : ∃ l', a.links[i]? = some l' := ⟨_, List.getElem?_eq_getElem hi⟩
      have hpush : (a.push l hl).links[i]? = some l' := by
        rw [push, List.getElem?_append_left hi, hl']
      rw [trail_eq hl', trail_eq hpush]
      congr 1
      cases hp : l'.parent with
      | none => rfl
      | some j =>
          have hj := a.parent_lt i l' hl' j hp
          exact ih j hj (Nat.lt_trans hj hi)

theorem trail_push_length (hl : ∀ j, l.parent = some j → j < a.links.length) :
    (a.push l hl).trail a.links.length = l.frame :: l.parent.elim [] a.trail := by
  rw [trail_eq (l := l) (by simp [push])]
  congr 1
  cases hp : l.parent with
  | none => rfl
  | some j => exact trail_push hl (hl j hp)

/-- A path with room for just the frames on the way to the start. -/
theorem unroll_eq {depth : Nat} (h : depth = (a.trail i).length) :
    a.unroll i depth = a.trail i := by
  apply List.ext_getElem?
  intro k
  rw [unroll, List.getElem?_mapIdx, List.getElem?_replicate, h]
  by_cases hk : k < (a.trail i).length
  · rw [if_pos hk, List.getElem?_eq_getElem hk]
    rfl
  · rw [if_neg hk, List.getElem?_eq_none (Nat.le_of_not_lt hk)]
    rfl

end Arena

end MuxFlow.Walk
