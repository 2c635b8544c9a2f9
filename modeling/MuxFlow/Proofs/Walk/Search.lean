import MuxFlow.Proofs.Walk.Arena
import MuxFlow.Proofs.Walk.Enumerate

/-!
# Walks on linked frames

A `Search` keeps positions in an arena for the paths that are not finished. A turn takes up
the position on top of the stack. The frames one step further on are put into the arena, the
last one first, so that the first one ends up on top; where there are none, the path is
written out.

A search stands for a work list of whole paths (`Search.Represents`), and a turn does to it
what taking up a path does to the list (`Search.turn_alike`). So a search ends after as many
turns as the work list takes paths up (`Search.run?_eq_drain`), and it ends with what the
recursion finds (`back_depthFirst`).

The positions on the stack are natural numbers, which are those of a search that keeps them
in signed words of 32 bits while its arena has fewer than `2 ^ 31` links.
-/

namespace MuxFlow.Walk

/-- A walk under way. -/
structure Search where
  arena : Arena
  /-- The positions of unfinished paths, the next one first. -/
  stack : List Nat
  found : List Path
  stack_lt : ∀ i ∈ stack, i < arena.links.length

namespace Search

variable {g : Graph} {follow : Follow} {s : Search} {i : Nat} {pending : List Path}

def start (f : Frame) : Search where
  arena := Arena.start f
  stack := [0]
  found := []
  stack_lt := by simp [Arena.start]

/-- Links a frame to the one at a position and puts it on top of the stack. -/
def push (s : Search) (i : Nat) (hi : i < s.arena.links.length) (depth : Nat) (f : Frame) :
    Search where
  arena := s.arena.push ⟨f, some i, depth⟩ fun j hj => Option.some.inj hj ▸ hi
  stack := s.arena.links.length :: s.stack
  found := s.found
  stack_lt := by
    intro j hj
    simp only [Arena.push, List.length_append, List.length_singleton]
    rcases List.mem_cons.1 hj with rfl | hj
    · exact Nat.lt_succ_self _
    · exact Nat.lt_succ_of_lt (s.stack_lt j hj)

theorem trail_push {hi : i < s.arena.links.length} {depth : Nat} {f : Frame} {j : Nat}
    (hj : j < s.arena.links.length) :
    (s.push i hi depth f).arena.trail j = s.arena.trail j :=
  Arena.trail_push (fun _ h => Option.some.inj h ▸ hi) hj

theorem trail_push_length {hi : i < s.arena.links.length} {depth : Nat} {f : Frame} :
    (s.push i hi depth f).arena.trail s.arena.links.length = f :: s.arena.trail i :=
  Arena.trail_push_length fun _ h => Option.some.inj h ▸ hi

theorem lt_push {hi : i < s.arena.links.length} {depth : Nat} {f : Frame} :
    i < (s.push i hi depth f).arena.links.length := by
  simp only [push, Arena.push, List.length_append]
  exact Nat.lt_add_right _ hi

/-- Pushes frames one after another. -/
def pushAll (i depth : Nat) : List Frame → (s : Search) → i < s.arena.links.length → Search
  | [], s, _ => s
  | f :: fs, s, hi => pushAll i depth fs (s.push i hi depth f) lt_push

/-- What a turn does with the position that it has taken from the stack. -/
def advance (g : Graph) (follow : Follow) (s : Search) (i : Nat)
    (hi : i < s.arena.links.length) : Except Fault Search := do
  let l := s.arena.links[i]
  let n ← g.node l.frame.node
  let ports ← follow n l.frame.port
  let next := s.arena.nextFrames g i l.frame.node ports
  if next = [] then .ok { s with found := s.found ++ [s.arena.unroll i l.depth] }
  else .ok (pushAll i (l.depth + 1) next.reverse s hi)

/-- Takes the top off the stack. -/
def pop (s : Search) {i : Nat} {rest : List Nat} (h : s.stack = i :: rest) : Search :=
  { s with
    stack := rest
    stack_lt := fun j hj => s.stack_lt j (h ▸ List.mem_cons_of_mem i hj) }

/-- One turn; there is none when the stack is empty. -/
def turn (g : Graph) (follow : Follow) (s : Search) : Option (Except Fault Search) :=
  match h : s.stack with
  | [] => none
  | i :: _ => some ((s.pop h).advance g follow i (s.stack_lt i (h ▸ List.mem_cons_self)))

/-- What a search ends with; nothing yet if it takes more than the given number of turns. -/
def run? (g : Graph) (follow : Follow) (turns : Nat) (s : Search) :
    Option (Except Fault (List Path)) :=
  match s.turn g follow, turns with
  | none, _ => some (.ok s.found)
  | some _, 0 => none
  | some (.error e), _ + 1 => some (.error e)
  | some (.ok s'), turns + 1 => run? g follow turns s'

/-! ## The work list that a search stands for -/

/-- The positions on the stack stand for these paths, and every link knows how far it is from
the start. -/
structure Represents (s : Search) (pending : List Path) : Prop where
  stack : s.stack.map s.arena.trail = pending
  depth : ∀ i l, s.arena.links[i]? = some l → l.depth = (s.arena.trail i).length

theorem represents_start (f : Frame) : (start f).Represents [[f]] := by
  have htrail : (Arena.start f).trail 0 = [f] := Arena.trail_eq (l := ⟨f, none, 1⟩) rfl
  refine ⟨congrArg (fun p => [p]) htrail, ?_⟩
  intro i l hl
  cases i with
  | zero =>
      obtain rfl := Option.some.inj hl
      exact (congrArg List.length htrail).symm
  | succ i => cases hl

theorem Represents.push (h : s.Represents pending) (hi : i < s.arena.links.length) {depth : Nat}
    (hdepth : depth = (s.arena.trail i).length + 1) (f : Frame) :
    (s.push i hi depth f).Represents ((f :: s.arena.trail i) :: pending) := by
  constructor
  · rw [← h.stack]
    exact congrArg₂ List.cons trail_push_length
      (List.map_congr_left fun j hj => trail_push (s.stack_lt j hj))
  · intro j l hl
    rcases Nat.lt_trichotomy j s.arena.links.length with hj | rfl | hj
    · rw [trail_push hj]
      exact h.depth j l ((List.getElem?_append_left hj).symm.trans hl)
    · obtain rfl : _ = l := Option.some.inj (List.getElem?_concat_length.symm.trans hl)
      rw [trail_push_length]
      exact hdepth
    · have hnone := List.getElem?_eq_none (l := (s.push i hi depth f).arena.links) (i := j)
        (by simpa [Search.push, Arena.push] using Nat.succ_le_of_lt hj)
      rw [hnone] at hl
      cases hl

/-- Pushed frames come to lie on the stack in the other order. -/
theorem Represents.pushAll (h : s.Represents pending) (hi : i < s.arena.links.length)
    {depth : Nat} (hdepth : depth = (s.arena.trail i).length + 1) (fs : List Frame) :
    (pushAll i depth fs s hi).Represents
        (fs.reverse.map (fun f => f :: s.arena.trail i) ++ pending) ∧
      (pushAll i depth fs s hi).found = s.found := by
  induction fs generalizing s pending with
  | nil => exact ⟨h, rfl⟩
  | cons f fs ih =>
      have htrail : (s.push i hi depth f).arena.trail i = s.arena.trail i := trail_push hi
      have hrest := ih (h.push hi hdepth f) lt_push (by rw [htrail, hdepth])
      rw [htrail] at hrest
      exact ⟨by simpa [Search.pushAll] using hrest.1, hrest.2⟩

/-- A turn does to a search what a step does to the path that it takes up. -/
theorem advance_alike (h : s.Represents pending) (hi : i < s.arena.links.length) :
    EndAlike (fun s' qs => s'.Represents (qs ++ pending) ∧
        s'.found = s.found ++ if qs = [] then [s.arena.trail i] else [])
      (s.advance g follow i hi) (extensions g follow (s.arena.trail i)) := by
  have hl : s.arena.links[i]? = some s.arena.links[i] := List.getElem?_eq_getElem hi
  have hdepth := h.depth i _ hl
  have hext : extensions g follow (s.arena.trail i) =
      (g.node s.arena.links[i].frame.node >>= fun n =>
        follow n s.arena.links[i].frame.port >>= fun ports =>
          .ok ((nextFrames g (s.arena.trail i) s.arena.links[i].frame.node ports).map
            fun f => f :: s.arena.trail i)) := by
    rw [Arena.trail_eq hl]
    rfl
  rw [hext]
  refine (EndAlike.refl _).bind ?_
  rintro n _ rfl
  refine (EndAlike.refl _).bind ?_
  rintro ports _ rfl
  simp only [Arena.nextFrames_eq]
  split
  · next hnone =>
      rw [hnone]
      exact .ok ⟨⟨h.stack, h.depth⟩, by rw [Arena.unroll_eq hdepth]; rfl⟩
  · next hsome =>
      obtain ⟨hpushed, hfound⟩ := h.pushAll hi (congrArg Nat.succ hdepth) _
      rw [List.reverse_reverse] at hpushed
      exact .ok ⟨hpushed, by simpa [hsome] using hfound⟩

theorem turn_of_nil (h : s.Represents []) : s.turn g follow = none := by
  have hstack := List.map_eq_nil_iff.1 h.stack
  unfold turn
  split
  · rfl
  · next hcons => rw [hstack] at hcons; cases hcons

theorem turn_alike (g : Graph) (follow : Follow) {p : Path} (h : s.Represents (p :: pending)) :
    ∃ r, s.turn g follow = some r ∧
      EndAlike (fun s' qs => s'.Represents (qs ++ pending) ∧
          s'.found = s.found ++ if qs = [] then [p] else [])
        r (extensions g follow p) := by
  have hstack := h.stack
  unfold turn
  split
  · next hnil => rw [hnil] at hstack; cases hstack
  · next i rest hcons =>
      rw [hcons] at hstack
      obtain ⟨rfl, rfl⟩ := List.cons.inj hstack
      exact ⟨_, rfl, advance_alike (s := s.pop hcons) ⟨rfl, h.depth⟩ _⟩

theorem turn_of_error {p : Path} {e : Fault} (h : s.Represents (p :: pending))
    (hext : extensions g follow p = .error e) : s.turn g follow = some (.error e) := by
  obtain ⟨r, hturn, halike⟩ := turn_alike g follow h
  rw [hext] at halike
  cases halike with
  | error => exact hturn

theorem turn_of_ok {p : Path} {qs : List Path} (h : s.Represents (p :: pending))
    (hext : extensions g follow p = .ok qs) :
    ∃ s', s.turn g follow = some (.ok s') ∧ s'.Represents (qs ++ pending) ∧
      s'.found = s.found ++ if qs = [] then [p] else [] := by
  obtain ⟨r, hturn, halike⟩ := turn_alike g follow h
  rw [hext] at halike
  cases halike with
  | ok hnext => exact ⟨_, hturn, hnext⟩

/-- Every turn that does not fail takes up a path and goes on with what extends it. -/
theorem exists_of_turn {s' : Search} (h : s.Represents pending)
    (hturn : s.turn g follow = some (.ok s')) :
    ∃ p rest qs, pending = p :: rest ∧ extensions g follow p = .ok qs ∧
      s'.Represents (qs ++ rest) ∧ s'.found = s.found ++ if qs = [] then [p] else [] := by
  cases pending with
  | nil =>
      rw [turn_of_nil h] at hturn
      cases hturn
  | cons p rest =>
      cases hext : extensions g follow p with
      | error e =>
          rw [turn_of_error h hext] at hturn
          cases hturn
      | ok qs =>
          obtain ⟨s'', hturn', hnext⟩ := turn_of_ok h hext
          obtain rfl := Except.ok.inj (Option.some.inj (hturn.symm.trans hturn'))
          exact ⟨p, rest, qs, rfl, hext, hnext⟩

/-! ## Whole runs -/

theorem run?_of_none {turns : Nat} (h : s.turn g follow = none) :
    s.run? g follow turns = some (.ok s.found) := by
  unfold run?
  rw [h]

theorem run?_of_error {turns : Nat} {e : Fault} (h : s.turn g follow = some (.error e)) :
    s.run? g follow (turns + 1) = some (.error e) := by
  unfold run?
  rw [h]

theorem run?_of_ok {turns : Nat} {s' : Search} (h : s.turn g follow = some (.ok s')) :
    s.run? g follow (turns + 1) = s'.run? g follow turns := by
  conv_lhs => unfold run?
  rw [h]

/-- A search ends with what its work list is worked off with, in no more turns than that takes
up paths. -/
theorem run?_eq_drain {turns : Nat} {found : List Path} (h : s.Represents pending)
    (hfound : s.found = found.reverse) (hturns : total (pending.map (cost g follow)) ≤ turns) :
    s.run? g follow turns = some (drain g follow pending found) := by
  fun_induction drain g follow pending found generalizing s turns with
  | case1 found => rw [run?_of_none (turn_of_nil h), hfound]
  | case2 p rest found e hext =>
      have hpos := cost_pos g follow p
      rw [List.map_cons, total_cons] at hturns
      cases turns with
      | zero => omega
      | succ turns => exact run?_of_error (turn_of_error h hext)
  | case3 p rest found hext hcost ih =>
      obtain ⟨s', hturn, hnext, hlast⟩ := turn_of_ok h hext
      rw [List.map_cons, total_cons, hcost, List.map_nil, total_nil] at hturns
      cases turns with
      | zero => omega
      | succ turns =>
          rw [run?_of_ok hturn]
          exact ih hnext (by rw [hlast, hfound, if_pos rfl, List.reverse_cons]) (by omega)
  | case4 p rest found q qs hext hcost ih =>
      obtain ⟨s', hturn, hnext, hlast⟩ := turn_of_ok h hext
      rw [List.map_cons, total_cons, hcost] at hturns
      cases turns with
      | zero => omega
      | succ turns =>
          rw [run?_of_ok hturn]
          apply ih hnext
          · rw [hlast, hfound, if_neg (List.cons_ne_nil q qs), List.append_nil]
          · rw [List.map_append, total_append]
            omega

theorem run?_start (g : Graph) (follow : Follow) (f : Frame) (more : Nat) :
    (start f).run? g follow (cost g follow [f] + more) = some (enumerate g follow [f]) := by
  rw [← drain_singleton]
  apply run?_eq_drain (represents_start f) rfl
  rw [List.map_singleton, total_cons, total_nil]
  omega

end Search

/-- The frame that a walk from a port of a node starts with. -/
def startFrame (g : Graph) (node port : String) : Except Fault Frame := do
  let n ← g.node node
  if n.direction port = .none then .error (Graph.portNotFound .walk node port)
  else .ok ⟨node, port, none⟩

/-- A walk on linked frames; nothing yet if it takes more than the given number of turns. -/
def searchBack? (g : Graph) (node port : String) (follow : Follow) (turns : Nat) :
    Option (Except Fault (List Path)) :=
  match startFrame g node port with
  | .error e => some (.error e)
  | .ok f => (Search.start f).run? g follow turns

theorem back_eq_enumerate_startFrame (g : Graph) (node port : String) (follow : Follow) :
    back g node port follow = (startFrame g node port >>= fun f => enumerate g follow [f]) := by
  unfold back startFrame
  rw [bind_assoc]
  congr 1
  funext n
  split
  · rfl
  · rw [ok_bind, drain_singleton]

/-- A walk, be it on a list of whole paths or on linked frames, gives what the recursion finds
from its start: the same paths in the same order and each as often, or the same fault. A start
that is no port of a node is refused beforehand. -/
theorem back_depthFirst (g : Graph) (node port : String) (follow : Follow) :
    back g node port follow = (startFrame g node port >>= fun f => enumerate g follow [f]) ∧
    ∃ turns, ∀ more, searchBack? g node port follow (turns + more) =
      some (startFrame g node port >>= fun f => enumerate g follow [f]) := by
  refine ⟨back_eq_enumerate_startFrame g node port follow, ?_⟩
  unfold searchBack?
  cases startFrame g node port with
  | error e => exact ⟨0, fun _ => rfl⟩
  | ok f => exact ⟨cost g follow [f], Search.run?_start g follow f⟩

end MuxFlow.Walk
