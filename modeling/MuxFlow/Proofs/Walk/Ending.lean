import Mathlib.Data.Finset.Card
import MuxFlow.Proofs.Walk.Chain
import MuxFlow.Proofs.Walk.Search

/-!
# Walks come to an end

However a rule goes on, and however the edges of a graph run in rings, a search takes a
finite number of turns. All the while it is made of chains (`Search.OfChains`): those that it
stands at and those that it has written out. A chain comes to no place twice, and each place
after its start is one that data comes from, so it cannot be longer than there are such
places (`Chain.short`).
-/

namespace MuxFlow.Walk

variable {g : Graph} {follow : Follow} {start : Frame} {p q : Path} {s s' : Search}

/-- A path that comes to no place twice and has, but for one, no more frames than there are
places that data comes from. -/
structure Short (g : Graph) (p : Path) : Prop where
  simple : p.places.Nodup
  length_le : p.length ≤ (origins g).toFinset.card + 1

theorem Open.origin_mem {f : Frame} {e : Edge} (h : Open g follow f e) : e.origin ∈ origins g :=
  List.mem_map_of_mem (List.mem_filter.2 ⟨h.mem, by simp [h.data]⟩)

theorem Chain.grow (h : Chain g follow start p) (hgrows : Grows g follow p q) :
    Chain g follow start q :=
  grown_iff_chain.1 ((grown_iff_chain.2 h).tail hgrows)

theorem Chain.short (h : Chain g follow start p) : Short g p := by
  have hplaces : ∀ f ∈ p, f.place ∈ insert start.place (origins g).toFinset := by
    apply h.forall_mem (P := fun f => f.place ∈ insert start.place (origins g).toFinset)
    · exact Finset.mem_insert_self _ _
    · intro f e _ hopen
      exact Finset.mem_insert_of_mem (List.mem_toFinset.2 hopen.origin_mem)
  have hsub : p.places.toFinset ⊆ insert start.place (origins g).toFinset := by
    intro place hplace
    obtain ⟨f, hf, rfl⟩ := List.mem_map.1 (List.mem_toFinset.1 hplace)
    exact hplaces f hf
  refine ⟨h.simple, ?_⟩
  calc p.length = p.places.toFinset.card := by
        rw [List.toFinset_card_of_nodup h.simple, Path.places, List.length_map]
    _ ≤ (insert start.place (origins g).toFinset).card := Finset.card_le_card hsub
    _ ≤ (origins g).toFinset.card + 1 := Finset.card_insert_le _ _

namespace Search

/-- The search goes on with a turn. -/
def Next (g : Graph) (follow : Follow) (s s' : Search) : Prop :=
  s.turn g follow = some (.ok s')

/-- What the search stands for and what it has written out are chains from the start. -/
def OfChains (g : Graph) (follow : Follow) (start : Frame) (s : Search) : Prop :=
  ∃ pending, s.Represents pending ∧ (∀ p ∈ pending, Chain g follow start p) ∧
    ∀ p ∈ s.found, Chain g follow start p

theorem ofChains_start (f : Frame) : (Search.start f).OfChains g follow f := by
  refine ⟨[[f]], represents_start f, ?_, fun p hp => by cases hp⟩
  intro p hp
  obtain rfl := List.mem_singleton.1 hp
  exact grown_iff_chain.1 Relation.ReflTransGen.refl

theorem OfChains.next (h : s.OfChains g follow start) (hnext : Next g follow s s') :
    s'.OfChains g follow start := by
  obtain ⟨pending, hs, hpending, hfound⟩ := h
  obtain ⟨p, rest, qs, rfl, hext, hs', hfound'⟩ := exists_of_turn hs hnext
  obtain ⟨hp, hrest⟩ := List.forall_mem_cons.1 hpending
  refine ⟨qs ++ rest, hs', ?_, ?_⟩
  · intro q hq
    rcases List.mem_append.1 hq with hq | hq
    · exact hp.grow ((mem_extensions_iff hext).1 hq)
    · exact hrest q hq
  · intro q hq
    rw [hfound'] at hq
    rcases List.mem_append.1 hq with hq | hq
    · exact hfound q hq
    · split at hq
      · exact List.mem_singleton.1 hq ▸ hp
      · cases hq

theorem ofChains_of_reached {f : Frame}
    (h : Relation.ReflTransGen (Next g follow) (Search.start f) s) : s.OfChains g follow f := by
  induction h with
  | refl => exact ofChains_start f
  | tail _ hnext ih => exact ih.next hnext

end Search

/-- From every start and under every rule a search has an end, and whatever paths it has
written out by then, or a walk gives, are short. -/
theorem back_ends (g : Graph) (node port : String) (follow : Follow) :
    (∃ turns, ((Search.start ⟨node, port, none⟩).run? g follow turns).isSome) ∧
    (∀ s, Relation.ReflTransGen (Search.Next g follow) (Search.start ⟨node, port, none⟩) s →
      ∀ p ∈ s.found, Short g p) ∧
    ∀ paths, back g node port follow = .ok paths → ∀ p ∈ paths, Short g p := by
  refine ⟨?ends, ?reached, ?given⟩
  case ends =>
    exact ⟨_, Option.isSome_of_eq_some (Search.run?_start g follow ⟨node, port, none⟩ 0)⟩
  case reached =>
    intro s hs p hp
    obtain ⟨_, _, _, hfound⟩ := Search.ofChains_of_reached hs
    exact (hfound p hp).short
  case given =>
    intro paths hback p hp
    rw [back_eq_enumerate_startFrame] at hback
    obtain ⟨f, _, henum⟩ := bind_eq_ok_iff.1 hback
    exact (grown_iff_chain.1 ((mem_enumerate_iff henum).1 hp).1).short

/-- On the ring with a loop, a search is not done with seven turns but with eight, and no path
has more than three frames. -/
theorem back_ends_looped : ∃ paths, back looped "b" "u" (fun n _ => .ok n.inputNames) = .ok paths ∧
    ((Search.start ⟨"b", "u", none⟩).run? looped (fun n _ => .ok n.inputNames) 7).isNone ∧
    ((Search.start ⟨"b", "u", none⟩).run? looped (fun n _ => .ok n.inputNames) 8).isSome ∧
    (origins looped).toFinset.card = 2 ∧ paths.map List.length = [3, 3, 3, 3] ∧
    ∀ p ∈ paths, Short looped p := by
  obtain ⟨paths, hback, hlengths⟩ : ∃ paths,
      back looped "b" "u" (fun n _ => .ok n.inputNames) = .ok paths ∧
        paths.map List.length = [3, 3, 3, 3] :=
    exists_ok_of_okAnd (by decide +kernel)
  exact ⟨paths, hback, by decide +kernel, by decide +kernel, by decide, hlengths,
    (back_ends looped "b" "u" _).2.2 paths hback⟩

end MuxFlow.Walk
