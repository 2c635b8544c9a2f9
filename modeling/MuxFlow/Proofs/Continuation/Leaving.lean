import Mathlib.Order.Bounds.Basic
import Mathlib.Order.MinMax
import MuxFlow.Continuation.Branching
import MuxFlow.Proofs.Walk.Chain

/-!
# Where plain paths leave the way to a call

Of the paths behind a port some carry a call: they meet one, and the frames in front of
the nearest one are the way to it (`Carries`). The others are `Plain`. A plain path goes
along with a way as long as both are at the same nodes (`BeginAlike`), and leaves all
ways on the edge after the `Longest` such beginning (`Leaves`).

These words do not say how anything is found. The search finds what they mean
(`leaves_iff`), and of the edges on which paths leave it keeps the first at each place
(`kept`): nothing that is kept is made up (`exists_leaves_of_mem_kept`), and no place is
forgotten (`exists_mem_kept_of_leaves`). The entries for joins are the nodes that the
kept edges lead into (`points_eq`).
-/

namespace MuxFlow

/-- What is kept of a list is kept whatever comes after it. -/
theorem mem_distinctBy_append {α κ : Type} [DecidableEq κ] (key : α → κ) {xs : List α} {x : α}
    (h : x ∈ distinctBy key xs) (ys : List α) : x ∈ distinctBy key (xs ++ ys) := by
  rw [distinctBy_append]
  exact List.mem_append_left _ h

/-- What the greatest of some numbers reaches, one of them does. -/
theorem le_foldl_max_iff {α : Type} {size : α → Nat} {xs : List α} {n best : Nat} :
    n ≤ xs.foldl (fun best x => max best (size x)) best ↔
      n ≤ best ∨ ∃ x ∈ xs, n ≤ size x := by
  induction xs generalizing best with
  | nil => simp
  | cons x xs ih =>
      simp only [List.foldl_cons, ih, le_max_iff, List.exists_mem_cons_iff, or_assoc]

namespace Branching

/-! ## Words -/

/-- The path meets none of the calls, its start left out. -/
def Plain (calls : Set String) (p : Path) : Prop :=
  ∀ f ∈ p.outward.tail, f.node ∉ calls

/-- The path meets a call, its start left out, and `way` is what is in front of the
nearest one. -/
def Carries (calls : Set String) (p : Path) (way : List Frame) : Prop :=
  ∃ start fs call rest, way = start :: fs ∧ p.outward = way ++ call :: rest ∧
    call.node ∈ calls ∧ ∀ f ∈ fs, f.node ∉ calls

/-- The first `k` frames of two lists are at the same nodes. -/
def BeginAlike (k : Nat) (fs gs : List Frame) : Prop :=
  k ≤ fs.length ∧ k ≤ gs.length ∧ (fs.take k).map Frame.node = (gs.take k).map Frame.node

/-- The greatest number of nodes that a path and a way to a call have in common at their
beginning is `k`. -/
def Longest (calls : Set String) (own : List Path) (p : Path) (k : Nat) : Prop :=
  IsGreatest {n | ∃ r ∈ own, ∃ way, Carries calls r way ∧ BeginAlike n p.outward way} k

/-- A plain path goes along with ways to calls for `k` frames and is led away from them
by `e`. -/
structure Leaves (calls : Set String) (own : List Path) (p : Path) (k : Nat) (e : Edge) :
    Prop where
  mem : p ∈ own
  plain : Plain calls p
  longest : Longest calls own p k
  next : p.outward[k]? = some e.frame

theorem BeginAlike.getElem? {k : Nat} {fs gs : List Frame} (h : BeginAlike k fs gs) {i : Nat}
    (hi : i < k) : fs[i]?.map Frame.node = gs[i]?.map Frame.node := by
  have hnodes := congrArg (·[i]?) h.2.2
  simpa [List.getElem?_take, hi] using hnodes

/-- A path leaves in one way only. -/
theorem Leaves.unique {calls : Set String} {own : List Path} {p : Path} {k j : Nat} {e a : Edge}
    (h : Leaves calls own p k e) (h' : Leaves calls own p j a) : e = a := by
  obtain rfl := h.longest.unique h'.longest
  exact Edge.frame_injective (Option.some.inj (h.next.symm.trans h'.next))

/-! ## How they are found -/

section
variable {recursive : List String} {own : List Path} {p : Path}

/-- The ids of a list as a set. -/
abbrev idsOf (ids : List String) : Set String := {id | id ∈ ids}

theorem segment?_eq_none_iff : segment? recursive p = none ↔ Plain (idsOf recursive) p := by
  unfold segment? Plain
  cases p.outward with
  | nil => simp
  | cons s fs => simp

theorem takeWhile_nearest {fs rest : List Frame} {call : Frame} (hcall : call.node ∈ recursive)
    (hfs : ∀ f ∈ fs, f.node ∉ recursive) :
    (fs ++ call :: rest).takeWhile (fun f => decide (f.node ∉ recursive)) = fs := by
  rw [List.takeWhile_append_of_pos fun f hf => decide_eq_true (hfs f hf),
    List.takeWhile_cons_of_neg (by simpa using hcall), List.append_nil]

theorem segment?_eq_some_iff {way : List Frame} :
    segment? recursive p = some way ↔ Carries (idsOf recursive) p way := by
  unfold segment? Carries
  cases p.outward with
  | nil => simp
  | cons s fs =>
      simp only [Option.ite_none_right_eq_some, Option.some.injEq]
      constructor
      · rintro ⟨hany, rfl⟩
        rw [← List.isSome_find?, Option.isSome_iff_exists] at hany
        obtain ⟨call, hfind⟩ := hany
        obtain ⟨hcall, front, rest, rfl, hfront⟩ := List.find?_eq_some_iff_append.1 hfind
        have hcall : call.node ∈ recursive := of_decide_eq_true hcall
        have hfront : ∀ f ∈ front, f.node ∉ recursive := by simpa using hfront
        rw [takeWhile_nearest hcall hfront]
        exact ⟨s, front, call, rest, rfl, rfl, hcall, hfront⟩
      · rintro ⟨s', front, call, rest, rfl, hsplit, hcall, hfront⟩
        obtain ⟨rfl, rfl⟩ := List.cons.inj hsplit
        refine ⟨List.any_eq_true.2 ⟨call, by simp, decide_eq_true hcall⟩, ?_⟩
        rw [List.append_eq, takeWhile_nearest hcall hfront]

/-- A path is plain when it carries no call. -/
theorem plain_iff : Plain (idsOf recursive) p ↔ ∀ way, ¬Carries (idsOf recursive) p way := by
  simp only [← segment?_eq_none_iff, ← segment?_eq_some_iff, Option.eq_none_iff_forall_ne_some,
    ne_eq]

theorem beginAlike_iff {k : Nat} {fs gs : List Frame} :
    BeginAlike k fs gs ↔ k ≤ sharedLength fs gs := by
  unfold BeginAlike
  induction fs generalizing gs k with
  | nil => cases gs <;> simp +contextual [sharedLength]
  | cons f fs ih =>
      cases gs with
      | nil => simp +contextual [sharedLength]
      | cons f' gs =>
          cases k with
          | zero => simp
          | succ k =>
              rw [sharedLength]
              by_cases hnode : f.node = f'.node
              · rw [if_pos hnode, Nat.succ_le_succ_iff, ← ih]
                simp [hnode]
              · simp [hnode]

theorem le_longestShared_iff {segments : List (List Frame)} {fs : List Frame} {n : Nat} :
    n ≤ longestShared segments fs ↔ n = 0 ∨ ∃ way ∈ segments, n ≤ sharedLength fs way := by
  rw [longestShared, le_foldl_max_iff, Nat.le_zero]

/-- The ways to calls among the paths. -/
abbrev ways (recursive : List String) (own : List Path) : List (List Frame) :=
  own.filterMap (segment? recursive)

theorem mem_ways_iff {way : List Frame} :
    way ∈ ways recursive own ↔ ∃ r ∈ own, Carries (idsOf recursive) r way := by
  simp only [List.mem_filterMap, segment?_eq_some_iff]

/-- Where there are ways, how far a path goes along with them is found. -/
theorem longest_longestShared (hne : ways recursive own ≠ []) (p : Path) :
    Longest (idsOf recursive) own p (longestShared (ways recursive own) p.outward) := by
  constructor
  · rcases le_longestShared_iff.1 (Nat.le_refl _) with hzero | ⟨way, hway, hle⟩
    · obtain ⟨way, hway⟩ := List.exists_mem_of_ne_nil _ hne
      obtain ⟨r, hr, hcarries⟩ := mem_ways_iff.1 hway
      exact ⟨r, hr, way, hcarries, beginAlike_iff.2 (hzero ▸ Nat.zero_le _)⟩
    · obtain ⟨r, hr, hcarries⟩ := mem_ways_iff.1 hway
      exact ⟨r, hr, way, hcarries, beginAlike_iff.2 hle⟩
  · rintro n ⟨r, hr, way, hcarries, halike⟩
    exact le_longestShared_iff.2
      (.inr ⟨way, mem_ways_iff.2 ⟨r, hr, hcarries⟩, beginAlike_iff.1 halike⟩)

theorem Longest.ways_ne_nil {k : Nat} (h : Longest (idsOf recursive) own p k) :
    ways recursive own ≠ [] := by
  obtain ⟨⟨r, hr, way, hcarries, _⟩, _⟩ := h
  exact List.ne_nil_of_mem (mem_ways_iff.2 ⟨r, hr, hcarries⟩)

theorem leaves_iff {k : Nat} {e : Edge} :
    Leaves (idsOf recursive) own p k e ↔
      p ∈ own ∧ segment? recursive p = none ∧ ways recursive own ≠ [] ∧
        longestShared (ways recursive own) p.outward = k ∧ p.outward[k]? = some e.frame := by
  constructor
  · rintro ⟨hmem, hplain, hlongest, hnext⟩
    have hne := hlongest.ways_ne_nil
    exact ⟨hmem, segment?_eq_none_iff.2 hplain, hne,
      (longest_longestShared hne p).unique hlongest, hnext⟩
  · rintro ⟨hmem, hplain, hne, rfl, hnext⟩
    exact ⟨hmem, segment?_eq_none_iff.1 hplain, longest_longestShared hne p, hnext⟩

/-- The edge on which a path leaves, with the frame it leads to; none for a path to a
call, and none when there is no path to a call. -/
def leaving? (recursive : List String) (own : List Path) (p : Path) : Option (Frame × Edge) :=
  if ways recursive own = [] ∨ segment? recursive p ≠ none then none
  else departure? (ways recursive own) p.outward

theorem leaving?_eq_some_iff (hp : p ∈ own)
    (hframes : ∀ f ∈ p, ∀ e, f.edge = some e → f = e.frame) {d : Frame × Edge} :
    leaving? recursive own p = some d ↔
      d.1 = d.2.frame ∧ ∃ k, Leaves (idsOf recursive) own p k d.2 := by
  simp only [leaves_iff, leaving?, Option.ite_none_left_eq_some, departure?,
    Option.bind_eq_bind, Option.bind_eq_some_iff, not_or, not_not]
  constructor
  · rintro ⟨⟨hne, hplain⟩, f, hf, e, he, hd⟩
    obtain rfl := Option.some.inj hd
    obtain rfl := hframes f (List.mem_reverse.1 (List.mem_of_getElem? hf)) e he
    exact ⟨rfl, _, hp, hplain, hne, rfl, hf⟩
  · rintro ⟨hframe, k, _, hplain, hne, rfl, hnext⟩
    exact ⟨⟨hne, hplain⟩, d.2.frame, hnext, d.2, rfl, hframe ▸ rfl⟩

/-! ## What becomes of them -/

/-- The edges on which paths leave, one for each place. -/
def kept (recursive : List String) (own : List Path) : List Edge :=
  (distinctBy (fun d => d.1.place) (own.filterMap (leaving? recursive own))).map Prod.snd

theorem points_eq (recursions : List Frame) (port : String) :
    points own recursions port = join port (kept (recursions.map Frame.node) own) := by
  unfold points
  extract_lets recursive segments plain leaving
  by_cases hne : segments = []
  · have hnone : ∀ p ∈ own, leaving? recursive own p = none := fun p _ => if_pos (.inl hne)
    rw [kept, List.filterMap_eq_nil_iff.2 hnone]
    simp [hne, join]
  · have hleaving : plain.filterMap (departure? segments) =
        own.filterMap (leaving? recursive own) := by
      rw [List.filterMap_map, List.filterMap_filter]
      apply List.filterMap_congr
      intro p _
      unfold leaving?
      cases segment? recursive p <;> simp [hne, ways, segments]
    rw [if_neg (by simpa using hne)]
    exact congrArg (fun ds => join port ((distinctBy _ ds).map Prod.snd)) hleaving

section
variable (hframes : ∀ p ∈ own, ∀ f ∈ p, ∀ e, f.edge = some e → f = e.frame)
include hframes

theorem exists_leaves_of_mem_kept {e : Edge} (h : e ∈ kept recursive own) :
    ∃ p k, Leaves (idsOf recursive) own p k e := by
  obtain ⟨d, hd, rfl⟩ := List.mem_map.1 h
  obtain ⟨p, hp, hleaving⟩ := List.mem_filterMap.1 (mem_of_mem_distinctBy _ hd)
  exact ⟨p, ((leaving?_eq_some_iff hp (hframes p hp)).1 hleaving).2⟩

/-- Of the paths that leave at the place of a path, one is kept that does not come after
it. -/
theorem exists_mem_kept_of_leaves {before after : List Path} {k : Nat} {e : Edge}
    (hown : own = before ++ p :: after) (h : Leaves (idsOf recursive) own p k e) :
    ∃ q ∈ before ++ [p], ∃ j a, Leaves (idsOf recursive) own q j a ∧ a.origin = e.origin ∧
      a ∈ kept recursive own := by
  have hsplit : own = (before ++ [p]) ++ after := by simpa using hown
  have hsub : ∀ q ∈ before ++ [p], q ∈ own := by
    intro q hq
    rw [hsplit]
    exact List.mem_append_left after hq
  have hleaving : leaving? recursive own p = some (e.frame, e) :=
    (leaving?_eq_some_iff h.mem (hframes p h.mem)).2 ⟨rfl, k, h⟩
  -- among the paths up to this one the place is kept, and what comes after does not undo it
  have hkey : e.origin ∈ ((before ++ [p]).filterMap (leaving? recursive own)).map
      (fun d => d.1.place) :=
    List.mem_map.2 ⟨_, List.mem_filterMap.2 ⟨p, by simp, hleaving⟩, e.frame_place⟩
  obtain ⟨d, hd, horigin⟩ := List.mem_map.1 ((mem_keys_distinctBy _ _ _).2 hkey)
  obtain ⟨q, hq, hd'⟩ := List.mem_filterMap.1 (mem_of_mem_distinctBy _ hd)
  obtain ⟨hframe, j, hleaves⟩ := (leaving?_eq_some_iff (hsub q hq) (hframes q (hsub q hq))).1 hd'
  refine ⟨q, hq, j, d.2, hleaves, ?_, ?_⟩
  · rw [← horigin, hframe, Edge.frame_place]
  · have hmem := mem_distinctBy_append _ hd (after.filterMap (leaving? recursive own))
    rw [← List.filterMap_append, ← hsplit] at hmem
    exact List.mem_map_of_mem hmem

end

theorem exists_mem_join (port : String) {edges : List Edge} {e : Edge} (he : e ∈ edges) :
    ∃ d ∈ join port edges, d.node = e.target :=
  ⟨_, List.mem_map_of_mem (mem_distinct.2 (List.mem_map_of_mem he)), rfl⟩

theorem branchPorts_of_mem_join {port : String} {edges : List Edge} {d : Descriptor}
    (h : d ∈ join port edges) :
    d.branchPorts ≠ [] ∧ d.branchPorts.Nodup ∧
      ∀ q, q ∈ d.branchPorts ↔ ∃ e ∈ edges, e.target = d.node ∧ e.targetPort = q := by
  obtain ⟨v, hv, rfl⟩ := List.mem_map.1 h
  have hports : ∀ q, q ∈ distinct ((edges.filter fun e => e.target = v).map Edge.targetPort) ↔
      ∃ e ∈ edges, e.target = v ∧ e.targetPort = q := by
    intro q
    simp [mem_distinct, and_assoc]
  obtain ⟨e, he, rfl⟩ := List.mem_map.1 (mem_distinct.1 hv)
  refine ⟨List.ne_nil_of_mem ((hports e.targetPort).2 ⟨e, he, rfl, rfl⟩), ?_, hports⟩
  simpa using nodup_keys_distinctBy id ((edges.filter fun e' => e'.target = e.target).map
    Edge.targetPort)

end

end Branching

end MuxFlow
