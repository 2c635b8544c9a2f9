import MuxFlow.Distinct
import MuxFlow.Graph.Builder
import Mathlib.Data.List.Find
import Mathlib.Data.List.Induction
import Mathlib.Data.List.Nodup

/-!
# Edges placed one after another

An edge that is placed under a name already in use takes the place of the edge
of that name. `overlay es ls` says what comes of placing the edges of `ls` one
after another into `es`: every edge of `es` stays where it is, with the last
edge of `ls` that has its name in its stead, and the names that `es` does not
have follow in the order in which `ls` first uses them, each with its last edge.
That this is what the loop computes is `foldl_place`. The rest of the module
reads off it who is in the result, how many there are, that placing the same edges
again changes nothing, and what becomes of the edges of one sort.
-/

namespace MuxFlow

/-- Whoever is found first is found first among those who pass a test that all who
are looked for pass. -/
theorem find?_filter_of_imp {α : Type} {p q : α → Bool} {xs : List α}
    (h : ∀ x ∈ xs, q x = true → p x = true) : (xs.filter p).find? q = xs.find? q := by
  rw [List.find?_filter]
  apply List.find?_congr
  intro x hx
  cases hq : q x with
  | true => simp [h x hx hq]
  | false => simp

namespace Edge

/-- The last edge of a list that has a name. -/
def latest? (ls : List Edge) (name : String) : Option Edge :=
  ls.reverse.find? fun e => e.name = name

/-- The last edge of a list that has the name of `e`, or `e` itself. -/
def current (ls : List Edge) (e : Edge) : Edge := (latest? ls e.name).getD e

/-- The edges of `ls` that are the first to have a name that no edge of `es`
has. -/
def newcomers (es ls : List Edge) : List Edge :=
  (distinctBy Edge.name ls).filter fun e => e.name ∉ es.map Edge.name

/-- The edges of `es` after those of `ls` have been placed. -/
def overlay (es ls : List Edge) : List Edge :=
  es.map (current ls) ++ (newcomers es ls).map (current ls)

theorem latest?_concat (ls : List Edge) (e : Edge) (name : String) :
    latest? (ls ++ [e]) name = if e.name = name then some e else latest? ls name := by
  by_cases h : e.name = name <;> simp [latest?, h]

theorem latest?_name {ls : List Edge} {name : String} {e : Edge} (h : latest? ls name = some e) :
    e.name = name := by
  simpa using List.find?_some h

theorem mem_of_latest? {ls : List Edge} {name : String} {e : Edge}
    (h : latest? ls name = some e) : e ∈ ls :=
  List.mem_reverse.1 (List.mem_of_find?_eq_some h)

theorem latest?_eq_none_iff (ls : List Edge) (name : String) :
    latest? ls name = none ↔ name ∉ ls.map Edge.name := by
  simp [latest?, List.find?_eq_none]

@[simp] theorem current_nil (e : Edge) : current [] e = e := rfl

@[simp] theorem current_name (ls : List Edge) (e : Edge) : (current ls e).name = e.name := by
  unfold current
  cases h : latest? ls e.name with
  | none => rfl
  | some x => exact latest?_name h

theorem current_of_latest? {ls : List Edge} {e x : Edge} (h : latest? ls e.name = some x) :
    current ls e = x := by
  simp [current, h]

theorem current_of_not_mem {ls : List Edge} {e : Edge} (h : e.name ∉ ls.map Edge.name) :
    current ls e = e := by
  simp [current, (latest?_eq_none_iff ls e.name).2 h]

theorem current_concat (ls : List Edge) (e x : Edge) :
    current (ls ++ [e]) x = if x.name = e.name then e else current ls x := by
  unfold current
  rw [latest?_concat]
  by_cases h : e.name = x.name
  · simp [h]
  · simp [h, Ne.symm h]

/-- The last edge of a name stands for all of them. -/
theorem latest?_of_mem {ls : List Edge} {e : Edge} (h : e ∈ ls) :
    latest? ls e.name = some (current ls e) := by
  cases hl : latest? ls e.name with
  | none => exact absurd (List.mem_map_of_mem h) ((latest?_eq_none_iff ls e.name).1 hl)
  | some x => rw [current_of_latest? hl]

@[simp] theorem newcomers_nil (es : List Edge) : newcomers es [] = [] := rfl

theorem newcomers_concat (es ls : List Edge) (e : Edge) :
    newcomers es (ls ++ [e]) =
      if e.name ∈ es.map Edge.name ∨ e.name ∈ ls.map Edge.name then newcomers es ls
      else newcomers es ls ++ [e] := by
  unfold newcomers
  rw [distinctBy_concat]
  by_cases hl : e.name ∈ ls.map Edge.name
  · rw [if_pos hl, if_pos (Or.inr hl)]
  · rw [if_neg hl, List.filter_append]
    by_cases he : e.name ∈ es.map Edge.name
    · rw [if_pos (Or.inl he)]
      simpa using he
    · rw [if_neg (by simp only [he, hl, or_self, not_false_eq_true])]
      simpa using he

theorem mem_newcomers_names (es ls : List Edge) (name : String) :
    name ∈ (newcomers es ls).map Edge.name ↔
      name ∈ ls.map Edge.name ∧ name ∉ es.map Edge.name := by
  rw [← mem_keys_distinctBy Edge.name ls name]
  simp only [newcomers, List.mem_map, List.mem_filter, decide_eq_true_eq]
  constructor
  · rintro ⟨x, ⟨hx, hn⟩, rfl⟩
    exact ⟨⟨x, hx, rfl⟩, hn⟩
  · rintro ⟨⟨x, hx, rfl⟩, hn⟩
    exact ⟨x, ⟨hx, hn⟩, rfl⟩

theorem mem_overlay_names (es ls : List Edge) (name : String) :
    name ∈ (overlay es ls).map Edge.name ↔
      name ∈ es.map Edge.name ∨ name ∈ ls.map Edge.name := by
  have hname : ∀ xs : List Edge, (xs.map (current ls)).map Edge.name = xs.map Edge.name := by
    intro xs
    simp
  rw [overlay, List.map_append, hname, hname, List.mem_append, mem_newcomers_names]
  by_cases h : name ∈ es.map Edge.name
  · simp only [h, true_or]
  · simp only [h, false_or, not_false_eq_true, and_true]

/-- One more edge after all the others. -/
theorem place_overlay (es ls : List Edge) (e : Edge) :
    place (overlay es ls) e = overlay es (ls ++ [e]) := by
  have hmap : ∀ xs : List Edge,
      (xs.map (current ls)).map (fun x => if x.name = e.name then e else x) =
        xs.map (current (ls ++ [e])) := by
    intro xs
    rw [List.map_map]
    apply List.map_congr_left
    intro x _
    simp [current_concat]
  have hmem : ((overlay es ls).any fun x => x.name = e.name) = true ↔
      e.name ∈ es.map Edge.name ∨ e.name ∈ ls.map Edge.name := by
    rw [← mem_overlay_names]
    simp
  unfold place
  by_cases h : e.name ∈ es.map Edge.name ∨ e.name ∈ ls.map Edge.name
  · rw [if_pos (hmem.2 h), overlay, overlay, newcomers_concat, if_pos h, List.map_append, hmap,
      hmap]
  · rw [if_neg (fun hp => h (hmem.1 hp)), overlay, overlay, newcomers_concat, if_neg h,
      List.map_append, ← List.append_assoc]
    -- a name that is nowhere yet touches no edge that is already there
    have hkeep : ∀ xs : List Edge, e.name ∉ xs.map Edge.name →
        xs.map (current (ls ++ [e])) = xs.map (current ls) := by
      intro xs hx
      apply List.map_congr_left
      intro x hxs
      have hne : x.name ≠ e.name := fun he => hx (he ▸ List.mem_map_of_mem hxs)
      rw [current_concat, if_neg hne]
    rw [hkeep es fun he => h (Or.inl he),
      hkeep (newcomers es ls) fun he => h (Or.inr ((mem_newcomers_names es ls _).1 he).1)]
    simp [current_concat]

/-- Placing edges one after another. -/
theorem foldl_place (es ls : List Edge) : ls.foldl place es = overlay es ls := by
  induction ls using List.reverseRecOn with
  | nil =>
      have hid : current [] = id := funext current_nil
      simp [overlay, hid]
  | append_singleton ls e ih =>
      rw [List.foldl_append, ih]
      exact place_overlay es ls e

/-- An edge is there afterwards when it was there and its name was left alone, or
when it is the last that was placed under its name. -/
theorem mem_overlay {es ls : List Edge} {e : Edge} :
    e ∈ overlay es ls ↔
      (e ∈ es ∧ e.name ∉ ls.map Edge.name) ∨ latest? ls e.name = some e := by
  constructor
  · intro h
    have hsrc : ∃ x, (x ∈ es ∨ x ∈ newcomers es ls) ∧ current ls x = e := by
      rcases List.mem_append.1 h with h | h
      · obtain ⟨x, hx, rfl⟩ := List.mem_map.1 h
        exact ⟨x, Or.inl hx, rfl⟩
      · obtain ⟨x, hx, rfl⟩ := List.mem_map.1 h
        exact ⟨x, Or.inr hx, rfl⟩
    obtain ⟨x, hx, rfl⟩ := hsrc
    rw [current_name]
    cases hl : latest? ls x.name with
    | some y => exact Or.inr (by rw [current_of_latest? hl])
    | none =>
        have hn := (latest?_eq_none_iff ls x.name).1 hl
        rw [current_of_not_mem hn]
        rcases hx with hx | hx
        · exact Or.inl ⟨hx, hn⟩
        · exact absurd ((mem_newcomers_names es ls _).1 (List.mem_map_of_mem hx)).1 hn
  · rintro (⟨he, hn⟩ | hl)
    · exact List.mem_append_left _ (List.mem_map.2 ⟨e, he, current_of_not_mem hn⟩)
    · have hmem : e.name ∈ ls.map Edge.name := List.mem_map_of_mem (mem_of_latest? hl)
      by_cases hes : e.name ∈ es.map Edge.name
      · obtain ⟨x, hx, hxe⟩ := List.mem_map.1 hes
        exact List.mem_append_left _
          (List.mem_map.2 ⟨x, hx, current_of_latest? (by rw [hxe]; exact hl)⟩)
      · obtain ⟨x, hx, hxe⟩ :=
          List.mem_map.1 ((mem_newcomers_names es ls e.name).2 ⟨hmem, hes⟩)
        exact List.mem_append_right _
          (List.mem_map.2 ⟨x, hx, current_of_latest? (by rw [hxe]; exact hl)⟩)

theorem current_mem_overlay {es ls : List Edge} {e : Edge} (h : e ∈ ls) :
    current ls e ∈ overlay es ls := by
  apply mem_overlay.2
  rw [current_name]
  exact Or.inr (latest?_of_mem h)

/-- Where no two edges share a name, each is the last of its name. -/
theorem current_of_nodup {ls : List Edge} (h : (ls.map Edge.name).Nodup) {e : Edge}
    (he : e ∈ ls) : current ls e = e :=
  List.inj_on_of_nodup_map h (mem_of_latest? (latest?_of_mem he)) he (current_name ls e)

/-- Edges that have a name each are placed as they come. -/
theorem overlay_nil_of_nodup {ls : List Edge} (h : (ls.map Edge.name).Nodup) :
    overlay [] ls = ls := by
  have hcur : ls.map (current ls) = ls.map id := by
    apply List.map_congr_left
    intro e he
    exact current_of_nodup h he
  have hnew : newcomers [] ls = ls := by
    rw [newcomers, distinctBy_eq_self Edge.name ls h]
    simp
  rw [overlay, hnew, hcur]
  simp

/-- Nothing changes exactly when the last edge of every name is already there. -/
theorem overlay_eq_self_iff {es ls : List Edge} (hes : (es.map Edge.name).Nodup) :
    overlay es ls = es ↔ ∀ e ∈ ls, current ls e ∈ es := by
  constructor
  · intro h e he
    rw [← h]
    exact current_mem_overlay he
  · intro h
    have hnew : newcomers es ls = [] := by
      apply List.eq_nil_iff_forall_not_mem.2
      intro e he
      obtain ⟨hl, hn⟩ := (mem_newcomers_names es ls e.name).1 (List.mem_map_of_mem he)
      obtain ⟨x, hx, hxe⟩ := List.mem_map.1 hl
      exact hn (List.mem_map.2 ⟨current ls x, h x hx, by rw [current_name, hxe]⟩)
    have hold : es.map (current ls) = es.map id := by
      apply List.map_congr_left
      intro x hx
      cases hl : latest? ls x.name with
      | none => simp [current, hl]
      | some y =>
          have hyx : y.name = x.name := latest?_name hl
          have hy : current ls y ∈ es := h y (mem_of_latest? hl)
          rw [current_of_latest? (hyx ▸ hl)] at hy
          rw [current_of_latest? hl]
          exact List.inj_on_of_nodup_map hes hy hx hyx
    rw [overlay, hnew, hold]
    simp

/-- As sets, the edges before and after are the same under the same condition. -/
theorem forall_mem_overlay_iff {es ls : List Edge} (hes : (es.map Edge.name).Nodup) :
    (∀ e, e ∈ overlay es ls ↔ e ∈ es) ↔ ∀ e ∈ ls, current ls e ∈ es := by
  constructor
  · intro h e he
    exact (h _).1 (current_mem_overlay he)
  · intro h e
    rw [(overlay_eq_self_iff hes).2 h]

/-- Of a sort of edges that `ls` has none of, those stay whose names `ls` leaves
alone. -/
theorem filter_overlay {es ls : List Edge} {p : Edge → Bool} (hp : ∀ e ∈ ls, p e = false) :
    (overlay es ls).filter p = (es.filter p).filter fun e => e.name ∉ ls.map Edge.name := by
  have hcur : ∀ e, e.name ∈ ls.map Edge.name → p (current ls e) = false := by
    intro e he
    obtain ⟨x, hx, hxe⟩ := List.mem_map.1 he
    have hl := latest?_of_mem hx
    rw [hxe] at hl
    rw [current_of_latest? hl]
    exact hp _ (mem_of_latest? hl)
  have hnew : ((newcomers es ls).map (current ls)).filter p = [] := by
    apply List.filter_eq_nil_iff.2
    intro e he
    obtain ⟨x, hx, rfl⟩ := List.mem_map.1 he
    rw [hcur x ((mem_newcomers_names es ls _).1 (List.mem_map_of_mem hx)).1]
    simp
  have hold : ∀ xs : List Edge, (xs.map (current ls)).filter p =
      (xs.filter p).filter fun e => e.name ∉ ls.map Edge.name := by
    intro xs
    induction xs with
    | nil => rfl
    | cons e xs ih =>
        rw [List.filter_filter] at ih ⊢
        rw [List.map_cons, List.filter_cons, List.filter_cons, ih]
        by_cases he : e.name ∈ ls.map Edge.name
        · rw [hcur e he, decide_eq_false (not_not_intro he), Bool.false_and]
          rfl
        · rw [current_of_not_mem he, decide_eq_true he, Bool.true_and]
  rw [overlay, List.filter_append, hnew, List.append_nil, hold]

/-- Where edges of one name are of the same sort, the edges of a sort are placed among
themselves. -/
theorem filter_overlay_of_names {es ls : List Edge} {p : Edge → Bool}
    (h : ∀ a ∈ es ++ ls, ∀ b ∈ es ++ ls, a.name = b.name → p a = p b) :
    (overlay es ls).filter p = overlay (es.filter p) (ls.filter p) := by
  have hcur : ∀ e ∈ es ++ ls, p (current ls e) = p e := by
    intro e he
    cases hl : latest? ls e.name with
    | none => rw [current_of_not_mem ((latest?_eq_none_iff ls e.name).1 hl)]
    | some x =>
        rw [current_of_latest? hl]
        exact h x (List.mem_append_right es (mem_of_latest? hl)) e he (latest?_name hl)
  have hsort : ∀ e ∈ es ++ ls, p e = true → current (ls.filter p) e = current ls e := by
    intro e he hpe
    unfold current latest?
    rw [← List.filter_reverse, find?_filter_of_imp]
    intro x hx hname
    rw [h x (List.mem_append_right es (List.mem_reverse.1 hx)) e he (by simpa using hname), hpe]
  have hmap : ∀ xs : List Edge, (∀ x ∈ xs, x ∈ es ++ ls) →
      (xs.map (current ls)).filter p = (xs.filter p).map (current (ls.filter p)) := by
    intro xs hxs
    have hfilter : xs.filter (p ∘ current ls) = xs.filter p :=
      List.filter_congr fun x hx => hcur x (hxs x hx)
    rw [List.filter_map, hfilter]
    apply List.map_congr_left
    intro x hx
    obtain ⟨hx, hpx⟩ := List.mem_filter.1 hx
    exact (hsort x (hxs x hx) hpx).symm
  have hnew : (newcomers es ls).filter p = newcomers (es.filter p) (ls.filter p) := by
    have hls : ∀ a ∈ ls, ∀ b ∈ ls, a.name = b.name → p a = p b := fun a ha b hb =>
      h a (List.mem_append_right es ha) b (List.mem_append_right es hb)
    unfold newcomers
    rw [← filter_distinctBy Edge.name hls, List.filter_filter, List.filter_filter]
    apply List.filter_congr
    intro e he
    have hmem : e ∈ es ++ ls := List.mem_append_right es (mem_of_mem_distinctBy Edge.name he)
    cases hpe : p e with
    | false => simp
    | true =>
        -- an edge of this name in `es` is of the same sort
        have hnames : e.name ∈ es.map Edge.name ↔ e.name ∈ (es.filter p).map Edge.name := by
          constructor
          · intro hn
            obtain ⟨x, hx, hxe⟩ := List.mem_map.1 hn
            have hpx := h x (List.mem_append_left ls hx) e hmem hxe
            exact List.mem_map.2 ⟨x, List.mem_filter.2 ⟨hx, hpx.trans hpe⟩, hxe⟩
          · exact fun hn => (List.filter_sublist.map Edge.name).subset hn
        simp only [hnames, Bool.true_and, Bool.and_true]
  rw [overlay, List.filter_append, hmap es fun x hx => List.mem_append_left ls hx,
    hmap (newcomers es ls) fun x hx => List.mem_append_right es
      (mem_of_mem_distinctBy Edge.name (List.mem_filter.1 hx).1), hnew]
  rfl

/-- The result has an edge more for each edge of `ls` exactly when no two edges of
`ls` share a name and no edge of `es` has one of their names. -/
theorem length_overlay_eq_iff (es ls : List Edge) :
    (overlay es ls).length = es.length + ls.length ↔
      (ls.map Edge.name).Nodup ∧ ∀ e ∈ es, e.name ∉ ls.map Edge.name := by
  have hsub : (newcomers es ls).Sublist (distinctBy Edge.name ls) := List.filter_sublist
  have hdis : (distinctBy Edge.name ls).Sublist ls := distinctBy_sublist Edge.name ls
  have hlen : (overlay es ls).length = es.length + (newcomers es ls).length := by
    simp [overlay]
  rw [hlen, Nat.add_left_cancel_iff]
  constructor
  · intro h
    -- nothing was dropped on the way, so both restrictions kept everything
    have hnew : newcomers es ls = ls := (hsub.trans hdis).eq_of_length h
    have hall : distinctBy Edge.name ls = ls := by
      apply hdis.eq_of_length
      have := hsub.length_le
      have := hdis.length_le
      omega
    constructor
    · rw [← hall]
      exact nodup_keys_distinctBy Edge.name ls
    · intro e he hname
      rw [← hnew] at hname
      exact ((mem_newcomers_names es ls e.name).1 hname).2 (List.mem_map_of_mem he)
  · rintro ⟨hnd, hes⟩
    rw [newcomers, distinctBy_eq_self Edge.name ls hnd, List.length_filter_eq_length_iff]
    intro e he
    apply decide_eq_true
    intro hname
    obtain ⟨x, hx, hxe⟩ := List.mem_map.1 hname
    exact hes x hx (hxe ▸ List.mem_map_of_mem he)

end Edge

end MuxFlow
