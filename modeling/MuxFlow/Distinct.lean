/-!
# First appearances

`distinctBy key xs` keeps, for every value of `key`, the first element of `xs`
that has it, in the order of `xs`. Every list in this library that is free of
repetitions and ordered by first appearance is made with it.
-/

namespace MuxFlow

/-- The elements of a list that are the first to have their key. -/
def distinctBy {α κ : Type} [DecidableEq κ] (key : α → κ) : List α → List α
  | [] => []
  | x :: xs => x :: (distinctBy key xs).filter fun y => key y ≠ key x

/-- The values of a list in the order in which they first appear. -/
abbrev distinct {α : Type} [DecidableEq α] (xs : List α) : List α :=
  distinctBy id xs

section
variable {α κ : Type} [DecidableEq κ] (key : α → κ)

@[simp] theorem distinctBy_nil : distinctBy key ([] : List α) = [] := rfl

theorem distinctBy_cons (x : α) (xs : List α) :
    distinctBy key (x :: xs) =
      x :: (distinctBy key xs).filter fun y => key y ≠ key x := rfl

/-- Nothing is moved and nothing is made up. -/
theorem distinctBy_sublist (xs : List α) : (distinctBy key xs).Sublist xs := by
  induction xs with
  | nil => exact List.Sublist.slnil
  | cons x xs ih =>
      exact List.Sublist.cons_cons x (List.Sublist.trans List.filter_sublist ih)

theorem mem_of_mem_distinctBy {xs : List α} {x : α} (h : x ∈ distinctBy key xs) :
    x ∈ xs :=
  (distinctBy_sublist key xs).subset h

/-- No two kept elements have the same key. -/
theorem nodup_keys_distinctBy (xs : List α) :
    ((distinctBy key xs).map key).Nodup := by
  induction xs with
  | nil => simp
  | cons x xs ih =>
      rw [distinctBy_cons, List.map_cons, List.nodup_cons]
      constructor
      · simp
      · exact List.Nodup.sublist (List.Sublist.map key List.filter_sublist) ih

/-- A key is kept exactly when some element has it. -/
theorem mem_keys_distinctBy (xs : List α) (k : κ) :
    k ∈ (distinctBy key xs).map key ↔ k ∈ xs.map key := by
  induction xs with
  | nil => simp
  | cons x xs ih =>
      rw [distinctBy_cons, List.map_cons, List.mem_cons, List.map_cons, List.mem_cons, ← ih]
      by_cases h : k = key x
      · simp [h]
      · simp only [h, false_or, List.mem_map, List.mem_filter, decide_eq_true_eq]
        constructor
        · rintro ⟨y, ⟨hy, _⟩, rfl⟩
          exact ⟨y, hy, rfl⟩
        · rintro ⟨y, hy, rfl⟩
          exact ⟨y, ⟨hy, h⟩, rfl⟩

/-- An element at the end is kept exactly when its key is new. -/
theorem distinctBy_concat (xs : List α) (x : α) :
    distinctBy key (xs ++ [x]) =
      if key x ∈ xs.map key then distinctBy key xs else distinctBy key xs ++ [x] := by
  induction xs with
  | nil => simp [distinctBy]
  | cons y xs ih =>
      rw [List.cons_append, distinctBy_cons, distinctBy_cons, ih, List.map_cons]
      by_cases hx : key x ∈ xs.map key
      · rw [if_pos hx, if_pos (List.mem_cons_of_mem _ hx)]
      · rw [if_neg hx, List.filter_append]
        by_cases hy : key x = key y
        · rw [if_pos (List.mem_cons.2 (Or.inl hy))]
          simp [hy]
        · rw [if_neg (by simp only [List.mem_cons, hy, hx, or_self, not_false_eq_true])]
          simp [hy]

/-- Of two lists, one after the other, the second gives what is new in it. -/
theorem distinctBy_append (xs ys : List α) :
    distinctBy key (xs ++ ys) =
      distinctBy key xs ++ (distinctBy key ys).filter fun y => key y ∉ xs.map key := by
  induction xs with
  | nil => exact (List.filter_eq_self.2 (by simp)).symm
  | cons x xs ih =>
      rw [List.cons_append, distinctBy_cons, ih, List.filter_append, List.filter_filter,
        distinctBy_cons, List.cons_append]
      congr 2
      apply List.filter_congr
      intro y _
      rw [List.map_cons, ← Bool.decide_and]
      simp only [List.mem_cons, not_or, ne_eq]

theorem distinctBy_eq_nil_iff {xs : List α} : distinctBy key xs = [] ↔ xs = [] := by
  cases xs with
  | nil => simp
  | cons x xs => simp [distinctBy_cons]

/-- A list in which no key is repeated is kept whole. -/
theorem distinctBy_eq_self (xs : List α) (h : (xs.map key).Nodup) : distinctBy key xs = xs := by
  induction xs with
  | nil => rfl
  | cons x xs ih =>
      rw [List.map_cons, List.nodup_cons] at h
      rw [distinctBy_cons, ih h.2, List.filter_eq_self.2]
      intro y hy
      have hne : key y ≠ key x := fun he => h.1 (he ▸ List.mem_map_of_mem hy)
      simpa using hne

/-- The kept keys are the keys in the order in which they first appear. -/
theorem distinct_map (xs : List α) : distinct (xs.map key) = (distinctBy key xs).map key := by
  induction xs with
  | nil => rfl
  | cons x xs ih =>
      rw [List.map_cons, distinct, distinctBy_cons, ← distinct, ih, distinctBy_cons, List.map_cons,
        List.filter_map]
      rfl

/-- Where elements of one key pass or fail a test together, it does not matter whether
the test comes first. -/
theorem filter_distinctBy {p : α → Bool} {xs : List α}
    (h : ∀ x ∈ xs, ∀ y ∈ xs, key x = key y → p x = p y) :
    (distinctBy key xs).filter p = distinctBy key (xs.filter p) := by
  induction xs with
  | nil => rfl
  | cons x xs ih =>
      have ih := ih fun a ha b hb => h a (List.mem_cons_of_mem x ha) b (List.mem_cons_of_mem x hb)
      cases hx : p x with
      | true =>
          rw [List.filter_cons_of_pos hx, distinctBy_cons, distinctBy_cons,
            List.filter_cons_of_pos hx, ← ih, List.filter_filter, List.filter_filter]
          simp only [Bool.and_comm]
      | false =>
          rw [List.filter_cons_of_neg (by simp [hx]), distinctBy_cons,
            List.filter_cons_of_neg (by simp [hx]), ← ih, List.filter_filter]
          apply List.filter_congr
          intro y hy
          by_cases hkey : key y = key x
          · have hmem := List.mem_cons_of_mem x (mem_of_mem_distinctBy key hy)
            rw [h y hmem x List.mem_cons_self hkey, hx]
            rfl
          · simp [hkey]

end

theorem mem_distinct {α : Type} [DecidableEq α] {xs : List α} {x : α} :
    x ∈ distinct xs ↔ x ∈ xs := by
  simpa using mem_keys_distinctBy id xs x

theorem nodup_distinct {α : Type} [DecidableEq α] (xs : List α) : (distinct xs).Nodup := by
  simpa using nodup_keys_distinctBy id xs

end MuxFlow
