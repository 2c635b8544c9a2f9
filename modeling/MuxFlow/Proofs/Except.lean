import Mathlib.Data.List.Forall2

/-!
# Results that may be faults

Every stage of the analysis ends with a value or with a fault, and the next stage
starts from the value. These are the facts that take such a chain apart: what a
chain that ends well has gone through and where one that does not has stopped, and
the same for a list of like steps.
-/

namespace MuxFlow

variable {ε α β : Type}

theorem bind_eq_ok_iff {x : Except ε α} {f : α → Except ε β} {b : β} :
    (x >>= f) = .ok b ↔ ∃ a, x = .ok a ∧ f a = .ok b := by
  cases x <;> simp [bind, Except.bind]

theorem bind_eq_error_iff {x : Except ε α} {f : α → Except ε β} {e : ε} :
    (x >>= f) = .error e ↔ x = .error e ∨ ∃ a, x = .ok a ∧ f a = .error e := by
  cases x <;> simp [bind, Except.bind]

/-- What comes after a value has to agree on that value only. -/
theorem bind_congr_of_ok {x : Except ε α} {f f' : α → Except ε β}
    (h : ∀ a, x = .ok a → f a = f' a) : (x >>= f) = (x >>= f') := by
  cases x with
  | error e => rfl
  | ok a => exact h a rfl

@[simp] theorem ok_bind (a : α) (f : α → Except ε β) : (Except.ok a >>= f) = f a := rfl

/-- A list of steps ends well when each step does. -/
theorem mapM_eq_ok_iff {f : α → Except ε β} {xs : List α} {ys : List β} :
    xs.mapM f = .ok ys ↔ List.Forall₂ (fun x y => f x = .ok y) xs ys := by
  induction xs generalizing ys with
  | nil =>
      rw [List.mapM_nil, List.forall₂_nil_left_iff]
      exact ⟨fun h => (Except.ok.inj h).symm, fun h => h ▸ rfl⟩
  | cons x xs ih =>
      rw [List.mapM_cons, bind_eq_ok_iff]
      constructor
      · rintro ⟨y, hy, h⟩
        obtain ⟨zs, hzs, h⟩ := bind_eq_ok_iff.1 h
        obtain rfl := Except.ok.inj h
        exact List.Forall₂.cons hy (ih.1 hzs)
      · intro h
        obtain ⟨y, zs, hy, hzs, rfl⟩ := List.forall₂_cons_left_iff.1 h
        exact ⟨y, hy, bind_eq_ok_iff.2 ⟨zs, ih.2 hzs, rfl⟩⟩

theorem exists_of_mem_left {R : α → β → Prop} {xs : List α} {ys : List β}
    (h : List.Forall₂ R xs ys) {x : α} (hx : x ∈ xs) : ∃ y ∈ ys, R x y := by
  induction h with
  | nil => cases hx
  | cons hxy _ ih =>
      rcases List.mem_cons.1 hx with rfl | hx
      · exact ⟨_, List.mem_cons_self, hxy⟩
      · obtain ⟨y, hy, hr⟩ := ih hx
        exact ⟨y, List.mem_cons_of_mem _ hy, hr⟩

theorem exists_of_mem_right {R : α → β → Prop} {xs : List α} {ys : List β}
    (h : List.Forall₂ R xs ys) {y : β} (hy : y ∈ ys) : ∃ x ∈ xs, R x y :=
  exists_of_mem_left h.flip hy

/-- What sets the items of a list apart sets apart what they are related to. -/
theorem pairwise_of_forall₂ {R : α → β → Prop} {S : α → α → Prop} {T : β → β → Prop}
    {xs : List α} {ys : List β} (h : List.Forall₂ R xs ys) (hS : xs.Pairwise S)
    (hST : ∀ x x' y y', S x x' → R x y → R x' y' → T y y') : ys.Pairwise T := by
  induction h with
  | nil => exact List.Pairwise.nil
  | cons hxy hxys ih =>
      obtain ⟨hx, hxs⟩ := List.pairwise_cons.1 hS
      refine List.pairwise_cons.2 ⟨?_, ih hxs⟩
      intro y' hy'
      obtain ⟨x', hx', hr⟩ := exists_of_mem_right hxys hy'
      exact hST _ x' _ y' (hx x' hx') hxy hr

/-- Where each pair of a relation has a third that goes with it, so have lists of pairs. -/
theorem exists_forall₂ {γ : Type} {R : α → β → Prop} {S : α → γ → Prop} {T : β → γ → Prop}
    {xs : List α} {ys : List β} (h : List.Forall₂ R xs ys)
    (hthird : ∀ x ∈ xs, ∀ y, R x y → ∃ z, S x z ∧ T y z) :
    ∃ zs, List.Forall₂ S xs zs ∧ List.Forall₂ T ys zs := by
  induction h with
  | nil => exact ⟨[], .nil, .nil⟩
  | cons hxy _ ih =>
      obtain ⟨hx, hxs⟩ := List.forall_mem_cons.1 hthird
      obtain ⟨z, hz, hyz⟩ := hx _ hxy
      obtain ⟨zs, hzs, hyzs⟩ := ih hxs
      exact ⟨z :: zs, .cons hz hzs, .cons hyz hyzs⟩

/-- It ends well exactly when each item on its own does. -/
theorem exists_mapM_eq_ok_iff {f : α → Except ε β} {xs : List α} :
    (∃ ys, xs.mapM f = .ok ys) ↔ ∀ x ∈ xs, ∃ y, f x = .ok y := by
  constructor
  · rintro ⟨ys, h⟩ x hx
    obtain ⟨y, _, hy⟩ := exists_of_mem_left (mapM_eq_ok_iff.1 h) hx
    exact ⟨y, hy⟩
  · intro h
    induction xs with
    | nil => exact ⟨[], rfl⟩
    | cons x xs ih =>
        obtain ⟨y, hy⟩ := h x List.mem_cons_self
        obtain ⟨ys, hys⟩ := ih fun z hz => h z (List.mem_cons_of_mem x hz)
        exact ⟨y :: ys, mapM_eq_ok_iff.2 (List.Forall₂.cons hy (mapM_eq_ok_iff.1 hys))⟩

/-- The fault of a list of steps is that of one of them. -/
theorem exists_of_mapM_eq_error {f : α → Except ε β} {xs : List α} {e : ε}
    (h : xs.mapM f = .error e) : ∃ x ∈ xs, f x = .error e := by
  induction xs with
  | nil => cases h
  | cons x xs ih =>
      rw [List.mapM_cons, bind_eq_error_iff] at h
      rcases h with hx | ⟨y, _, h⟩
      · exact ⟨x, List.mem_cons_self, hx⟩
      · rcases bind_eq_error_iff.1 h with hxs | ⟨ys, _, h⟩
        · obtain ⟨z, hz, he⟩ := ih hxs
          exact ⟨z, List.mem_cons_of_mem x hz, he⟩
        · cases h

/-- Where each step gives what a function says, the list of steps does. -/
theorem mapM_eq_ok_map {f : α → Except ε β} {y : α → β} {xs : List α}
    (h : ∀ x ∈ xs, f x = .ok (y x)) : xs.mapM f = .ok (xs.map y) :=
  mapM_eq_ok_iff.2 (List.forall₂_map_right_iff.2 (List.forall₂_same.2 h))

/-- It ends with the first fault that there is, when the faults of each item are
known. -/
theorem mapM_eq_error_iff {f : α → Except ε β} {faults : α → List ε} {xs : List α} {e : ε}
    (h : ∀ x ∈ xs, ∀ e, f x = .error e ↔ (faults x).head? = some e) :
    xs.mapM f = .error e ↔ (xs.flatMap faults).head? = some e := by
  induction xs with
  | nil => simp [pure, Except.pure]
  | cons x xs ih =>
      have ih := ih fun y hy => h y (List.mem_cons_of_mem x hy)
      rw [List.mapM_cons, bind_eq_error_iff, List.flatMap_cons, List.head?_append]
      cases hx : f x with
      | error e' =>
          rw [(h x List.mem_cons_self e').1 hx]
          simp
      | ok y =>
          have hnone : (faults x).head? = none := by
            apply Option.eq_none_iff_forall_ne_some.2
            intro e' he'
            rw [(h x List.mem_cons_self e').2 he'] at hx
            cases hx
          rw [hnone, Option.none_or, ← ih]
          simp [bind_eq_error_iff, pure, Except.pure]

/-- Steps that agree on the items of a list agree on the list. -/
theorem mapM_congr {f f' : α → Except ε β} {xs : List α} (h : ∀ x ∈ xs, f x = f' x) :
    xs.mapM f = xs.mapM f' := by
  induction xs with
  | nil => rfl
  | cons x xs ih =>
      rw [List.mapM_cons, List.mapM_cons, h x List.mem_cons_self,
        ih fun y hy => h y (List.mem_cons_of_mem x hy)]

/-- What every step keeps, a run of steps keeps. -/
theorem foldlM_keeps {f : β → α → Except ε β} {P : β → Prop}
    (hstep : ∀ b a b', P b → f b a = .ok b' → P b') {xs : List α} {b b' : β} (hb : P b)
    (h : xs.foldlM f b = .ok b') : P b' := by
  induction xs generalizing b with
  | nil => exact Except.ok.inj h ▸ hb
  | cons x xs ih =>
      rw [List.foldlM_cons] at h
      obtain ⟨c, hc, h⟩ := bind_eq_ok_iff.1 h
      exact ih (hstep b x c hb hc) h

/-- A fault of a run is a fault of one of its steps. -/
theorem exists_of_foldlM_eq_error {f : β → α → Except ε β} {xs : List α} {b : β} {e : ε}
    (h : xs.foldlM f b = .error e) : ∃ c, ∃ x ∈ xs, f c x = .error e := by
  induction xs generalizing b with
  | nil => cases h
  | cons x xs ih =>
      rw [List.foldlM_cons] at h
      rcases bind_eq_error_iff.1 h with h | ⟨c, _, h⟩
      · exact ⟨b, x, List.mem_cons_self, h⟩
      · obtain ⟨d, y, hy, hfault⟩ := ih h
        exact ⟨d, y, List.mem_cons_of_mem x hy, hfault⟩

/-- Two results that are the same fault, or values that go together. -/
inductive EndAlike (R : α → β → Prop) : Except ε α → Except ε β → Prop
  | error (e : ε) : EndAlike R (.error e) (.error e)
  | ok {a : α} {b : β} (h : R a b) : EndAlike R (.ok a) (.ok b)

theorem EndAlike.refl (x : Except ε α) : EndAlike Eq x x := by
  cases x with
  | error e => exact .error e
  | ok a => exact .ok rfl

theorem EndAlike.bind {α' β' : Type} {R : α → β → Prop} {S : α' → β' → Prop} {x : Except ε α}
    {y : Except ε β} {f : α → Except ε α'} {f' : β → Except ε β'} (h : EndAlike R x y)
    (hf : ∀ a b, R a b → EndAlike S (f a) (f' b)) : EndAlike S (x >>= f) (y >>= f') := by
  cases h with
  | error e => exact .error e
  | ok h => exact hf _ _ h

/-- Whether there is a value and it passes a test. -/
def okAnd (x : Except ε α) (test : α → Bool) : Bool :=
  match x with
  | .ok a => test a
  | .error _ => false

theorem exists_ok_of_okAnd {x : Except ε α} {P : α → Prop} [DecidablePred P]
    (h : okAnd x (fun a => decide (P a)) = true) : ∃ a, x = .ok a ∧ P a := by
  cases x with
  | error e => cases h
  | ok a => exact ⟨a, rfl, of_decide_eq_true h⟩

/-- A pair that passes a test, named by its two parts. -/
theorem exists_of_okAnd {x : Except ε (α × β)} {P : α → β → Prop}
    [∀ a b, Decidable (P a b)] (h : okAnd x (fun y => decide (P y.1 y.2)) = true) :
    ∃ a b, x = .ok (a, b) ∧ P a b := by
  cases x with
  | error e => cases h
  | ok y => exact ⟨y.1, y.2, rfl, of_decide_eq_true h⟩

end MuxFlow
