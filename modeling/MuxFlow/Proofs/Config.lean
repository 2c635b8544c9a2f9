import MuxFlow.Config
import MuxFlow.Proofs.Except

/-!
# What an option file says

An option file is laid over the defaults. Where it is a mapping that takes nothing over
from others, that can be said of each setting by itself: it has the value that its entry
gives it, and its default if there is no such entry or the entry has no value
(`Config.Stated`, `Config.stated_of_read`).

The entries are read one after another, and no two of them are about the same setting.
So when the reader comes to an entry, the setting still has its default
(`Config.said_of_foldlM`).
-/

namespace MuxFlow.Config

/-- The setting with a name has the value that the entries of a mapping give it. -/
structure Said {α : Type} (es : List (Yaml.Node × Yaml.Node)) (name : String)
    (read : Yaml.Node → Reading α) (default value : α) : Prop where
  given : ∀ e ∈ es, text? e.1 = some (some name) → ∃ x, read e.2 = some x ∧ value = x.getD default
  missing : (∀ e ∈ es, text? e.1 ≠ some (some name)) → value = default

/-- Options are the defaults with the entries of a mapping laid over them. -/
structure Stated (es : List (Yaml.Node × Yaml.Node)) (o : Options) : Prop where
  mode : Said es "mode" text? "only necessary" o.mode
  includeControl : Said es "include_control" flag? false o.includeControl
  workers : Said es "workers" count? 1 o.workers

theorem entry?_eq_some {p q : Progress} {e : Yaml.Node × Yaml.Node} (hmerge : isMerge e.1 = false)
    (htaken : p.taken = none) (h : entry? p e = some q) :
    text? e.1 = some none ∧ q = p ∨
      ∃ name o, text? e.1 = some (some name) ∧ name ∉ p.done ∧ set? p.options name e.2 = some o ∧
        q = { options := o, taken := none, done := name :: p.done } := by
  unfold entry? at h
  rw [if_neg (by simp [hmerge])] at h
  split at h
  · cases h
  · next hkey => exact Or.inl ⟨hkey, (Option.some.inj h).symm⟩
  · next name hkey =>
      simp only [htaken, Option.getD_none, List.contains_nil, Bool.false_eq_true, if_false] at h
      split at h
      · cases h
      · next hdone =>
          obtain ⟨o, ho, rfl⟩ := Option.map_eq_some_iff.1 h
          exact Or.inr ⟨name, o, hkey, by simpa using hdone, ho, rfl⟩

section
variable {α : Type} {name : String} {read : Yaml.Node → Reading α} (get : Options → α)
  (hset : ∀ o o' n v, set? o n v = some o' →
    if n = name then ∃ x, read v = some x ∧ get o' = x.getD (get o) else get o' = get o)
include hset

/-- Entries leave a setting alone that has been set before, and no other of them is about
it. -/
theorem foldlM_of_done {es : List (Yaml.Node × Yaml.Node)} {p q : Progress}
    (hmerge : ∀ e ∈ es, isMerge e.1 = false) (htaken : p.taken = none) (hdone : name ∈ p.done)
    (h : es.foldlM entry? p = some q) :
    get q.options = get p.options ∧ ∀ e ∈ es, text? e.1 ≠ some (some name) := by
  induction es generalizing p with
  | nil =>
      obtain rfl := Option.some.inj h
      exact ⟨rfl, by simp⟩
  | cons e es ih =>
      rw [List.foldlM_cons] at h
      obtain ⟨p', hp', htail⟩ := Option.bind_eq_some_iff.1 h
      rw [List.forall_mem_cons] at hmerge ⊢
      obtain ⟨hkey, rfl⟩ | ⟨n, o, hkey, hn, ho, rfl⟩ := entry?_eq_some hmerge.1 htaken hp'
      · obtain ⟨hget, hrest⟩ := ih hmerge.2 htaken hdone htail
        exact ⟨hget, by simp [hkey], hrest⟩
      · obtain ⟨hget, hrest⟩ := ih hmerge.2 rfl (List.mem_cons_of_mem n hdone) htail
        have hne : n ≠ name := fun heq => hn (heq ▸ hdone)
        have hkept := hset _ _ _ _ ho
        rw [if_neg hne] at hkept
        exact ⟨hget.trans hkept, by simpa [hkey] using hne, hrest⟩

theorem said_of_foldlM {es : List (Yaml.Node × Yaml.Node)} {p q : Progress}
    (hmerge : ∀ e ∈ es, isMerge e.1 = false) (htaken : p.taken = none) (hdone : name ∉ p.done)
    (h : es.foldlM entry? p = some q) : Said es name read (get p.options) (get q.options) := by
  induction es generalizing p with
  | nil =>
      obtain rfl := Option.some.inj h
      exact ⟨by simp, fun _ => rfl⟩
  | cons e es ih =>
      rw [List.foldlM_cons] at h
      obtain ⟨p', hp', htail⟩ := Option.bind_eq_some_iff.1 h
      rw [List.forall_mem_cons] at hmerge
      obtain ⟨hkey, rfl⟩ | ⟨n, o, hkey, hn, ho, rfl⟩ := entry?_eq_some hmerge.1 htaken hp'
      · obtain ⟨hgiven, hmissing⟩ := ih hmerge.2 htaken hdone htail
        constructor
        · exact List.forall_mem_cons.2 ⟨by simp [hkey], hgiven⟩
        · exact fun hnone => hmissing (List.forall_mem_cons.1 hnone).2
      · have hkept := hset _ _ _ _ ho
        by_cases hname : n = name
        · -- the entry of the setting; the others are about other settings
          rw [if_pos hname] at hkept
          obtain ⟨x, hx, hget⟩ := hkept
          obtain ⟨hlater, hothers⟩ :=
            foldlM_of_done get hset hmerge.2 rfl (hname ▸ List.mem_cons_self) htail
          constructor
          · refine List.forall_mem_cons.2 ⟨fun _ => ⟨x, hx, hlater.trans hget⟩, ?_⟩
            exact fun e' he' hkey' => absurd hkey' (hothers e' he')
          · exact fun hnone => absurd (hname ▸ hkey) (hnone e List.mem_cons_self)
        · rw [if_neg hname] at hkept
          have hdone' : name ∉ n :: p.done := by simp [hdone, Ne.symm hname]
          obtain ⟨hgiven, hmissing⟩ := ih hmerge.2 rfl hdone' htail
          simp only [hkept] at hgiven hmissing
          constructor
          · exact List.forall_mem_cons.2 ⟨by simp [hkey, hname], hgiven⟩
          · exact fun hnone => hmissing (List.forall_mem_cons.1 hnone).2

end

theorem takeOver?_eq {es : List (Yaml.Node × Yaml.Node)} (hmerge : ∀ e ∈ es, isMerge e.1 = false)
    (p : Progress) : takeOver? p es = some p := by
  induction es with
  | nil => rw [takeOver?]
  | cons e es ih =>
      rw [List.forall_mem_cons] at hmerge
      rw [takeOver?, if_neg (by simp [hmerge.1]), ih hmerge.2]

theorem set?_mode {o o' : Options} {name : String} {v : Yaml.Node} (h : set? o name v = some o') :
    if name = "mode" then ∃ x, text? v = some x ∧ o'.mode = x.getD o.mode
    else o'.mode = o.mode := by
  unfold set? at h
  split at h
  · obtain ⟨x, hx, rfl⟩ := Option.map_eq_some_iff.1 h
    exact ⟨x, hx, rfl⟩
  · obtain ⟨x, _, rfl⟩ := Option.map_eq_some_iff.1 h
    rfl
  · obtain ⟨x, _, rfl⟩ := Option.map_eq_some_iff.1 h
    rfl
  · cases h

theorem set?_includeControl {o o' : Options} {name : String} {v : Yaml.Node}
    (h : set? o name v = some o') :
    if name = "include_control" then
      ∃ x, flag? v = some x ∧ o'.includeControl = x.getD o.includeControl
    else o'.includeControl = o.includeControl := by
  unfold set? at h
  split at h
  · obtain ⟨x, _, rfl⟩ := Option.map_eq_some_iff.1 h
    rfl
  · obtain ⟨x, hx, rfl⟩ := Option.map_eq_some_iff.1 h
    exact ⟨x, hx, rfl⟩
  · obtain ⟨x, _, rfl⟩ := Option.map_eq_some_iff.1 h
    rfl
  · cases h

theorem set?_workers {o o' : Options} {name : String} {v : Yaml.Node}
    (h : set? o name v = some o') :
    if name = "workers" then ∃ x, count? v = some x ∧ o'.workers = x.getD o.workers
    else o'.workers = o.workers := by
  unfold set? at h
  split at h
  · obtain ⟨x, _, rfl⟩ := Option.map_eq_some_iff.1 h
    rfl
  · obtain ⟨x, _, rfl⟩ := Option.map_eq_some_iff.1 h
    rfl
  · obtain ⟨x, hx, rfl⟩ := Option.map_eq_some_iff.1 h
    exact ⟨x, hx, rfl⟩
  · cases h

/-- The options of a file that is a mapping, and takes nothing over from others, are the
defaults with its entries laid over them. -/
theorem stated_of_read {source : Text.Source} {o : Options}
    {es : List (Yaml.Node × Yaml.Node)} (h : read source = .ok o)
    (hdocument : Yaml.Node.read? source = some (some (.mapping es)))
    (hmerge : ∀ e ∈ es, isMerge e.1 = false) : Stated es o := by
  have hnode : ofNode? .default (.mapping es) = some o := by
    rw [read, hdocument] at h
    cases hn : ofNode? .default (.mapping es) with
    | none =>
        simp only [hn] at h
        cases h
    | some o' =>
        simp only [hn, ok_bind] at h
        obtain ⟨_, _, h⟩ := bind_eq_ok_iff.1 h
        rw [Except.ok.inj h]
  rw [ofNode?, fill?] at hnode
  split at hnode
  · simp only [takeOver?_eq hmerge, Option.map_some] at hnode
    obtain ⟨r, hr, rfl⟩ := Option.map_eq_some_iff.1 hnode
    obtain ⟨q, hq, hqr⟩ := Option.bind_eq_some_iff.1 hr
    obtain rfl := Option.some.inj hqr
    constructor
    · exact said_of_foldlM Options.mode (fun _ _ _ _ => set?_mode) hmerge rfl (by simp) hq
    · exact said_of_foldlM Options.includeControl (fun _ _ _ _ => set?_includeControl)
        hmerge rfl (by simp) hq
    · exact said_of_foldlM Options.workers (fun _ _ _ _ => set?_workers) hmerge rfl
        (by simp) hq
  · cases hnode

end MuxFlow.Config
