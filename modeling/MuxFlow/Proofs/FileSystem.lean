import MuxFlow.FileSystem
import MuxFlow.Proofs.Except

/-!
# What is written is read

A file is written at the place that its name leads to, and afterwards the name still
leads there (`FileSystem.follow_put`). The folders on the way are at other places than
the file, since there is no going through a file, and a folder does not go away when
something is put into it. So what is written under a name is what is read under it
(`FileSystem.read_put`), also by a name that leads through the folder that the
file is in, or that had a file before.
-/

namespace MuxFlow

namespace FileSystem

variable {fs : FileSystem} {p q : Place} {name : String} {content : Text.Source}

/-- A file is written where the name leads, unless there is a folder. -/
theorem resolve_of_target (h : fs.target name = .ok p) :
    fs.resolve name = .ok p ∧ ¬((fs.get? p).isNone ∧ fs.isFolder p) := by
  unfold target at h
  split at h
  · obtain ⟨_, _, h⟩ := bind_eq_ok_iff.1 h
    cases h
  · obtain ⟨q, hq, h⟩ := bind_eq_ok_iff.1 h
    split at h
    · cases h
    · next hplace =>
        obtain rfl := Except.ok.inj h
        exact ⟨hq, hplace⟩

/-- Putting a file somewhere takes no folder away. -/
theorem isFolder_put (h : fs.isFolder q = true) : (fs.put p content).isFolder q = true := by
  simp only [isFolder, Bool.or_eq_true] at h ⊢
  rcases h with h | h
  · exact .inl h
  · right
    obtain ⟨f, hf, hq⟩ := List.any_eq_true.1 h
    by_cases hp : f.1 = p
    · exact List.any_eq_true.2 ⟨(p, content), List.mem_cons_self, hp ▸ hq⟩
    · exact List.any_eq_true.2 ⟨f, List.mem_cons_of_mem _ (by simpa using ⟨hf, hp⟩), hq⟩

/-- A way through folders stays open when a file is put where no folder is. -/
theorem follow_put (hp : ¬((fs.get? p).isNone ∧ fs.isFolder p)) {here : Place}
    {names : List String} (h : fs.follow here names = .ok q) :
    (fs.put p content).follow here names = .ok q := by
  induction names generalizing here with
  | nil => exact h
  | cons part rest ih =>
      rw [follow] at h ⊢
      split at h
      · cases h
      · next hnone =>
          split at h
          · next hfolder =>
              have hne : here ≠ p := by
                rintro rfl
                exact hp ⟨by simpa using hnone, hfolder⟩
              rw [get?_put_of_ne fs content hne, if_neg hnone, if_pos (isFolder_put hfolder)]
              exact ih h
          · cases h

/-- What is put where writing to a name puts a file is what the name stands for. -/
theorem read_put (h : fs.target name = .ok p) :
    (fs.put p content).read name = .ok content := by
  obtain ⟨hresolve, hplace⟩ := resolve_of_target h
  have hagain : (fs.put p content).resolve name = .ok p := by
    unfold resolve at hresolve ⊢
    split at hresolve
    · cases hresolve
    · next hname =>
        rw [if_neg hname]
        exact follow_put hplace hresolve
  rw [read, hagain, ok_bind, get?_put_self]

end FileSystem

end MuxFlow
