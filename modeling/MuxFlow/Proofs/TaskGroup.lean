import MuxFlow.Proofs.Except
import MuxFlow.TaskGroup

/-!
# What comes out of tasks

As long as a task may be under way at all, the group can come to an end from wherever it
is: some turn lowers `TaskGroup.remaining` (`TaskGroup.exists_wait`). Whatever the
schedule and whatever the variables of the loop, a failure that comes out is that of a
job and not the cancellation, and a result that comes out is that of a job or the blank
(`TaskGroup.Consistent`).

More can be said when each task finds its own job, because every round has variables of
its own or because there is one job at most: then what comes out are the results of
doing one job after another, or the failure of a job
(`TaskGroup.Steady.outcome_of_wait`).

Nothing of the sort holds when several rounds share their variables. If the loop enters
its second round before the first task has done its job, no task ever writes at the
first place (`TaskGroup.Lost`). So where all jobs succeed, every schedule leads to the
results of doing one job after another exactly when each task finds its own job
(`TaskGroup.forall_wait_iff_steady`).
-/

namespace MuxFlow

namespace TaskGroup

variable {α β ε : Type}

deriving instance DecidableEq for Task

namespace Task

theorem turns_eq_zero_iff {t : Task β ε} : t.turns = 0 ↔ t = ended := by
  cases t <;> simp [turns]

theorem turnsOf_concat (ts : List (Task β ε)) (t : Task β ε) :
    turnsOf (ts ++ [t]) = turnsOf ts + t.turns := by
  induction ts with
  | nil => simp [turnsOf]
  | cons t' ts ih => simp [turnsOf, ih, Nat.add_assoc]

theorem turnsOf_set_lt {ts : List (Task β ε)} {i : Nat} {t t' : Task β ε} (h : ts[i]? = some t)
    (hlt : t'.turns < t.turns) : turnsOf (ts.set i t') < turnsOf ts := by
  induction ts generalizing i with
  | nil => cases h
  | cons t₀ ts ih =>
      cases i with
      | zero =>
          obtain rfl := Option.some.inj h
          exact Nat.add_lt_add_right hlt _
      | succ i => exact Nat.add_lt_add_left (ih h) _

end Task

variable (G : TaskGroup α β ε) {s : State β ε} {i : Nat} {job : α}

theorem run_append (s : State β ε) (turns more : List Turn) :
    G.run s (turns ++ more) = G.run (G.run s turns) more :=
  List.foldl_append

theorem after_append (turns more : List Turn) :
    G.after (turns ++ more) = G.run (G.after turns) more :=
  G.run_append G.start turns more

variable {G}

/-- What every turn keeps, a schedule keeps. -/
theorem run_keeps {P : State β ε → Prop} (hstep : ∀ s turn, P s → P (G.step s turn)) (h : P s)
    (turns : List Turn) : P (G.run s turns) := by
  induction turns generalizing s with
  | nil => exact h
  | cons turn turns ih => exact ih (hstep s turn h)

/-! ## Every schedule can be brought to an end -/

variable (G)

/-- A move changes no task but its own, and that one comes closer to its end. -/
theorem move_tasks (s : State β ε) (i : Nat) (t : Task β ε) :
    (G.move s i t).round = s.round ∧
      ∃ t', (G.move s i t).tasks = s.tasks.set i t' ∧ t'.turns ≤ t.turns - 1 := by
  cases t with
  | ready =>
      refine ⟨rfl, _, rfl, ?_⟩
      cases s.cancelled <;> simp [Task.turns]
  | cleared =>
      rw [move]
      cases G.jobs[G.index s i]? with
      | none => exact ⟨rfl, _, rfl, by simp [Task.turns]⟩
      | some job => exact ⟨rfl, _, rfl, by simp [Task.turns]⟩
  | done r =>
      cases r with
      | ok b => exact ⟨rfl, _, rfl, by simp [Task.turns]⟩
      | error e =>
          rw [move, State.fail]
          cases s.failure with
          | none => exact ⟨rfl, _, rfl, by simp [Task.turns]⟩
          | some e' => exact ⟨rfl, _, rfl, by simp [Task.turns]⟩
  | kept => exact ⟨rfl, _, rfl, by simp [Task.turns]⟩
  | ended => exact ⟨rfl, _, rfl, by simp [Task.turns]⟩

theorem next?_eq_none_iff :
    G.next? s = none ↔ G.jobs.length ≤ s.tasks.length ∧ ∀ t ∈ s.tasks, t.turns = 0 := by
  unfold next?
  cases hi : s.tasks.findIdx? fun t => t.turns ≠ 0 with
  | none =>
      have hended : ∀ t ∈ s.tasks, t.turns = 0 := by simpa using List.findIdx?_eq_none_iff.1 hi
      by_cases hlt : s.tasks.length < G.jobs.length
      · simp only [if_pos hlt, reduceCtorEq, false_iff]
        rintro ⟨hle, _⟩
        omega
      · simp only [if_neg hlt, true_iff]
        exact ⟨by omega, hended⟩
  | some i =>
      obtain ⟨hlt, hturns, _⟩ := List.findIdx?_eq_some_iff_getElem.1 hi
      have hne : s.tasks[i].turns ≠ 0 := by simpa using hturns
      simp only [reduceCtorEq, false_iff]
      rintro ⟨_, hended⟩
      exact hne (hended _ (List.getElem_mem hlt))

theorem remaining_step_lt (hlimit : 0 < G.limit) {turn : Turn} (h : G.next? s = some turn) :
    G.remaining (G.step s turn) < G.remaining s := by
  unfold next? at h
  cases hi : s.tasks.findIdx? fun t => t.turns ≠ 0 with
  | some i =>
      rw [hi] at h
      obtain rfl := Option.some.inj h
      obtain ⟨hlt, hturns, _⟩ := List.findIdx?_eq_some_iff_getElem.1 hi
      have hne : s.tasks[i].turns ≠ 0 := by simpa using hturns
      obtain ⟨hround, t, htasks, ht⟩ := G.move_tasks s i s.tasks[i]
      have hless : t.turns < s.tasks[i].turns := by omega
      have hturnsOf := Task.turnsOf_set_lt (List.getElem?_eq_getElem hlt) hless
      simp only [step, List.getElem?_eq_getElem hlt, remaining, hround, htasks, List.length_set]
      omega
  | none =>
      have hended : ∀ t ∈ s.tasks, t.turns = 0 := by simpa using List.findIdx?_eq_none_iff.1 hi
      simp only [hi] at h
      split at h
      · next hlt =>
          obtain rfl := Option.some.inj h
          simp only [step, advance, if_pos hlt]
          split
          · next hround =>
              simp only [remaining]
              omega
          · have hfree : s.underWay < G.limit := by
              have hnone : s.underWay = 0 := by simpa [State.underWay] using hended
              omega
            rw [if_pos hfree]
            simp only [remaining, List.length_append, List.length_singleton, Task.turnsOf_concat,
              Task.turns]
            omega
      · cases h

theorem next?_finish (hlimit : 0 < G.limit) {n : Nat} (h : G.remaining s ≤ n) :
    G.next? (G.finish n s) = none := by
  induction n generalizing s with
  | zero =>
      rw [finish]
      by_contra hne
      obtain ⟨turn, hturn⟩ := Option.ne_none_iff_exists'.1 hne
      have hlt := G.remaining_step_lt hlimit hturn
      omega
  | succ n ih =>
      rw [finish]
      cases hnext : G.next? s with
      | none => exact hnext
      | some turn =>
          have hlt := G.remaining_step_lt hlimit hnext
          exact ih (by omega)

/-- Coming to an end is a schedule like any other. -/
theorem exists_finish_eq_run (n : Nat) (s : State β ε) : ∃ more, G.finish n s = G.run s more := by
  induction n generalizing s with
  | zero => exact ⟨[], rfl⟩
  | succ n ih =>
      rw [finish]
      cases G.next? s with
      | none => exact ⟨[], rfl⟩
      | some turn =>
          obtain ⟨more, hmore⟩ := ih (G.step s turn)
          exact ⟨turn :: more, hmore⟩

theorem exists_outcome_eq (turns : List Turn) :
    ∃ more, G.outcome turns = (G.after (turns ++ more)).result := by
  obtain ⟨more, hmore⟩ := G.exists_finish_eq_run (G.remaining (G.after turns)) (G.after turns)
  refine ⟨more, ?_⟩
  rw [after_append, ← hmore]
  rfl

/-! ## What every schedule keeps -/

/-- What a task can have come to, given the failure that was kept. -/
inductive Possible (failure : Option ε) : Task β ε → Prop
  | ready : Possible failure .ready
  | cleared : Possible failure .cleared
  | worked {job : α} (h : job ∈ G.jobs) : Possible failure (.done (G.work job))
  | stopped (e : ε) (h : failure ≠ none) : Possible failure (.done (.error e))
  | kept (h : failure ≠ none) : Possible failure .kept
  | ended : Possible failure .ended

/-- What every schedule keeps. The cancellation is not among the failures that are kept,
because the group is cancelled only after a failure was kept. -/
structure Consistent (s : State β ε) : Prop where
  tasks_length : s.tasks.length ≤ G.jobs.length
  round_lt : G.jobs ≠ [] → s.round < G.jobs.length
  results_length : s.results.length = G.jobs.length
  tasks : ∀ t ∈ s.tasks, G.Possible s.failure t
  results : ∀ b ∈ s.results, b = G.blank ∨ ∃ job ∈ G.jobs, G.work job = .ok b
  failure : ∀ e, s.failure = some e → ∃ job ∈ G.jobs, G.work job = .error e
  cancelled : s.cancelled = true → s.failure ≠ none

theorem consistent_start : G.Consistent G.start where
  tasks_length := Nat.zero_le _
  round_lt h := List.length_pos_of_ne_nil h
  results_length := List.length_replicate
  tasks t ht := by cases ht
  results b hb := Or.inl (List.eq_of_mem_replicate hb)
  failure e he := by cases he
  cancelled h := by cases h

variable {G}

theorem Possible.mono {failure failure' : Option ε} {t : Task β ε} (h : G.Possible failure t)
    (hmono : failure ≠ none → failure' ≠ none) : G.Possible failure' t := by
  cases h with
  | ready => exact .ready
  | cleared => exact .cleared
  | worked hjob => exact .worked hjob
  | stopped e hf => exact .stopped e (hmono hf)
  | kept hf => exact .kept (hmono hf)
  | ended => exact .ended

theorem Possible.exists_work_eq_ok {failure : Option ε} {b : β}
    (h : G.Possible failure (.done (.ok b))) : ∃ job ∈ G.jobs, G.work job = .ok b := by
  generalize ht : Task.done (.ok b) = t at h
  cases h with
  | worked hjob => exact ⟨_, hjob, (Task.done.inj ht).symm⟩
  | ready => cases ht
  | cleared => cases ht
  | stopped e hf => cases ht
  | kept hf => cases ht
  | ended => cases ht

theorem Possible.exists_work_eq_error {e : ε}
    (h : G.Possible none (.done (.error e) : Task β ε)) :
    ∃ job ∈ G.jobs, G.work job = .error e := by
  generalize ht : Task.done (.error e) = t at h
  cases h with
  | worked hjob => exact ⟨_, hjob, (Task.done.inj ht).symm⟩
  | stopped e' hf => exact absurd rfl hf
  | ready => cases ht
  | cleared => cases ht
  | kept hf => cases ht
  | ended => cases ht

theorem Possible.failure_ne_none {failure : Option ε}
    (h : G.Possible failure (.kept : Task β ε)) : failure ≠ none := by
  cases h with
  | kept hf => exact hf

/-- A task that comes further is to be looked at by itself, as long as no failure is
forgotten. -/
theorem Consistent.put (h : G.Consistent s) (i : Nat) {t : Task β ε}
    (ht : G.Possible s.failure t) : G.Consistent (s.put i t) where
  tasks_length := by simpa [State.put] using h.tasks_length
  round_lt := h.round_lt
  results_length := h.results_length
  tasks t' ht' := by
    rcases List.mem_or_eq_of_mem_set ht' with ht' | rfl
    · exact h.tasks t' ht'
    · exact ht
  results := h.results
  failure := h.failure
  cancelled := h.cancelled

theorem Consistent.move (h : G.Consistent s) (i : Nat) {t : Task β ε} (ht : t ∈ s.tasks) :
    G.Consistent (G.move s i t) := by
  have hpossible := h.tasks t ht
  cases t with
  | ready =>
      apply h.put
      cases hc : s.cancelled with
      | false => exact .cleared
      | true => exact .stopped _ (h.cancelled hc)
  | cleared =>
      rw [TaskGroup.move]
      cases hjob : G.jobs[G.index s i]? with
      | none => exact h.put i .ended
      | some job => exact h.put i (.worked (List.mem_of_getElem? hjob))
  | done r =>
      cases r with
      | ok b =>
          have hput := h.put i (t := .ended) .ended
          refine { hput with results_length := ?_, results := ?_ }
          · exact List.length_set.trans h.results_length
          · intro b' hb'
            rcases List.mem_or_eq_of_mem_set hb' with hb' | rfl
            · exact h.results b' hb'
            · exact Or.inr hpossible.exists_work_eq_ok
      | error e =>
          rw [TaskGroup.move, State.fail]
          cases hf : s.failure with
          | some e' => exact h.put i .ended
          | none =>
              rw [hf] at hpossible
              -- the first failure: it is that of a job, since nobody is stopped before it
              have hmono : s.failure ≠ none → some e ≠ none := fun _ => Option.some_ne_none e
              constructor
              · simpa [State.put] using h.tasks_length
              · exact h.round_lt
              · exact h.results_length
              · intro t' ht'
                rcases List.mem_or_eq_of_mem_set ht' with ht' | rfl
                · exact (h.tasks t' ht').mono hmono
                · exact .kept (Option.some_ne_none e)
              · exact h.results
              · rintro e' he'
                obtain rfl := Option.some.inj he'
                exact hpossible.exists_work_eq_error
              · exact fun _ => Option.some_ne_none e
  | kept =>
      exact { h.put i (t := .ended) .ended with cancelled := fun _ => hpossible.failure_ne_none }
  | ended => exact h.put i .ended

theorem Consistent.advance (h : G.Consistent s) : G.Consistent (G.advance s) := by
  unfold TaskGroup.advance
  split
  · next hlt =>
      split
      · exact { h with round_lt := fun _ => hlt }
      · split
        · refine { h with tasks_length := ?_, tasks := ?_ }
          · rw [List.length_append]
            exact hlt
          · intro t ht
            rcases List.mem_append.1 ht with ht | ht
            · exact h.tasks t ht
            · rw [List.mem_singleton.1 ht]
              exact .ready
        · exact h
  · exact h

theorem Consistent.step (h : G.Consistent s) (turn : Turn) : G.Consistent (G.step s turn) := by
  cases turn with
  | loop => exact h.advance
  | task i =>
      rw [TaskGroup.step]
      cases ht : s.tasks[i]? with
      | none => exact h
      | some t => exact h.move i (List.mem_of_getElem? ht)

variable (G)

theorem consistent_after (turns : List Turn) : G.Consistent (G.after turns) :=
  run_keeps (fun _ turn h => h.step turn) G.consistent_start turns

/-- Waiting returns something exactly when nobody has anything left to do. -/
theorem wait_eq_some_iff {x : Except ε (List β)} (h : G.Consistent s) :
    G.wait s = some x ↔ G.next? s = none ∧ s.result = x := by
  have hlength := h.tasks_length
  rw [next?_eq_none_iff, wait]
  split
  · next hend =>
      rw [Option.some.injEq, and_iff_right]
      exact ⟨Nat.le_of_eq hend.1.symm, hend.2⟩
  · next hend =>
      simp only [reduceCtorEq, false_iff, not_and]
      intro hnext
      exact absurd ⟨by omega, hnext.2⟩ hend

/-- No schedule gets stuck. -/
theorem exists_wait (hlimit : 0 < G.limit) (turns : List Turn) :
    ∃ more, G.wait (G.after (turns ++ more)) = some (G.outcome turns) := by
  obtain ⟨more, hmore⟩ := G.exists_finish_eq_run (G.remaining (G.after turns)) (G.after turns)
  refine ⟨more, (G.wait_eq_some_iff (G.consistent_after _)).2 ?_⟩
  rw [after_append, ← hmore]
  exact ⟨G.next?_finish hlimit (Nat.le_refl _), rfl⟩

theorem outcome_eq_of_wait {turns : List Turn} {x : Except ε (List β)}
    (h : G.wait (G.after turns) = some x) : G.outcome turns = x := by
  obtain ⟨hnext, hresult⟩ := (G.wait_eq_some_iff (G.consistent_after turns)).1 h
  rw [outcome]
  cases G.remaining (G.after turns) with
  | zero => exact hresult
  | succ n => simpa only [finish, hnext] using hresult

theorem of_outcome_eq_ok {turns : List Turn} {rs : List β} (h : G.outcome turns = .ok rs) :
    rs.length = G.jobs.length ∧
      ∀ b ∈ rs, b = G.blank ∨ ∃ job ∈ G.jobs, G.work job = .ok b := by
  obtain ⟨more, hmore⟩ := G.exists_outcome_eq turns
  have hc := G.consistent_after (turns ++ more)
  rw [h, State.result] at hmore
  cases hf : (G.after (turns ++ more)).failure with
  | some e =>
      rw [hf] at hmore
      cases hmore
  | none =>
      rw [hf] at hmore
      rw [Except.ok.inj hmore]
      exact ⟨hc.results_length, hc.results⟩

theorem of_outcome_eq_error {turns : List Turn} {e : ε} (h : G.outcome turns = .error e) :
    ∃ job ∈ G.jobs, G.work job = .error e := by
  obtain ⟨more, hmore⟩ := G.exists_outcome_eq turns
  rw [h, State.result] at hmore
  cases hf : (G.after (turns ++ more)).failure with
  | some e' =>
      rw [hf] at hmore
      rw [Except.error.inj hmore]
      exact (G.consistent_after _).failure e' hf
  | none =>
      rw [hf] at hmore
      cases hmore

/-! ## Where each task finds its own job -/

/-- Each task finds the job of the round in which it was started, whatever the schedule. -/
def Steady : Prop := G.loopVars = .own ∨ G.jobs.length ≤ 1

instance : Decidable G.Steady := inferInstanceAs (Decidable (_ ∨ _))

/-- What a task that finds its own job has come to while there is no failure, given what
stands at the place of the result. -/
inductive Settled (job : α) (result : Option β) : Task β ε → Prop
  | ready : Settled job result .ready
  | cleared : Settled job result .cleared
  | worked : Settled job result (.done (G.work job))
  | stored {b : β} (hwork : G.work job = .ok b) (h : result = some b) : Settled job result .ended

/-- While there is no failure, every task is about its own job. -/
def Exact (s : State β ε) : Prop :=
  s.failure = none → ∀ (i : Nat) job t, G.jobs[i]? = some job → s.tasks[i]? = some t →
    G.Settled job s.results[i]? t

variable {G}

theorem Settled.work_eq {result : Option β} {r : Except ε β}
    (h : G.Settled job result (.done r)) : G.work job = r := by
  generalize ht : Task.done r = t at h
  cases h with
  | worked => exact (Task.done.inj ht).symm
  | ready => cases ht
  | cleared => cases ht
  | stored hwork hresult => cases ht

theorem Steady.index_eq (hs : G.Steady) (h : G.Consistent s) (hi : i < s.tasks.length) :
    G.index s i = i := by
  have hlength := h.tasks_length
  rcases hs with hown | hone
  · rw [index, hown]
  · have hround := h.round_lt (List.ne_nil_of_length_pos (by omega))
    rw [index]
    cases G.loopVars with
    | own => rfl
    | shared =>
        change s.round = i
        omega

/-- The other tasks do not notice when one comes further, as long as nothing is written
at their places. -/
theorem Exact.replace (h : G.Exact s) (hjob : G.jobs[i]? = some job) {s' : State β ε}
    {t : Task β ε} (htasks : s'.tasks = s.tasks.set i t)
    (hresults : ∀ j, i ≠ j → s'.results[j]? = s.results[j]?)
    (hfailure : s'.failure = none → s.failure = none)
    (ht : s'.failure = none → G.Settled job s'.results[i]? t) : G.Exact s' := by
  intro hnone j job' t' hjob' ht'
  rw [htasks] at ht'
  by_cases hij : i = j
  · subst hij
    obtain ⟨hlt, hget⟩ := List.getElem?_eq_some_iff.1 ht'
    rw [List.getElem_set_self] at hget
    rw [hjob] at hjob'
    exact hget ▸ Option.some.inj hjob' ▸ ht hnone
  · rw [List.getElem?_set_ne hij] at ht'
    rw [hresults j hij]
    exact h (hfailure hnone) j job' t' hjob' ht'

theorem Exact.put (h : G.Exact s) (hjob : G.jobs[i]? = some job) {t : Task β ε}
    (ht : s.failure = none → G.Settled job s.results[i]? t) : G.Exact (s.put i t) :=
  h.replace hjob rfl (fun _ _ => rfl) id ht

theorem exact_of_failure (h : s.failure ≠ none) : G.Exact s := fun hnone => absurd hnone h

theorem Exact.move (hs : G.Steady) (hc : G.Consistent s) (h : G.Exact s) {t : Task β ε}
    (ht : s.tasks[i]? = some t) : G.Exact (G.move s i t) := by
  obtain ⟨hlt, -⟩ := List.getElem?_eq_some_iff.1 ht
  have hindex := hs.index_eq hc hlt
  have hi : i < G.jobs.length := Nat.lt_of_lt_of_le hlt hc.tasks_length
  have hjob : G.jobs[i]? = some G.jobs[i] := List.getElem?_eq_getElem hi
  cases t with
  | ready =>
      apply h.put hjob
      intro hnone
      have hrunning : s.cancelled = false := by
        by_contra hne
        exact hc.cancelled (by simpa using hne) hnone
      rw [hrunning]
      exact .cleared
  | cleared =>
      rw [TaskGroup.move, hindex, hjob]
      exact h.put hjob fun _ => .worked
  | done r =>
      cases r with
      | ok b =>
          rw [TaskGroup.move, hindex]
          refine h.replace hjob rfl (fun j hij => List.getElem?_set_ne hij) id ?_
          intro hnone
          have hwork : G.work G.jobs[i] = .ok b := (h hnone i _ _ hjob ht).work_eq
          exact .stored hwork (List.getElem?_set_self (hc.results_length ▸ hi))
      | error e =>
          rw [TaskGroup.move, State.fail]
          apply exact_of_failure
          cases hf : s.failure with
          | none => exact Option.some_ne_none e
          | some e' => simp [State.put, hf]
  | kept => exact exact_of_failure (hc.tasks _ (List.mem_of_getElem? ht)).failure_ne_none
  | ended => exact h.put hjob fun hnone => h hnone i _ _ hjob ht

theorem Exact.advance (h : G.Exact s) : G.Exact (G.advance s) := by
  unfold TaskGroup.advance
  split
  · split
    · exact h
    · split
      · intro hnone i job t hjob ht
        rw [List.getElem?_append] at ht
        split at ht
        · exact h hnone i job t hjob ht
        · rw [List.mem_singleton.1 (List.mem_of_getElem? ht)]
          exact .ready
      · exact h
  · exact h

theorem Exact.step (hs : G.Steady) (hc : G.Consistent s) (h : G.Exact s) (turn : Turn) :
    G.Exact (G.step s turn) := by
  cases turn with
  | loop => exact h.advance
  | task i =>
      rw [TaskGroup.step]
      cases ht : s.tasks[i]? with
      | none => exact h
      | some t => exact h.move hs hc ht

theorem Steady.exact_after (hs : G.Steady) (turns : List Turn) : G.Exact (G.after turns) := by
  have hstart : G.Consistent G.start ∧ G.Exact G.start :=
    ⟨G.consistent_start, fun _ i job t _ ht => by cases ht⟩
  exact (run_keeps (P := fun s => G.Consistent s ∧ G.Exact s)
    (fun _ turn h => ⟨h.1.step turn, h.2.step hs h.1 turn⟩) hstart turns).2

theorem Exact.mapM_eq (h : G.Exact s) (hc : G.Consistent s) (hend : G.next? s = none)
    (hnone : s.failure = none) : G.jobs.mapM G.work = .ok s.results := by
  obtain ⟨hlength, hended⟩ := G.next?_eq_none_iff.1 hend
  apply mapM_eq_ok_iff.2
  apply List.forall₂_iff_get.2
  refine ⟨hc.results_length.symm, ?_⟩
  intro i hi hr
  have hti : i < s.tasks.length := Nat.lt_of_lt_of_le hi hlength
  have ht : s.tasks[i]? = some .ended := by
    rw [List.getElem?_eq_getElem hti, Task.turns_eq_zero_iff.1 (hended _ (List.getElem_mem hti))]
  cases h hnone i _ _ (List.getElem?_eq_getElem hi) ht with
  | stored hwork hresult =>
      rw [List.getElem?_eq_getElem hr] at hresult
      exact hwork.trans (congrArg Except.ok (Option.some.inj hresult).symm)

variable (G)

/-- What may come out: the results of doing one job after another, or the failure of a
job. -/
inductive Outcome : Except ε (List β) → Prop
  | results {rs : List β} (h : G.jobs.mapM G.work = .ok rs) : Outcome (.ok rs)
  | failure {job : α} {e : ε} (hjob : job ∈ G.jobs) (h : G.work job = .error e) :
      Outcome (.error e)

variable {G}

theorem Steady.outcome_of_wait (hs : G.Steady) {turns : List Turn} {x : Except ε (List β)}
    (h : G.wait (G.after turns) = some x) : G.Outcome x := by
  have hc := G.consistent_after turns
  obtain ⟨hend, rfl⟩ := (G.wait_eq_some_iff hc).1 h
  unfold State.result
  cases hf : (G.after turns).failure with
  | none => exact .results ((hs.exact_after turns).mapM_eq hc hend hf)
  | some e =>
      obtain ⟨job, hjob, hwork⟩ := hc.failure e hf
      exact .failure hjob hwork

theorem Outcome.eq_ok_iff {x : Except ε (List β)} (h : G.Outcome x) {rs : List β} :
    x = .ok rs ↔ G.jobs.mapM G.work = .ok rs := by
  cases h with
  | results h => rw [h]
  | failure hjob hwork =>
      simp only [reduceCtorEq, false_iff]
      intro hall
      obtain ⟨b, hb⟩ := exists_mapM_eq_ok_iff.1 ⟨rs, hall⟩ _ hjob
      cases hwork.symm.trans hb

theorem Steady.outcome_eq_ok_iff (hs : G.Steady) (hlimit : 0 < G.limit) (turns : List Turn)
    {rs : List β} : G.outcome turns = .ok rs ↔ G.jobs.mapM G.work = .ok rs := by
  obtain ⟨more, hmore⟩ := G.exists_wait hlimit turns
  exact (hs.outcome_of_wait hmore).eq_ok_iff

/-! ## Where the rounds share their variables -/

variable (G)

/-- The loop is past its first round, and nothing has been written at the first place. -/
def Lost (s : State β ε) : Prop := 0 < s.round ∧ s.results[0]? = some G.blank

variable {G}

/-- The one move that writes a result writes it at the round of the loop. -/
theorem Lost.move (hshared : G.loopVars = .shared) (h : G.Lost s) (i : Nat) (t : Task β ε) :
    G.Lost (G.move s i t) := by
  obtain ⟨hround, hresult⟩ := h
  refine ⟨(G.move_tasks s i t).1 ▸ hround, ?_⟩
  cases t with
  | ready => exact hresult
  | cleared =>
      rw [TaskGroup.move]
      cases G.jobs[G.index s i]? with
      | none => exact hresult
      | some job => exact hresult
  | done r =>
      cases r with
      | ok b =>
          rw [TaskGroup.move, index, hshared, List.getElem?_set_ne (Nat.ne_of_gt hround)]
          exact hresult
      | error e =>
          rw [TaskGroup.move, State.fail]
          cases s.failure with
          | none => exact hresult
          | some e' => exact hresult
  | kept => exact hresult
  | ended => exact hresult

theorem Lost.step (hshared : G.loopVars = .shared) (h : G.Lost s) (turn : Turn) :
    G.Lost (G.step s turn) := by
  cases turn with
  | loop =>
      rw [TaskGroup.step, TaskGroup.advance]
      split
      · split
        · next hlt => exact ⟨Nat.lt_trans h.1 hlt, h.2⟩
        · split
          · exact h
          · exact h
      · exact h
  | task i =>
      rw [TaskGroup.step]
      cases s.tasks[i]? with
      | none => exact h
      | some t => exact h.move hshared i t

/-- The loop enters its second round before the first task has had a turn. -/
theorem lost_after (hlimit : 0 < G.limit) (hjobs : 1 < G.jobs.length) :
    G.Lost (G.after [.loop, .loop]) := by
  have hpos : 0 < G.jobs.length := by omega
  have hfirst : G.after [.loop] = { G.start with tasks := [.ready] } := by
    simp [after, run, step, advance, start, hpos, State.underWay, hlimit]
  have hsecond : G.after [.loop, .loop] = { G.start with round := 1, tasks := [.ready] } := by
    rw [show [Turn.loop, .loop] = [.loop] ++ [.loop] from rfl, after_append, hfirst]
    simp [run, step, advance, start, hjobs]
  rw [hsecond]
  exact ⟨Nat.one_pos, by simp [start, hpos]⟩

theorem exists_wait_head_blank (hlimit : 0 < G.limit) (hshared : G.loopVars = .shared)
    (hjobs : 1 < G.jobs.length) :
    ∃ turns x, G.wait (G.after turns) = some x ∧ ∀ rs, x = .ok rs → rs[0]? = some G.blank := by
  obtain ⟨more, hmore⟩ := G.exists_wait hlimit [.loop, .loop]
  have hlost : G.Lost (G.after ([.loop, .loop] ++ more)) := by
    rw [after_append]
    exact run_keeps (fun _ turn h => h.step hshared turn) (lost_after hlimit hjobs) more
  refine ⟨_, _, hmore, ?_⟩
  intro rs hrs
  obtain ⟨_, hresult⟩ := (G.wait_eq_some_iff (G.consistent_after _)).1 hmore
  rw [hrs, State.result] at hresult
  split at hresult
  · cases hresult
  · exact Except.ok.inj hresult ▸ hlost.2

/-- Where all jobs succeed and no result is blank, every schedule leads to the results of
doing one job after another exactly when each task finds its own job. -/
theorem forall_wait_iff_steady (hlimit : 0 < G.limit)
    (hblank : ∀ job ∈ G.jobs, G.work job ≠ .ok G.blank) {rs : List β}
    (hall : G.jobs.mapM G.work = .ok rs) :
    (∀ turns x, G.wait (G.after turns) = some x → x = .ok rs) ↔ G.Steady := by
  constructor
  · intro h
    by_contra hs
    obtain ⟨hown, hone⟩ := not_or.1 hs
    have hshared : G.loopVars = .shared := by
      cases hv : G.loopVars with
      | own => exact absurd hv hown
      | shared => rfl
    obtain ⟨turns, x, hx, hhead⟩ := exists_wait_head_blank hlimit hshared (by omega)
    have hfirst := hhead rs (h turns x hx)
    obtain ⟨job, hjob, hwork⟩ :=
      exists_of_mem_right (mapM_eq_ok_iff.1 hall) (List.mem_of_getElem? hfirst)
    exact hblank job hjob hwork
  · intro hs turns x hx
    exact (hs.outcome_of_wait hx).eq_ok_iff.2 hall

end TaskGroup

end MuxFlow
