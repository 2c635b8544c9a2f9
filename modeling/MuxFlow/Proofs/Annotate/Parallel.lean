import MuxFlow.Proofs.Annotate.Refusal

/-!
# The muxes side by side

With several workers the muxes of a graph are analysed by tasks (`Annotate.tasks`). What
comes out should be what the analysis of one mux after another gives, or the fault of some
mux (`Annotate.Agrees`). It is, whatever the schedule, when the tasks have loop variables of
their own or there is one mux at most. Otherwise there is a schedule that passes over the
first mux, and the results are not those of one mux after another
(`Annotate.wait_agrees_iff`).

That no schedule gets stuck and that a failure is always that of a mux, and not the
cancellation, does not depend on the variables.
-/

namespace MuxFlow

/-- What is wrong with a mux, or with the options, is trouble at a place. -/
theorem Mux.exists_trouble_of_continuations {g : Graph} {m : String} {o : Options} {e : Fault}
    (hm : m ∈ g.muxes) (h : Mux.continuations g m o = .error e) : ∃ what, e = .trouble what := by
  cases hval : o.validate with
  | error e' =>
      rw [continuations, hval] at h
      obtain rfl : e' = e := Except.error.inj h
      unfold Options.validate at hval
      split at hval
      · exact ⟨_, (Except.error.inj hval).symm⟩
      · split at hval
        · exact ⟨_, (Except.error.inj hval).symm⟩
        · cases hval
  | ok u =>
      obtain ⟨n, hn, hmux, rfl⟩ := g.mem_muxes_iff.1 hm
      rw [continuations_eq_error_iff hval, inputPaths_eq_error_iff hn hmux] at h
      obtain ⟨x, _, rfl⟩ := List.mem_map.1 (List.mem_of_mem_head? h)
      exact ⟨_, rfl⟩

namespace Annotate

/-- What comes out of a group agrees with the analysis of one mux after another: it is a
success when every mux can be analysed, with the lists in the order of the muxes, and
otherwise the fault of a mux. -/
structure Agrees (g : Graph) (o : Options) (x : Except Fault (List MuxContinuations)) : Prop where
  succeeds : (∃ all, x = .ok all) ↔ ∀ m ∈ g.muxes, ∃ mc, Mux.continuations g m o = .ok mc
  results : ∀ all, x = .ok all → (g.muxes.mapM fun m => Mux.continuations g m o) = .ok all
  failure : ∀ e, x = .error e →
    (∃ m ∈ g.muxes, Mux.continuations g m o = .error e) ∧ e ≠ cancellation

variable {loopVars : LoopVariables} {g : Graph} {o : Options}

theorem of_wait_error {turns : List TaskGroup.Turn} {e : Fault}
    (h : (tasks loopVars g o).wait ((tasks loopVars g o).after turns) = some (.error e)) :
    (∃ m ∈ g.muxes, Mux.continuations g m o = .error e) ∧ e ≠ cancellation := by
  obtain ⟨m, hm, hwork⟩ :=
    (tasks loopVars g o).of_outcome_eq_error ((tasks loopVars g o).outcome_eq_of_wait h)
  obtain ⟨what, rfl⟩ := Mux.exists_trouble_of_continuations hm hwork
  exact ⟨⟨m, hm, hwork⟩, by simp [cancellation]⟩

theorem agrees_of_steady (hs : (tasks loopVars g o).Steady) {turns : List TaskGroup.Turn}
    {x : Except Fault (List MuxContinuations)}
    (h : (tasks loopVars g o).wait ((tasks loopVars g o).after turns) = some x) :
    Agrees g o x := by
  have hout := hs.outcome_of_wait h
  constructor
  · rw [← exists_mapM_eq_ok_iff]
    exact exists_congr fun all => hout.eq_ok_iff
  · exact fun all hall => hout.eq_ok_iff.1 hall
  · rintro e rfl
    exact of_wait_error h

/-- No mux has the blank for its list, because no node has the empty id. -/
theorem continuations_ne_blank {m : String} (hm : m ∈ g.muxes) :
    Mux.continuations g m o ≠ .ok ⟨"", []⟩ := by
  intro h
  obtain ⟨n, hn, _, rfl⟩ := g.mem_muxes_iff.1 hm
  exact g.id_ne_empty n hn (Mux.continuations_mux h).symm

/-- With several workers no schedule gets stuck, and what fails is a mux. What comes out
agrees with the analysis of one mux after another under every schedule if the tasks have
loop variables of their own or there is one mux at most, and where all muxes can be
analysed only then. -/
theorem wait_agrees_iff (loopVars : LoopVariables) (g : Graph) (o : Options)
    (hworkers : 1 < o.workers) :
    (∀ turns, ∃ more x,
      (tasks loopVars g o).wait ((tasks loopVars g o).after (turns ++ more)) = some x) ∧
    (∀ turns e, (tasks loopVars g o).wait ((tasks loopVars g o).after turns) = some (.error e) →
      (∃ m ∈ g.muxes, Mux.continuations g m o = .error e) ∧ e ≠ cancellation) ∧
    (loopVars = .own ∨ g.muxes.length ≤ 1 → ∀ turns x,
      (tasks loopVars g o).wait ((tasks loopVars g o).after turns) = some x → Agrees g o x) ∧
    ((∀ m ∈ g.muxes, ∃ mc, Mux.continuations g m o = .ok mc) →
      ((∀ turns x, (tasks loopVars g o).wait ((tasks loopVars g o).after turns) = some x →
        Agrees g o x) ↔ loopVars = .own ∨ g.muxes.length ≤ 1)) := by
  have hlimit : 0 < (tasks loopVars g o).limit := by
    change 0 < o.workers.toNat
    omega
  refine ⟨?_, fun turns e => of_wait_error, fun hs turns x => agrees_of_steady hs, ?_⟩
  · intro turns
    obtain ⟨more, hmore⟩ := (tasks loopVars g o).exists_wait hlimit turns
    exact ⟨more, _, hmore⟩
  · intro hok
    obtain ⟨all, hall⟩ := exists_mapM_eq_ok_iff.2 hok
    have hsteady : (tasks loopVars g o).Steady ↔ loopVars = .own ∨ g.muxes.length ≤ 1 := Iff.rfl
    rw [← hsteady, ← TaskGroup.forall_wait_iff_steady hlimit
      (fun m hm => continuations_ne_blank hm) hall]
    constructor
    · intro h turns x hx
      have hagrees := h turns x hx
      obtain ⟨all', rfl⟩ := hagrees.succeeds.2 hok
      exact hall ▸ (hagrees.results all' rfl).symm
    · intro h turns x hx
      obtain rfl := h turns x hx
      exact ⟨⟨fun _ => hok, fun _ => ⟨all, rfl⟩⟩, fun _ hx => hall.trans hx, nofun⟩

/-- The second task fails before the first one looks, which then fails with the
cancellation; the outcome is the fault of the second. -/
theorem wait_lopsided :
    let o := { Options.default with workers := 2 }
    let G := tasks .own lopsided o
    let turns := [.loop, .loop, .loop, .task 1, .task 1, .task 1, .task 1, .task 0]
    let fault := Graph.portNotFound .walk "n" MuxPort.input1.name
    1 < o.workers ∧ (G.after turns).tasks[0]? = some (.done (.error cancellation)) ∧
      G.wait (G.after (turns ++ [.task 0])) = some (.error fault) ∧
      Agrees lopsided o (.error fault) := by
  intro o G turns fault
  have hwait : G.wait (G.after (turns ++ [.task 0])) = some (.error fault) := by
    decide +kernel
  exact ⟨by decide, by decide +kernel, hwait,
    (wait_agrees_iff .own lopsided o (by decide)).2.2.1 (Or.inl rfl) _ _ hwait⟩

/-- Two muxes, each with a call of its own behind it. -/
def sideBySide : Graph where
  nodes := [Node.selector "m", Node.call "c" [], Node.selector "k", Node.call "d" []]
  edges := [Edge.wire "c" "o" "m" "input1", Edge.wire "d" "o" "k" "input1"]
  id_ne_empty := by decide
  ids_nodup := by decide
  kind_eq_mux := by decide
  name_ne_empty := by decide
  names_nodup := by decide
  closed := by decide

/-- The loop comes to the second mux before the first task has looked: both tasks analyse
the second mux, and the first is passed over. -/
theorem wait_sideBySide :
    let o := { Options.default with workers := 2 }
    let G := tasks .shared sideBySide o
    let first := ⟨"m", [{ node := "c", port := "input1", type := Descriptor.recursion }]⟩
    let second := ⟨"k", [{ node := "d", port := "input1", type := Descriptor.recursion }]⟩
    let turns := [.loop, .loop, .loop, .task 0, .task 0, .task 0, .task 1, .task 1, .task 1]
    (sideBySide.muxes.mapM fun m => Mux.continuations sideBySide m o) = .ok [first, second] ∧
      G.wait (G.after turns) = some (.ok [⟨"", []⟩, second]) ∧
      ¬Agrees sideBySide o (.ok [⟨"", []⟩, second]) := by
  intro o G first second turns
  have hall : (sideBySide.muxes.mapM fun m => Mux.continuations sideBySide m o) =
      .ok [first, second] := by
    decide +kernel
  refine ⟨hall, by decide +kernel, ?_⟩
  intro hagrees
  have hsame := hagrees.results _ rfl
  rw [hall] at hsame
  exact absurd (Except.ok.inj hsame) (by decide)

end Annotate

end MuxFlow
