import MuxFlow.Proofs.Annotate.Stages

/-!
# Links beside the edges of a graph

A run is meant to add one link for each continuation and to leave the edges alone:
`Annotate.Added`. Links are told from edges and from each other by their names
alone, and a name that is already in use is taken over without a word, so this is
a question of names. The links are all added exactly when the reported names are
apart from each other and from the names of the edges (`Annotate.Apart`), and they
are when no id of a mux has an arrow in it and no edge has two arrows in a row.
-/

namespace MuxFlow

theorem append_cons_inj {α : Type} {a : α} {xs ys zs ws : List α} (hx : a ∉ xs) (hy : a ∉ ys)
    (h : xs ++ a :: zs = ys ++ a :: ws) : xs = ys ∧ zs = ws := by
  induction xs generalizing ys with
  | nil =>
      cases ys with
      | nil => exact ⟨rfl, (List.cons.inj h).2⟩
      | cons y ys => exact absurd (List.cons.inj h).1 (List.ne_of_not_mem_cons hy)
  | cons x xs ih =>
      cases ys with
      | nil => exact absurd (List.cons.inj h).1.symm (List.ne_of_not_mem_cons hx)
      | cons y ys =>
          obtain ⟨rfl, htail⟩ := List.cons.inj h
          obtain ⟨rfl, rfl⟩ :=
            ih (List.not_mem_of_not_mem_cons hx) (List.not_mem_of_not_mem_cons hy) htail
          exact ⟨rfl, rfl⟩

namespace Edge

theorem continuationName_toList (mux target port : String) :
    (continuationName mux target port).toList =
      mux.toList ++ '→' :: '→' :: (target.toList ++ '@' :: port.toList) := by
  simp [continuationName, String.toList_append]

/-- The name of a link says what it links, when the first arrow in it is the one
behind the mux and the last `@` the one in front of the port. -/
theorem continuationName_inj {m m' t t' p p' : String} (hm : '→' ∉ m.toList)
    (hm' : '→' ∉ m'.toList) (hp : '@' ∉ p.toList) (hp' : '@' ∉ p'.toList)
    (h : continuationName m t p = continuationName m' t' p') : m = m' ∧ t = t' ∧ p = p' := by
  have hlist := congrArg String.toList h
  rw [continuationName_toList, continuationName_toList] at hlist
  obtain ⟨hmux, hrest⟩ := append_cons_inj hm hm' hlist
  -- the port is what comes first when the rest is read from the end
  have hback := congrArg List.reverse (List.cons.inj hrest).2
  simp only [List.reverse_append, List.reverse_cons, List.append_assoc, List.singleton_append]
    at hback
  obtain ⟨hport, htarget⟩ :=
    append_cons_inj (by simpa using hp) (by simpa using hp') hback
  rw [List.reverse_inj] at hport htarget
  exact ⟨String.toList_inj.1 hmux, String.toList_inj.1 htarget, String.toList_inj.1 hport⟩

end Edge

theorem MuxPort.not_mem_name (x : MuxPort) : '@' ∉ x.name.toList := by
  cases x <;> decide

/-- What a run reports, as triples of a mux, a node and a port. -/
def Report.entries (r : Report) : List (String × String × String) :=
  r.muxes.flatMap fun mc => mc.continuations.map fun d => (mc.mux, d.key)

namespace Annotate

/-- A run has added a link for each continuation, and nothing else has happened to
the edges. -/
structure Added (g out : Graph) (r : Report) : Prop where
  kept : ∀ e ∈ g.edges, e ∈ out.edges
  linked : ∀ mc ∈ r.muxes, ∀ d ∈ mc.continuations, ∃ e ∈ out.edges,
    e.source = mc.mux ∧ e.target = d.node ∧ e.continuation = true ∧
      e.control = decide (d.port = MuxPort.control.name)
  count : out.edges.length = g.edges.length + r.edges

/-- The name of the link for an entry of a report. -/
def entryName (x : String × String × String) : String := Edge.continuationName x.1 x.2.1 x.2.2

/-- Distinct entries of a report have distinct names, and no edge has one of
them. -/
structure Apart (g : Graph) (r : Report) : Prop where
  entries : ∀ x ∈ r.entries, ∀ y ∈ r.entries, entryName x = entryName y → x = y
  edges : ∀ e ∈ g.edges, e.name ∉ linkNames r.muxes

theorem linkNames_eq (r : Report) : linkNames r.muxes = r.entries.map entryName := by
  simp only [linkNames, links, Report.entries, List.map_flatMap, List.map_map]
  rfl

theorem Complete.muxes_nodup {g : Graph} {o : Options} {muxes : List MuxContinuations}
    (h : Complete g o muxes) : (muxes.map MuxContinuations.mux).Nodup := by
  obtain ⟨all, hall, rfl⟩ := h
  have hmux : List.Forall₂ (fun m mc => m = mc.mux) g.muxes all :=
    hall.imp fun _ _ hmc => (Mux.continuations_mux hmc).symm
  have hall : all.map MuxContinuations.mux = g.muxes := by
    rw [← List.forall₂_eq_eq_eq, List.forall₂_map_left_iff]
    exact hmux.flip.imp fun _ _ h => h.symm
  have hids : g.muxes.Nodup := g.ids_nodup.sublist (List.filter_sublist.map Node.id)
  exact (hall ▸ hids).sublist (List.filter_sublist.map MuxContinuations.mux)

theorem Complete.entries_nodup {g : Graph} {o : Options} {r : Report}
    (h : Complete g o r.muxes) : r.entries.Nodup := by
  rw [Report.entries, List.nodup_flatMap]
  constructor
  · intro mc hmc
    have hkeys := Mux.keys_nodup_of_continuations (h.reported mc hmc).2.1
    rw [show (mc.continuations.map fun d => (mc.mux, d.key)) =
      (mc.continuations.map Descriptor.key).map (Prod.mk mc.mux) by simp]
    exact hkeys.map fun _ _ heq => (Prod.mk.inj heq).2
  · apply (List.pairwise_map.1 h.muxes_nodup).imp
    intro mc mc' hne x hx hx'
    obtain ⟨d, _, rfl⟩ := List.mem_map.1 hx
    obtain ⟨d', _, heq⟩ := List.mem_map.1 hx'
    exact hne (Prod.mk.inj heq).1.symm

theorem Complete.apart_iff {g : Graph} {o : Options} {r : Report} (h : Complete g o r.muxes) :
    Apart g r ↔ (Edge.overlay g.edges (links r.muxes)).length =
      g.edges.length + (links r.muxes).length := by
  have hnodup : (linkNames r.muxes).Nodup ↔
      ∀ x ∈ r.entries, ∀ y ∈ r.entries, entryName x = entryName y → x = y := by
    rw [linkNames_eq, List.nodup_map_iff_inj_on h.entries_nodup]
  rw [Edge.length_overlay_eq_iff]
  constructor
  · rintro ⟨hentries, hedges⟩
    exact ⟨hnodup.2 hentries, hedges⟩
  · rintro ⟨hentries, hedges⟩
    exact ⟨hnodup.1 hentries, hedges⟩

theorem Reported.apart_of_arrows {g : Graph} {o : Options} {r : Report}
    (h : Reported g o r.muxes) (hmuxes : ∀ m ∈ g.muxes, '→' ∉ m.toList)
    (hedges : ∀ e ∈ g.edges, ¬['→', '→'] <:+: e.name.toList) : Apart g r := by
  have hentry : ∀ x ∈ r.entries, '→' ∉ x.1.toList ∧ '@' ∉ x.2.2.toList := by
    intro x hx
    obtain ⟨mc, hmc, hx⟩ := List.mem_flatMap.1 hx
    obtain ⟨d, hd, rfl⟩ := List.mem_map.1 hx
    obtain ⟨hmux, hcont, _⟩ := h mc hmc
    obtain ⟨port, _, hport⟩ := Mux.port_of_mem_continuations hcont hd
    refine ⟨hmuxes mc.mux hmux, ?_⟩
    change '@' ∉ d.port.toList
    rw [hport]
    exact port.not_mem_name
  constructor
  · intro x hx y hy heq
    obtain ⟨hmux, hport⟩ := hentry x hx
    obtain ⟨hmux', hport'⟩ := hentry y hy
    obtain ⟨h₁, h₂, h₃⟩ := Edge.continuationName_inj hmux hmux' hport hport' heq
    exact Prod.ext h₁ (Prod.ext h₂ h₃)
  · intro e he hname
    rw [linkNames_eq] at hname
    obtain ⟨x, _, hname⟩ := List.mem_map.1 hname
    apply hedges e he
    rw [← hname, entryName, Edge.continuationName_toList]
    exact ⟨x.1.toList, x.2.1.toList ++ '@' :: x.2.2.toList, by simp⟩

end Annotate

/-- A run that is not up to the schedule adds one link for each continuation and keeps
every edge exactly when the names of the links are apart; they are when no id of a mux has
an arrow in it and no edge is named with two arrows in a row. -/
theorem annotate_added_iff {s : Scheduling} {g out : Graph} {o : Options} {r : Report}
    (hs : Annotate.Steady s g o) (h : annotate s g o = .ok (out, r)) :
    (Annotate.Added g out r ↔ Annotate.Apart g r) ∧
      ((∀ m ∈ g.muxes, '→' ∉ m.toList) →
        (∀ e ∈ g.edges, ¬['→', '→'] <:+: e.name.toList) → Annotate.Added g out r) := by
  obtain ⟨_, hmuxes, _, hcount, hout⟩ := annotate_eq_ok_iff.1 h
  obtain ⟨_, hedges⟩ := Annotate.rebuild_eq_ok_iff.1 hout
  have hcomplete := hs.analyse_eq_ok_iff.1 hmuxes
  have hiff : Annotate.Added g out r ↔ Annotate.Apart g r := by
    rw [hcomplete.apart_iff]
    constructor
    · intro hadded
      rw [← hedges, ← hcount]
      exact hadded.count
    · intro hlen
      obtain ⟨hnodup, hfree⟩ := (Edge.length_overlay_eq_iff _ _).1 hlen
      constructor
      · intro e he
        rw [hedges]
        exact Edge.mem_overlay.2 (Or.inl ⟨he, hfree e he⟩)
      · intro mc hmc d hd
        have hlink : Annotate.link mc.mux d ∈ Annotate.links r.muxes :=
          Annotate.mem_links.2 ⟨mc, hmc, d, hd, rfl⟩
        refine ⟨Annotate.link mc.mux d, ?_, rfl, rfl, rfl, rfl⟩
        rw [hedges, ← Edge.current_of_nodup hnodup hlink]
        exact Edge.current_mem_overlay hlink
      · rw [hedges, hcount, hlen]
  exact ⟨hiff, fun hm he => hiff.2 (hcomplete.reported.apart_of_arrows hm he)⟩

theorem annotate_countdown_added : ∃ out r, annotate {} (countdown false) .default = .ok (out, r) ∧
    r.edges = 1 ∧ Annotate.Added (countdown false) out r := by
  have hrun : ∃ out r, annotate {} (countdown false) .default = .ok (out, r) ∧ r.edges = 1 ∧
      (∀ m ∈ (countdown false).muxes, '→' ∉ m.toList) ∧
      ∀ e ∈ (countdown false).edges, ¬['→', '→'] <:+: e.name.toList :=
    exists_of_okAnd (by decide +kernel)
  obtain ⟨out, r, h, hcount, hmuxes, hedges⟩ := hrun
  exact ⟨out, r, h, hcount, (annotate_added_iff (by decide) h).2 hmuxes hedges⟩

/-- Two muxes and two calls whose ids run into each other. -/
def crossed : Graph where
  nodes := [Node.selector "a", Node.call "b→→c" [], Node.selector "a→→b", Node.call "c" []]
  edges := [Edge.wire "b→→c" "o" "a" "input1", Edge.wire "c" "o" "a→→b" "input1"]
  id_ne_empty := by decide
  ids_nodup := by decide
  kind_eq_mux := by decide
  name_ne_empty := by decide
  names_nodup := by decide
  closed := by decide

/-- Both links are named alike, so the first is lost and still counted. -/
theorem annotate_crossed : ∃ out r, annotate {} crossed .default = .ok (out, r) ∧
    (∀ e ∈ crossed.edges, e.continuation = false) ∧ ¬Annotate.Added crossed out r := by
  have hrun : ∃ out r, annotate {} crossed .default = .ok (out, r) ∧
      (∀ e ∈ crossed.edges, e.continuation = false) ∧
      out.edges.length ≠ crossed.edges.length + r.edges :=
    exists_of_okAnd (by decide +kernel)
  obtain ⟨out, r, h, hdata, hcount⟩ := hrun
  exact ⟨out, r, h, hdata, fun hadded => hcount hadded.count⟩

end MuxFlow
