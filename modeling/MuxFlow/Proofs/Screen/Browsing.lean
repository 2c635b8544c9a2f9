import Mathlib.Data.List.Induction
import MuxFlow.Screen.Explorer

/-!
# The explorer stays inside its list

Keys come in any order, and the file may come late, or again while one mux is on the
screen. Whatever happens, the list holds exactly the entries that the filter asks for
and the selection is one of them (`browsing_stays_inside`). The invariant `Sound` says
besides where the entries come from: as long as there is one file, an explorer that
has entries has the entries of that file, so that hearing of it again changes nothing.

A key can do six things to an explorer (`Moves`); what is shown of keys is shown of
these.
-/

namespace MuxFlow.Screen.Explorer

open Text (lowerChar trim)

variable {F : Type} {ed : Editor F} {m m' : Explorer F}

/-- The explorer after some events. -/
def after (ed : Editor F) (m : Explorer F) (events : List Event) : Explorer F :=
  events.foldl (fun m e => (m.update ed e).1) m

theorem after_concat (m : Explorer F) (events : List Event) (e : Event) :
    after ed m (events ++ [e]) = ((after ed m events).update ed e).1 := by
  rw [after, after, List.foldl_append]
  rfl

theorem after_append (m : Explorer F) (events more : List Event) :
    after ed m (events ++ more) = after ed (after ed m events) more :=
  List.foldl_append

/-! ## The list -/

/-- The numbers in the list are those of the entries whose id, in lower case, holds
what is looked for. -/
theorem mem_matching_iff {query : List Char} {entries : List MuxEntry} {i : Nat} :
    i ∈ matching query entries ↔
      ∃ e, entries[i]? = some e ∧ query <:+: e.found.mux.toList.map lowerChar := by
  simp only [matching, List.mem_map, List.mem_filter, Prod.exists, List.mem_zipIdx_iff_getElem?,
    admits, Text.occursIn_iff]
  constructor
  · rintro ⟨e, j, ⟨hentry, hquery⟩, rfl⟩
    exact ⟨e, hentry, hquery⟩
  · rintro ⟨e, hentry, hquery⟩
    exact ⟨e, i, ⟨hentry, hquery⟩, rfl⟩

theorem matching_ascending (query : List Char) (entries : List MuxEntry) :
    (matching query entries).Pairwise (· < ·) := by
  have hsub : (matching query entries).Sublist (entries.zipIdx.map Prod.snd) :=
    List.filter_sublist.map Prod.snd
  rw [List.zipIdx_map_snd] at hsub
  exact List.Pairwise.sublist hsub List.pairwise_lt_range'

/-- Nothing to look for is found in every entry. -/
theorem matching_nil (entries : List MuxEntry) :
    matching [] entries = List.range entries.length := by
  have hall : entries.zipIdx.filter (fun e => admits [] e.1) = entries.zipIdx := by
    rw [List.filter_eq_self]
    intro e _
    exact (Text.occursIn_iff _ _).2 (List.nil_infix)
  rw [matching, hall, List.zipIdx_map_snd, List.range_eq_range']

/-! ## One event -/

/-- What a key can do to an explorer. -/
inductive Moves (ed : Editor F) (m : Explorer F) : Explorer F → Prop
  | still : Moves ed m m
  | leave (h : m.page = .detail) : Moves ed m { m with page := .browse }
  | up (h : m.page = .browse) : Moves ed m { m with selected := m.selected - 1 }
  | down (h : m.page = .browse) (hlt : m.selected + 1 < m.visible.length) :
      Moves ed m { m with selected := m.selected + 1 }
  | enter (h : m.page = .browse) (hne : m.visible ≠ []) : Moves ed m { m with page := .detail }
  | edit (h : m.page = .browse) (filter : F) : Moves ed m (({ m with filter }).refilter ed)

theorem moves_press (m : Explorer F) (k : Key) : Moves ed m (m.press ed k).1 := by
  unfold press
  split
  · exact .still
  · exact .leave ‹_›
  · exact .still
  · exact .up ‹_›
  · next hpage =>
      dsimp only
      split
      · next hlt => exact .down hpage hlt
      · exact .still
  · next hpage =>
      dsimp only
      split
      · exact .still
      · next hne => exact .enter hpage (by simpa using hne)
  · exact .leave ‹_›
  · exact .edit ‹_› _
  · exact .still

/-- The selection is a line of the list; in an empty list it is the first. -/
def Selects (m : Explorer F) : Prop :=
  m.selected < m.visible.length ∨ m.visible = [] ∧ m.selected = 0

theorem selects_refilter (m : Explorer F) : Selects (m.refilter ed) := by
  unfold Selects refilter
  dsimp only
  rw [← List.length_eq_zero_iff]
  omega

theorem Selects.lt (h : Selects m) (hne : m.visible ≠ []) : m.selected < m.visible.length :=
  h.resolve_right fun hnil => hne hnil.1

/-- What is kept by keys and by news of one file. -/
structure Sound (ed : Editor F) (result : Except Fault (List MuxEntry)) (m : Explorer F) :
    Prop where
  /-- There are no entries but those of the file. -/
  entries : m.entries = [] ∨ result = .ok m.entries
  listed : m.visible = matching (m.query ed) m.entries
  selects : Selects m
  detail : m.page = .detail → m.visible ≠ []

namespace Sound

variable {result : Except Fault (List MuxEntry)}

theorem start (ed : Editor F) (result : Except Fault (List MuxEntry)) (filename : String)
    (theme : Theme) (filter : F) : Sound ed result (start filename theme filter) where
  entries := .inl rfl
  listed := rfl
  selects := .inr ⟨rfl, rfl⟩
  detail := by
    intro h
    cases h

/-- Only the entries of the file can be in a list that is not empty. -/
theorem result_eq (h : Sound ed result m) (hne : m.visible ≠ []) : result = .ok m.entries := by
  rcases h.entries with hnil | hresult
  · rw [h.listed, hnil] at hne
    exact absurd rfl hne
  · exact hresult

theorem moves (h : Sound ed result m) (hm : Moves ed m m') : Sound ed result m' := by
  cases hm with
  | still => exact h
  | leave _ => exact { h with detail := by intro hpage; cases hpage }
  | up hpage =>
      refine { h with selects := ?_, detail := ?_ }
      · rcases h.selects with hlt | ⟨hnil, hzero⟩
        · exact .inl (by dsimp only; omega)
        · exact .inr ⟨hnil, by dsimp only; omega⟩
      · intro hdetail
        exact h.detail hdetail
  | down _ hlt => exact { h with selects := .inl hlt, detail := h.detail }
  | enter _ hne => exact { h with detail := fun _ => hne }
  | edit hpage filter =>
      refine ⟨h.entries, rfl, selects_refilter _, ?_⟩
      intro hdetail
      have hbrowse : Page.browse = Page.detail := hpage.symm.trans hdetail
      cases hbrowse

/-- Hearing of the file while its list is not empty changes neither list nor
selection. -/
theorem receive_of_ne (h : Sound ed result m) (hne : m.visible ≠ []) :
    (m.receive ed result).visible = m.visible ∧ (m.receive ed result).selected = m.selected := by
  have hlt := h.selects.lt hne
  have hvisible : (m.receive ed result).visible = m.visible := by
    rw [h.result_eq hne]
    exact h.listed.symm
  refine ⟨hvisible, ?_⟩
  have hselected : (m.receive ed result).selected =
      min m.selected ((m.receive ed result).visible.length - 1) := by
    rw [h.result_eq hne]
    rfl
  rw [hselected, hvisible]
  omega

theorem receive (h : Sound ed result m) : Sound ed result (m.receive ed result) := by
  have hentries : (m.receive ed result).entries = [] ∨
      result = .ok (m.receive ed result).entries := by
    cases result with
    | error fault => exact .inl rfl
    | ok entries => exact .inr rfl
  have hlisted : (m.receive ed result).visible =
      matching ((m.receive ed result).query ed) (m.receive ed result).entries := by
    cases result <;> rfl
  have hselects : Selects (m.receive ed result) := by
    cases result <;> exact selects_refilter _
  have hpage : (m.receive ed result).page = m.page := by
    cases result <;> rfl
  refine ⟨hentries, hlisted, hselects, ?_⟩
  intro hdetail
  have hne := h.detail (hpage.symm.trans hdetail)
  rw [(h.receive_of_ne hne).1]
  exact hne

theorem update (h : Sound ed result m) {e : Event} (he : ∀ r, e = .loaded r → r = result) :
    Sound ed result (m.update ed e).1 := by
  cases e with
  | key k => exact h.moves (moves_press m k)
  | loaded r =>
      obtain rfl := he r rfl
      exact h.receive

/-- The step lemma, carried along any number of events. -/
theorem after (h : Sound ed result m) {events : List Event}
    (hevents : ∀ r, Event.loaded r ∈ events → r = result) :
    Sound ed result (after ed m events) := by
  induction events using List.reverseRecOn with
  | nil => exact h
  | append_singleton events e ih =>
      rw [after_concat]
      apply (ih fun r hr => hevents r (List.mem_append_left _ hr)).update
      rintro r rfl
      exact hevents r (by simp)

/-- An explorer that shows one mux before and after an event has the same filter, list
and selection. -/
theorem update_of_detail (h : Sound ed result m) (hpage : m.page = .detail) {e : Event}
    (he : ∀ r, e = .loaded r → r = result) (hpage' : (m.update ed e).1.page = .detail) :
    (m.update ed e).1.filter = m.filter ∧ (m.update ed e).1.visible = m.visible ∧
      (m.update ed e).1.selected = m.selected := by
  cases e with
  | loaded r =>
      obtain rfl := he r rfl
      refine ⟨?_, h.receive_of_ne (h.detail hpage)⟩
      cases r <;> rfl
  | key k =>
      have hmoves : Moves ed m (m.update ed (.key k)).1 := moves_press m k
      generalize (m.update ed (.key k)).1 = m' at hmoves hpage' ⊢
      -- every move but standing still turns the page or needs the page with the list
      cases hmoves with
      | still => exact ⟨rfl, rfl, rfl⟩
      | leave _ => cases hpage'
      | up hbrowse => cases hpage.symm.trans hbrowse
      | down hbrowse _ => cases hpage.symm.trans hbrowse
      | enter hbrowse _ => cases hpage.symm.trans hbrowse
      | edit hbrowse _ => cases hpage.symm.trans hbrowse

theorem after_of_detail (h : Sound ed result m) {events : List Event}
    (hevents : ∀ r, Event.loaded r ∈ events → r = result)
    (hpages : ∀ part, part <+: events → (Explorer.after ed m part).page = .detail) :
    (Explorer.after ed m events).filter = m.filter ∧
      (Explorer.after ed m events).visible = m.visible ∧
      (Explorer.after ed m events).selected = m.selected := by
  induction events using List.reverseRecOn with
  | nil => exact ⟨rfl, rfl, rfl⟩
  | append_singleton events e ih =>
      have hbefore : ∀ r, Event.loaded r ∈ events → r = result :=
        fun r hr => hevents r (List.mem_append_left _ hr)
      have hlast : ∀ r, e = .loaded r → r = result := by
        rintro r rfl
        exact hevents r (by simp)
      have hpage := hpages events (List.prefix_append _ _)
      have hpage' := hpages (events ++ [e]) List.prefix_rfl
      rw [after_concat] at hpage' ⊢
      obtain ⟨hfilter, hvisible, hselected⟩ :=
        (h.after hbefore).update_of_detail hpage hlast hpage'
      obtain ⟨ihfilter, ihvisible, ihselected⟩ :=
        ih hbefore fun part hpart => hpages part (hpart.trans (List.prefix_append _ _))
      exact ⟨hfilter.trans ihfilter, hvisible.trans ihvisible, hselected.trans ihselected⟩

/-- Every line of the list has its entry. -/
theorem shown_eq (h : Sound ed result m) :
    m.shown.map some = m.visible.map fun i => m.entries[i]? := by
  have hin : ∀ i ∈ m.visible, ∃ e, m.entries[i]? = some e := by
    intro i hi
    rw [h.listed] at hi
    obtain ⟨e, hentry, _⟩ := mem_matching_iff.1 hi
    exact ⟨e, hentry⟩
  rw [shown]
  generalize m.visible = visible at hin ⊢
  induction visible with
  | nil => rfl
  | cons i is ih =>
      obtain ⟨⟨e, hentry⟩, his⟩ := List.forall_mem_cons.1 hin
      rw [List.filterMap_cons_some hentry, List.map_cons, List.map_cons, ih his, hentry]

/-- The page with one mux has a mux to show. -/
theorem exists_current (h : Sound ed result m) (hpage : m.page = .detail) :
    ∃ i e, m.visible[m.selected]? = some i ∧ m.entries[i]? = some e ∧ m.current? = some e := by
  have hlt := h.selects.lt (h.detail hpage)
  have hmem : m.visible[m.selected] ∈ matching (m.query ed) m.entries :=
    h.listed ▸ List.getElem_mem hlt
  obtain ⟨e, hentry, _⟩ := mem_matching_iff.1 hmem
  have hline : m.visible[m.selected]? = some m.visible[m.selected] :=
    List.getElem?_eq_getElem hlt
  refine ⟨_, e, hline, hentry, ?_⟩
  rw [current?, hline, Option.bind_some, hentry]

end Sound

/-! ## Any number of events -/

/-- The list is what the filter asks for, and nothing that is shown is looked for
outside of it. -/
structure Inside (ed : Editor F) (m : Explorer F) : Prop where
  ascending : m.visible.Pairwise (· < ·)
  mem_iff : ∀ i, i ∈ m.visible ↔ ∃ e, m.entries[i]? = some e ∧
    (trim (ed.value m.filter)).map lowerChar <:+: e.found.mux.toList.map lowerChar
  blank : trim (ed.value m.filter) = [] → m.visible = List.range m.entries.length
  selected : m.selected < m.visible.length ∨ m.visible = [] ∧ m.selected = 0
  detail : m.page = .detail → m.visible ≠ []
  /-- The page with the list has an entry for every line. -/
  lines : m.shown.map some = m.visible.map fun i => m.entries[i]?
  /-- The page with one mux has a mux to show. -/
  current : m.page = .detail →
    ∃ i e, m.visible[m.selected]? = some i ∧ m.entries[i]? = some e ∧ m.current? = some e

theorem Sound.inside {result : Except Fault (List MuxEntry)} (h : Sound ed result m) :
    Inside ed m where
  ascending := h.listed ▸ matching_ascending _ _
  mem_iff := by
    intro i
    rw [h.listed, mem_matching_iff]
    rfl
  blank := by
    intro hblank
    rw [h.listed, query, hblank]
    exact matching_nil _
  selected := h.selects
  detail := h.detail
  lines := h.shown_eq
  current := h.exists_current

/-- Whatever keys are pressed, however they are edited into the filter, and whenever and
however often the explorer hears of its file: it stays inside its list, and while it
shows one mux, the filter, the list and the selection stay as they are. -/
theorem browsing_stays_inside (ed : Editor F) (filename : String) (theme : Theme) (filter : F)
    (result : Except Fault (List MuxEntry)) (events : List Event)
    (hevents : ∀ r, Event.loaded r ∈ events → r = result) :
    Inside ed (after ed (start filename theme filter) events) ∧
      ∀ before since, events = before ++ since →
        (∀ part, part <+: since →
          (after ed (start filename theme filter) (before ++ part)).page = .detail) →
        let m := after ed (start filename theme filter) before
        let m' := after ed (start filename theme filter) events
        m'.filter = m.filter ∧ m'.visible = m.visible ∧ m'.selected = m.selected := by
  have hstart := Sound.start ed result filename theme filter
  refine ⟨(hstart.after hevents).inside, ?_⟩
  rintro before since rfl hpages
  dsimp only
  rw [after_append]
  apply (hstart.after fun r hr => hevents r (List.mem_append_left _ hr)).after_of_detail
  · intro r hr
    exact hevents r (List.mem_append_right _ hr)
  · intro part hpart
    rw [← after_append]
    exact hpages part hpart

/-- An entry without paths and continuations. -/
def bareEntry (mux : String) : MuxEntry := ⟨⟨[], [], []⟩, ⟨mux, []⟩⟩

/-- The news of a file with three muxes. -/
def threeMuxes : Event := .loaded (.ok [bareEntry "Main", bareEntry "loop", bareEntry "main:2"])

/-- A key before the file has come, and a filter that moves the selection to the one mux
that it leaves. -/
def untilDetail : List Event :=
  [.key ⟨"enter", []⟩, threeMuxes, .key ⟨"down", []⟩, .key ⟨"down", []⟩, .key (.ofText " AI"),
    .key ⟨"down", []⟩, .key (.ofText "N:"), .key ⟨"enter", []⟩]

/-- The file comes again while the mux is shown. -/
theorem browsing_reloaded :
    let m := after TextField.editor (start "f" .plain {}) untilDetail
    let m' := after TextField.editor (start "f" .plain {}) (untilDetail ++ [threeMuxes])
    m.page = .detail ∧ m.visible = [2] ∧ Inside TextField.editor m' ∧
      m'.filter = m.filter ∧ m'.visible = m.visible ∧ m'.selected = m.selected := by
  have hnews : ∀ r, Event.loaded r ∈ untilDetail ++ [threeMuxes] →
      r = .ok [bareEntry "Main", bareEntry "loop", bareEntry "main:2"] := by
    intro r hr
    simpa [untilDetail, threeMuxes, Key.ofText] using hr
  obtain ⟨hinside, hstays⟩ := browsing_stays_inside TextField.editor "f" .plain {} _ _ hnews
  refine ⟨by decide +kernel, by decide +kernel, hinside, hstays untilDetail [threeMuxes] rfl ?_⟩
  intro part hpart
  rcases List.prefix_cons_iff.1 hpart with rfl | ⟨rest, rfl, hrest⟩
  · decide +kernel
  · rw [List.prefix_nil.1 hrest]
    decide +kernel

end MuxFlow.Screen.Explorer
