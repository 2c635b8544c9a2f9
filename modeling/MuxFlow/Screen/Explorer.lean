import MuxFlow.Screen.Listing
import MuxFlow.Screen.TextField
import MuxFlow.Text.LowerCase

/-!
# The explorer

A screen on which the muxes of one file are browsed. The list shows the muxes
whose id holds the filter, in any case, and one of them is selected; a second
page shows what was found for it. The explorer learns of the file by an event,
which may come at any moment, and more than once.

How the filter is edited is no business of the explorer: it takes an `Editor`,
which tells the text of a filter and what a key makes of it.
-/

namespace MuxFlow.Screen

open Text (lowerChar occursIn trim)

/-- What edits a text. -/
structure Editor (F : Type) where
  /-- The text as it stands. -/
  value : F → List Char
  /-- What a key makes of it. -/
  press : F → Key → F

/-- Text fields edit a text. -/
def TextField.editor : Editor TextField := ⟨TextField.value, TextField.press⟩

/-- What is found for one mux. -/
structure MuxEntry where
  paths : InputPaths
  found : MuxContinuations
  deriving DecidableEq, Repr

/-- What is found for every mux of a graph, or the first fault. -/
def MuxEntry.ofGraph (g : Graph) (o : Options) : Except Fault (List MuxEntry) :=
  g.muxes.mapM fun mux => do
    let paths ← Mux.inputPaths g mux
    let found ← Mux.continuations g mux o
    .ok { paths, found }

/-- The pages of the explorer. -/
inductive Page where
  /-- The list of muxes. -/
  | browse
  /-- One mux. -/
  | detail
  deriving DecidableEq, Repr

/-- The name of a page. -/
def Page.name : Page → String
  | .browse => "browse"
  | .detail => "detail"

/-- What the explorer knows and shows. -/
structure Explorer (F : Type) where
  filename : String
  theme : Theme
  filter : F
  /-- Whether the file has been dealt with. -/
  loaded : Bool := false
  /-- What is wrong with the file. -/
  fault : Option Fault := none
  entries : List MuxEntry := []
  /-- The numbers of the entries in the list. -/
  visible : List Nat := []
  /-- The selected line of the list. -/
  selected : Nat := 0
  page : Page := .browse

/-- What an explorer hears of. -/
inductive Event where
  | key (k : Key)
  /-- The file has been dealt with. -/
  | loaded (result : Except Fault (List MuxEntry))

namespace Explorer

variable {F : Type}

/-- An explorer before its first event. -/
def start (filename : String) (theme : Theme) (filter : F) : Explorer F :=
  { filename, theme, filter }

/-- Whether an entry belongs in the list. -/
def admits (query : List Char) (e : MuxEntry) : Bool :=
  occursIn query (e.found.mux.toList.map lowerChar)

/-- The numbers of the entries that belong in the list, ascending. -/
def matching (query : List Char) (entries : List MuxEntry) : List Nat :=
  (entries.zipIdx.filter fun e => admits query e.1).map Prod.snd

/-- What is looked for: the filter, in lower case, without blanks around it. -/
def query (ed : Editor F) (m : Explorer F) : List Char :=
  (trim (ed.value m.filter)).map lowerChar

/-- Makes the list anew; the selection stays inside. -/
def refilter (ed : Editor F) (m : Explorer F) : Explorer F :=
  let visible := matching (m.query ed) m.entries
  { m with visible, selected := min m.selected (visible.length - 1) }

/-- The explorer after a key, and whether the key ends it. -/
def press (ed : Editor F) (m : Explorer F) (k : Key) : Explorer F × Bool :=
  match k.name, m.page with
  | "ctrl+c", _ => (m, true)
  | "esc", .detail => ({ m with page := .browse }, false)
  | "esc", .browse => (m, true)
  | "up", .browse => ({ m with selected := m.selected - 1 }, false)
  | "down", .browse =>
    (if m.selected + 1 < m.visible.length then { m with selected := m.selected + 1 } else m, false)
  | "enter", .browse => (if m.visible.isEmpty then m else { m with page := .detail }, false)
  | "enter", .detail => ({ m with page := .browse }, false)
  | _, .browse => (({ m with filter := ed.press m.filter k }).refilter ed, false)
  | _, .detail => (m, false)

/-- The explorer once the file has been dealt with. -/
def receive (ed : Editor F) (m : Explorer F) (result : Except Fault (List MuxEntry)) :
    Explorer F :=
  match result with
  | .ok entries => ({ m with loaded := true, fault := none, entries }).refilter ed
  | .error fault => ({ m with loaded := true, fault := some fault, entries := [] }).refilter ed

/-- The explorer after an event, and whether the event ends it. -/
def update (ed : Editor F) (m : Explorer F) : Event → Explorer F × Bool
  | .key k => m.press ed k
  | .loaded result => (m.receive ed result, false)

/-! ## The look of the explorer -/

/-- The entries in the list. -/
def shown (m : Explorer F) : List MuxEntry := m.visible.filterMap fun i => m.entries[i]?

/-- The selected entry. -/
def current? (m : Explorer F) : Option MuxEntry :=
  m.visible[m.selected]?.bind fun i => m.entries[i]?

/-- A line of the list; the selected one has a pointer. -/
def line (m : Explorer F) (e : MuxEntry) (i : Nat) : String :=
  let text := e.found.mux ++ " (" ++ toString e.found.continuations.length ++ ")"
  (if i = m.selected then m.theme.render ("> " ++ text) else "  " ++ text) ++ "\n"

/-- The page with the list. -/
def browseView (filterView : F → String) (m : Explorer F) : String :=
  filterView m.filter ++ "\n\n" ++
    (if m.visible.isEmpty then m.theme.render "no matching muxes" ++ "\n" else "") ++
    String.join (m.shown.zipIdx.map fun e => m.line e.1 e.2) ++ "\n" ++
    m.theme.render "type to filter • ↑/↓ select • enter details • esc quit"

/-- The page with one mux. -/
def detailView (m : Explorer F) : String :=
  match m.current? with
  | none => ""
  | some e =>
    m.theme.continuations e.found ++ "\n" ++ m.theme.inputPaths e.paths ++ "\n" ++
      m.theme.render "enter/esc back • ctrl+c quit"

/-- The explorer on the screen. -/
def view (filterView : F → String) (m : Explorer F) : String :=
  match m.fault with
  | some fault => m.theme.render ("Error: " ++ fault.message ++ "\n\nPress esc to quit.")
  | none =>
    if m.loaded then
      m.theme.title "Continuation Explorer" ++ " " ++ m.filename ++ "\n\n" ++
        match m.page with
        | .browse => m.browseView filterView
        | .detail => m.detailView
    else "Loading graph..."

end Explorer

end MuxFlow.Screen
