import MuxFlow.Command.Run
import MuxFlow.Proofs.Config
import MuxFlow.Proofs.Document.Reload
import MuxFlow.Proofs.FileSystem
import MuxFlow.Proofs.Yaml.Notation

/-!
# Annotating a file

A run that annotates resolves its options, reads a graph, annotates it, and only then
opens its output. If one of the first three goes wrong, the files are as before and
nothing is printed. If the run succeeds, the annotated graph is either on the screen or in
one file, and what was written is read back as that graph, by the same choice of notation
(`Command.annotate_delivers`).

The options are those of `Command.Resolved`: what a flag says, else what the option file
says, else the default.

A graph that comes from a file has only kinds that a document can say, and annotating
leaves the kinds alone. So the one thing that reading back can change is a list of bodies
that was never given. That the text of a YAML tree is read as that tree is taken for
granted of the one tree that is written.
-/

namespace MuxFlow

namespace Graph

variable {fs : FileSystem} {name : String} {g out : Graph} {o : Options} {r : Report}

theorem kind_of_ofYaml {n : Yaml.Node} (h : ofYaml n = .ok g) : g.KindsSaid := by
  unfold ofYaml at h
  split at h
  · cases h
  · cases h
  · split at h
    · cases h
    · exact kind_of_ofJson h

theorem kind_of_load (h : load fs name = .ok g) : g.KindsSaid := by
  have hnamed : ∃ content, readNamed name content = .ok g := by
    unfold load at h
    split at h
    · cases h
    · split at h
      · cases h
      · cases h
      · next content _ =>
          split at h
          · cases h
          · next hread => exact ⟨content, hread.trans h⟩
  obtain ⟨content, hread⟩ := hnamed
  unfold readNamed at hread
  split at hread
  · unfold readYaml at hread
    split at hread
    · cases hread
    · cases hread
    · exact kind_of_ofYaml hread
  · exact kind_of_readJson hread

theorem kind_of_annotate {scheduling : Scheduling} (hg : g.KindsSaid)
    (h : annotate scheduling g o = .ok (out, r)) :
    out.KindsSaid := by
  obtain ⟨_, _, _, _, hout⟩ := annotate_eq_ok_iff.1 h
  intro n hn
  rw [(Annotate.rebuild_eq_ok_iff.1 hout).1] at hn
  obtain ⟨m, hm, rfl⟩ := List.mem_map.1 hn
  rw [Annotate.mark_eq]
  exact hg m hm

theorem reread_nodes (h : g.KindsSaid) :
    g.reread.nodes =
      g.nodes.map fun n => { n with recursesTo := n.recursesTo.map RecursesTo.reread } := by
  apply List.map_congr_left
  intro n hn
  rw [n.reread_eq, Node.kind_reread (h n hn)]

/-- What is written under a name is read under it. -/
theorem readNamed_textNamed (g : Graph) (name : String)
    (hyaml : isYamlName name = true →
      Yaml.Node.read? (.ofString g.toYamlText) = some (some g.toYaml)) :
    readNamed name (.ofString (textNamed name g)) = .ok g.reread := by
  unfold readNamed textNamed
  by_cases hname : isYamlName name = true
  · rw [if_pos hname, if_pos hname, readYaml, hyaml hname]
    exact g.ofYaml_toYaml.trans g.ofJson_toJson
  · rw [if_neg hname, if_neg hname]
    exact g.readJson_toJsonText

theorem load_put {p : Place} {content : Text.Source} (hname : name ≠ "")
    (hp : fs.target name = .ok p) (hg : readNamed name content = .ok g) :
    load (fs.put p content) name = .ok g := by
  rw [load, if_neg hname, FileSystem.read_put hp]
  simp only [hg]

end Graph

namespace Command

/-! ## The options of a run -/

/-- The options before any flag is looked at: the defaults, or what an option file makes of
them. -/
structure Based (fs : FileSystem) (s : Settings) (base : Options) : Prop where
  default : s.config = "" →
    base = { mode := "only necessary", includeControl := false, workers := 1 }
  file : s.config ≠ "" → ∃ content, fs.read s.config = .ok content ∧
    Config.read content = .ok base ∧
      ∀ es, Yaml.Node.read? content = some (some (.mapping es)) →
        (∀ e ∈ es, Config.isMerge e.1 = false) → Config.Stated es base

/-- Flags are laid over the other options. -/
structure Flagged (s : Settings) (base o : Options) : Prop where
  mode : o.mode = base.mode
  includeControl : ∀ b, s.includeControl = some b → o.includeControl = b
  includeControl_unset : s.includeControl = none → o.includeControl = base.includeControl
  workers : ∀ n, s.workers = some n → o.workers = n
  workers_unset : s.workers = none → o.workers = base.workers

/-- The options of an annotation run: what a flag says, else what the option file says, else
the default, as long as that can be honoured. -/
def Resolved (fs : FileSystem) (s : Settings) (o : Options) : Prop :=
  (∃ base, Based fs s base ∧ Flagged s base o) ∧
    (o.mode = "" ∨ o.mode = "only necessary") ∧ 0 ≤ o.workers

/-- The options before any flag is looked at, as they are worked out. -/
def baseOptions (fs : FileSystem) (s : Settings) : Except Fault Options :=
  if s.config = "" then .ok Options.default else loadOptions fs s.config

theorem loadOptions_eq_ok_iff {fs : FileSystem} {name : String} {o : Options} :
    loadOptions fs name = .ok o ↔
      ∃ content, fs.read name = .ok content ∧ Config.read content = .ok o := by
  unfold loadOptions
  cases fs.read name with
  | error why => cases why <;> simp
  | ok content => simp

theorem baseOptions_eq_ok_iff {fs : FileSystem} {s : Settings} {base : Options} :
    baseOptions fs s = .ok base ↔ Based fs s base := by
  unfold baseOptions
  by_cases hconfig : s.config = ""
  · rw [if_pos hconfig, Except.ok.injEq, eq_comm]
    exact ⟨fun h => ⟨fun _ => h, fun hne => absurd hconfig hne⟩, fun h => h.default hconfig⟩
  · rw [if_neg hconfig, loadOptions_eq_ok_iff]
    constructor
    · rintro ⟨content, hcontent, hread⟩
      exact ⟨fun hempty => absurd hempty hconfig, fun _ => ⟨content, hcontent, hread,
        fun es => Config.stated_of_read hread⟩⟩
    · intro h
      obtain ⟨content, hcontent, hread, _⟩ := h.file hconfig
      exact ⟨content, hcontent, hread⟩

theorem flagged_iff {s : Settings} {base o : Options} :
    Flagged s base o ↔
      { base with
        includeControl := s.includeControl.getD base.includeControl
        workers := s.workers.getD base.workers } = o := by
  constructor
  · rintro ⟨hmode, hcontrol, hcontrol', hworkers, hworkers'⟩
    rw [Options.mk.injEq]
    refine ⟨hmode.symm, ?_, ?_⟩
    · cases hs : s.includeControl with
      | none => exact (hcontrol' hs).symm
      | some b => exact (hcontrol b hs).symm
    · cases hs : s.workers with
      | none => exact (hworkers' hs).symm
      | some n => exact (hworkers n hs).symm
  · rintro rfl
    constructor <;> simp +contextual

theorem validate_eq_ok_iff {o : Options} :
    o.validate = .ok () ↔ (o.mode = "" ∨ o.mode = "only necessary") ∧ 0 ≤ o.workers := by
  unfold Options.validate Options.onlyNecessary
  by_cases hmode : o.mode = "" ∨ o.mode = "only necessary"
  · rw [if_neg (by tauto)]
    by_cases hworkers : o.workers < 0
    · simp [hworkers]
    · simp [hworkers, hmode, Int.not_lt.1 hworkers]
  · rw [if_pos (by tauto)]
    simp [hmode]

theorem resolveOptions_eq_ok_iff {fs : FileSystem} {s : Settings} {o : Options} :
    resolveOptions fs s = .ok o ↔ Resolved fs s o := by
  have hresolve : resolveOptions fs s = baseOptions fs s >>= fun base =>
      let o := { base with
        includeControl := s.includeControl.getD base.includeControl
        workers := s.workers.getD base.workers }
      o.validate >>= fun _ => .ok o := by
    unfold resolveOptions baseOptions
    split <;> rfl
  rw [hresolve, bind_eq_ok_iff]
  constructor
  · rintro ⟨base, hbase, h⟩
    obtain ⟨_, hvalid, h⟩ := bind_eq_ok_iff.1 h
    obtain rfl := Except.ok.inj h
    exact ⟨⟨base, baseOptions_eq_ok_iff.1 hbase, flagged_iff.2 rfl⟩, validate_eq_ok_iff.1 hvalid⟩
  · rintro ⟨⟨base, hbase, hflagged⟩, hvalid⟩
    obtain rfl := flagged_iff.1 hflagged
    exact ⟨base, baseOptions_eq_ok_iff.2 hbase,
      bind_eq_ok_iff.2 ⟨(), validate_eq_ok_iff.2 hvalid, rfl⟩⟩

/-! ## The run -/

namespace Action

variable {α β : Type} {w w' : World} {f : FileSystem → Except Fault α}

theorem bind_of_ok {x : Action α} {k : α → Action β} {a : α} (h : x w = .ok a w') :
    (x >>= k) w = k a w' := by
  change EStateM.bind x k w = _
  rw [EStateM.bind, h]

theorem bind_of_error {x : Action α} {k : α → Action β} {fault : Fault}
    (h : x w = .error fault w') : (x >>= k) w = .error fault w' := by
  change EStateM.bind x k w = _
  rw [EStateM.bind, h]

theorem look_of_ok {a : α} (h : f w.files = .ok a) : look f w = .ok a w := by
  rw [look, h]

theorem look_of_error {fault : Fault} (h : f w.files = .error fault) :
    look f w = .error fault w := by
  rw [look, h]

theorem create_of_target {name : String} {p : Place} (h : w.files.target name = .ok p) :
    create name w = .ok p { w with files := w.files.put p (.ofString "") } := by
  have htarget : (fun fs : FileSystem => (fs.target name).mapError fun why =>
      Fault.within "create output" (why.fault "open" name)) w.files = .ok p := by
    simp only [h]
    rfl
  rw [create, bind_of_ok (look_of_ok htarget)]
  rfl

theorem create_of_error {name : String} {why : FileTrouble}
    (h : w.files.target name = .error why) :
    create name w = .error (.within "create output" (why.fault "open" name)) w := by
  have htarget : (fun fs : FileSystem => (fs.target name).mapError fun why =>
      Fault.within "create output" (why.fault "open" name)) w.files =
        .error (.within "create output" (why.fault "open" name)) := by
    simp only [h]
    rfl
  rw [create, bind_of_error (look_of_error htarget)]

end Action

/-- Where the annotated graph is after a run that wrote it as `output`; `back` is what is
read there. -/
structure Delivered (fs : FileSystem) (output : String) (out back : Graph) (after : Outcome) :
    Prop where
  screen : output = "" ∨ output = "-" → after.files = fs ∧ after.printed = out.toJsonText ∧
    Graph.readJson (.ofString after.printed) = .ok back
  file : output ≠ "" → output ≠ "-" → after.printed = "" ∧
    (∃ p, fs.target output = .ok p ∧ after.files = fs.put p (.ofString (out.textNamed output)) ∧
      ∀ q ≠ p, after.files.get? q = fs.get? q) ∧
    ((isYamlName output = true →
        Yaml.Node.read? (.ofString out.toYamlText) = some (some out.toYaml)) →
      Graph.load after.files output = .ok back)

section
variable {fs : FileSystem} {output : String} {out : Graph}

theorem outcome_emit_of_screen (h : output = "" ∨ output = "-") :
    outcome fs (emit output out) = { printed := out.toJsonText, files := fs } := by
  have hscreen : toScreen output = true := by simpa [toScreen] using h
  have hprinted : "" ++ out.toJsonText = out.toJsonText := String.empty_append
  rw [outcome, emit, if_pos hscreen]
  change Outcome.mk ("" ++ out.toJsonText) fs none = _
  rw [hprinted]

/-- Nothing is left of what was in the file before. -/
theorem outcome_emit_of_target {p : Place} (hempty : output ≠ "") (hdash : output ≠ "-")
    (h : fs.target output = .ok p) :
    outcome fs (emit output out) = { files := fs.put p (.ofString (out.textNamed output)) } := by
  have hscreen : ¬toScreen output = true := by simp [toScreen, hempty, hdash]
  have hcreate := Action.create_of_target (w := { files := fs }) h
  rw [outcome, emit, if_neg hscreen, Action.bind_of_ok hcreate]
  change Outcome.mk "" ((fs.put p _).put p _) none = _
  rw [FileSystem.put_put]

theorem outcome_emit_of_error {why : FileTrouble} (out : Graph) (hempty : output ≠ "")
    (hdash : output ≠ "-") (h : fs.target output = .error why) :
    ∃ fault, outcome fs (emit output out) = { files := fs, fault := some fault } := by
  have hscreen : ¬toScreen output = true := by simp [toScreen, hempty, hdash]
  have hcreate := Action.create_of_error (w := { files := fs }) h
  rw [outcome, emit, if_neg hscreen, Action.bind_of_error hcreate]
  exact ⟨_, rfl⟩

theorem delivered_of_emit (h : (outcome fs (emit output out)).fault = none) :
    Delivered fs output out out.reread (outcome fs (emit output out)) := by
  constructor
  case screen =>
    intro hscreen
    rw [outcome_emit_of_screen hscreen]
    exact ⟨rfl, rfl, out.readJson_toJsonText⟩
  case file =>
    intro hempty hdash
    cases htarget : fs.target output with
    | error why =>
        obtain ⟨fault, hemit⟩ := outcome_emit_of_error out hempty hdash htarget
        rw [hemit] at h
        cases h
    | ok p =>
        rw [outcome_emit_of_target hempty hdash htarget]
        refine ⟨rfl, ⟨p, rfl, rfl, fun q hq => FileSystem.get?_put_of_ne fs _ hq⟩, ?_⟩
        intro hyaml
        exact Graph.load_put hempty htarget (out.readNamed_textNamed output hyaml)

end

section
variable {scheduling : Scheduling} {fs : FileSystem} {s : Settings} {o : Options} {g : Graph}
  {fault : Fault}

theorem outcome_of_unresolved (h : resolveOptions fs s = .error fault) :
    outcome fs (run scheduling (.annotate s)) = { files := fs, fault := some fault } := by
  rw [outcome, run, annotateFile, Action.bind_of_error (Action.look_of_error h)]

theorem outcome_of_unread (ho : resolveOptions fs s = .ok o)
    (h : Graph.load fs s.input = .error fault) :
    outcome fs (run scheduling (.annotate s)) = { files := fs, fault := some fault } := by
  rw [outcome, run, annotateFile, Action.bind_of_ok (Action.look_of_ok ho),
    Action.bind_of_error (Action.look_of_error h)]

theorem outcome_of_refused (ho : resolveOptions fs s = .ok o)
    (hg : Graph.load fs s.input = .ok g) (h : annotate scheduling g o = .error fault) :
    outcome fs (run scheduling (.annotate s)) = { files := fs, fault := some fault } := by
  rw [outcome, run, annotateFile, Action.bind_of_ok (Action.look_of_ok ho),
    Action.bind_of_ok (Action.look_of_ok hg), Action.bind_of_error (Action.look_of_error h)]

theorem outcome_of_annotated {out : Graph} {r : Report} (ho : resolveOptions fs s = .ok o)
    (hg : Graph.load fs s.input = .ok g) (h : annotate scheduling g o = .ok (out, r)) :
    outcome fs (run scheduling (.annotate s)) = outcome fs (emit s.output out) := by
  rw [outcome, run, annotateFile, Action.bind_of_ok (Action.look_of_ok ho),
    Action.bind_of_ok (Action.look_of_ok hg), Action.bind_of_ok (Action.look_of_ok h)]
  rfl

end

/-- Where the options cannot be resolved, the graph cannot be read or it cannot be
annotated, no file is touched and nothing is printed. A run that succeeds leaves the
annotated graph where it was asked for and nowhere else, and it is read back from there,
with the empty id for a list of bodies that was never given. The graph is the one that any
scheduling gives, unless that is up to the schedule. -/
theorem annotate_delivers (scheduling : Scheduling) (fs : FileSystem) (s : Settings) :
    ((∀ o, ¬Resolved fs s o) → ∃ fault,
      outcome fs (run scheduling (.annotate s)) = { files := fs, fault := some fault }) ∧
    (∀ o fault, Resolved fs s o → Graph.load fs s.input = .error fault →
      outcome fs (run scheduling (.annotate s)) = { files := fs, fault := some fault }) ∧
    (∀ o g fault, Resolved fs s o → Graph.load fs s.input = .ok g →
      annotate scheduling g o = .error fault →
      outcome fs (run scheduling (.annotate s)) = { files := fs, fault := some fault }) ∧
    ((outcome fs (run scheduling (.annotate s))).fault = none →
      ∃ o g out r back, Resolved fs s o ∧ Graph.load fs s.input = .ok g ∧
        annotate scheduling g o = .ok (out, r) ∧
        (∀ scheduling', Annotate.Steady scheduling g o → Annotate.Steady scheduling' g o →
          annotate scheduling' g o = .ok (out, r)) ∧
        Delivered fs s.output out back (outcome fs (run scheduling (.annotate s))) ∧
        back.edges = out.edges ∧ back.nodes = out.nodes.map fun n =>
          { n with recursesTo := n.recursesTo.map RecursesTo.reread }) := by
  simp only [← resolveOptions_eq_ok_iff]
  refine ⟨?_, fun o fault ho hg => outcome_of_unread ho hg,
    fun o g fault ho hg h => outcome_of_refused ho hg h, ?_⟩
  · intro hunresolved
    cases ho : resolveOptions fs s with
    | error fault => exact ⟨fault, outcome_of_unresolved ho⟩
    | ok o => exact absurd ho (hunresolved o)
  · intro hsucceeds
    cases ho : resolveOptions fs s with
    | error fault =>
        rw [outcome_of_unresolved ho] at hsucceeds
        cases hsucceeds
    | ok o =>
        cases hg : Graph.load fs s.input with
        | error fault =>
            rw [outcome_of_unread ho hg] at hsucceeds
            cases hsucceeds
        | ok g =>
            cases hout : annotate scheduling g o with
            | error fault =>
                rw [outcome_of_refused ho hg hout] at hsucceeds
                cases hsucceeds
            | ok x =>
                rw [outcome_of_annotated ho hg hout] at hsucceeds ⊢
                have hkinds := Graph.kind_of_annotate (Graph.kind_of_load hg) hout
                exact ⟨o, g, x.1, x.2, x.1.reread, rfl, rfl, hout,
                  fun scheduling' hs hs' => hs.annotate_eq hs' hout,
                  delivered_of_emit hsucceeds, rfl, Graph.reread_nodes hkinds⟩

/-- A graph with a mux, one with a call that names its target without a list of bodies, one
whose call enters a body that is missing, and an option file. -/
def desk : FileSystem :=
  { files :=
      [(["g.json"], (callDocument [("branch", .str "c")]).compact.map some),
        (["d", "u"], (Json.obj [("nodes", .arr [.obj [("v", .str "c"),
          ("value", .obj [("recursesTo", .obj [])])]])]).compact.map some),
        (["astray"], (callDocument [("branch", .str "x")]).compact.map some),
        (["o.yaml"], "include_control: true\nworkers: 3\n".toList.map some)] }

/-- A run that writes a graph over itself under another name, with an option file and a
flag. -/
def overItself : Settings :=
  { input := "g.json", output := "./g.json", config := "o.yaml", workers := some 1 }

/-- The flag overrides the option file, and the option file the default. -/
theorem resolveOptions_overItself :
    resolveOptions desk overItself =
      .ok { mode := "only necessary", includeControl := true, workers := 1 } := by
  decide +kernel

/-- A graph is written over itself, and one is turned into YAML. An option file that does not
exist, a graph that does not and a call that goes astray stop a run before it touches
anything. -/
theorem annotate_delivers_desk :
    (∃ o back, Resolved desk overItself o ∧ o.includeControl = true ∧ o.workers = 1 ∧
      Graph.load (outcome desk (run {} (.annotate overItself))).files "./g.json" = .ok back ∧
      back.edges.map Edge.name = ["c@o→m@input1", "m→→c@input1"]) ∧
    (∃ back, Graph.load (outcome desk (run {} (.annotate
        { input := "d/u", output := "d/u.YML" }))).files "d/u.YML" = .ok back ∧
      back.nodes.map Node.recursesTo = [some ⟨some [""]⟩]) ∧
    (∃ fault, outcome desk (run {} (.annotate
        { input := "g.json", output := "g.json", config := "missing.yaml" })) =
      { files := desk, fault := some fault }) ∧
    (∃ fault, outcome desk (run {} (.annotate { input := "missing", output := "g.json" })) =
      { files := desk, fault := some fault }) ∧
    ∃ fault, outcome desk (run {} (.annotate { input := "astray", output := "astray" })) =
      { files := desk, fault := some fault } := by
  have hdefault : ∀ input output,
      Resolved desk { input, output } { mode := "only necessary", workers := 1 } :=
    fun _ _ => resolveOptions_eq_ok_iff.1 rfl
  refine ⟨?_, ?_, ?_, ?_, ?_⟩
  · have hrun : ∃ x, (Graph.load desk "g.json" >>= fun g => annotate {} g
        { mode := "only necessary", includeControl := true, workers := 1 }) = .ok x ∧
          x.1.edges.map Edge.name = ["c@o→m@input1", "m→→c@input1"] :=
      exists_ok_of_okAnd (by decide +kernel)
    obtain ⟨x, hx, hnames⟩ := hrun
    obtain ⟨g, hg, hout⟩ := bind_eq_ok_iff.1 hx
    have htarget : desk.target overItself.output = .ok ["g.json"] := by decide +kernel
    have hsucceeds : (outcome desk (run {} (.annotate overItself))).fault = none := by
      rw [outcome_of_annotated resolveOptions_overItself hg hout,
        outcome_emit_of_target (by decide) (by decide) htarget]
    obtain ⟨o, g', out, r, back, ho, hg', hout', -, hdelivered, hedges, -⟩ :=
      (annotate_delivers {} desk overItself).2.2.2 hsucceeds
    obtain ⟨-, -, hload⟩ := hdelivered.file (by decide) (by decide)
    have hoptions := (resolveOptions_eq_ok_iff.2 ho).symm.trans resolveOptions_overItself
    obtain rfl := Except.ok.inj hoptions
    obtain rfl := Except.ok.inj (hg.symm.trans hg')
    obtain rfl := Except.ok.inj (hout.symm.trans hout')
    exact ⟨_, back, ho, rfl, rfl, hload fun hyaml => absurd hyaml (by decide +kernel),
      hedges ▸ hnames⟩
  · have hrun : ∃ x, (Graph.load desk "d/u" >>= fun g => annotate {} g
        { mode := "only necessary", workers := 1 }) = .ok x ∧
          x.1.nodes.map Node.recursesTo = [some ⟨none⟩] ∧
            ((Yaml.Node.read? (.ofString x.1.toYamlText)).any fun found =>
              found.any (Yaml.Node.same · x.1.toYaml)) = true := by
      simp only [Graph.ofString_toYamlText]
      exact exists_ok_of_okAnd (by decide +kernel)
    obtain ⟨x, hx, hunsaid, hsame⟩ := hrun
    obtain ⟨g, hg, hout⟩ := bind_eq_ok_iff.1 hx
    have hoptions := resolveOptions_eq_ok_iff.2 (hdefault "d/u" "d/u.YML")
    have htarget : desk.target "d/u.YML" = .ok ["d", "u.YML"] := by decide +kernel
    have hsucceeds : (outcome desk (run {} (.annotate
        { input := "d/u", output := "d/u.YML" }))).fault = none := by
      rw [outcome_of_annotated hoptions hg hout,
        outcome_emit_of_target (by decide) (by decide) htarget]
    obtain ⟨o, g', out, r, back, ho, hg', hout', -, hdelivered, -, hnodes⟩ :=
      (annotate_delivers {} desk { input := "d/u", output := "d/u.YML" }).2.2.2 hsucceeds
    obtain ⟨-, -, hload⟩ := hdelivered.file (by decide) (by decide)
    obtain rfl := Except.ok.inj ((resolveOptions_eq_ok_iff.2 ho).symm.trans hoptions)
    obtain rfl := Except.ok.inj (hg.symm.trans hg')
    obtain rfl := Except.ok.inj (hout.symm.trans hout')
    refine ⟨back, hload fun _ => Yaml.Node.eq_of_same_found hsame, ?_⟩
    have hreread := congrArg (List.map (Option.map RecursesTo.reread)) hunsaid
    rw [hnodes, List.map_map]
    rwa [List.map_map] at hreread
  · apply (annotate_delivers {} desk _).1
    intro o ho
    cases resolveOptions_eq_ok_iff.2 ho
  · exact ⟨_, (annotate_delivers {} desk _).2.1 _ _ (hdefault _ _) rfl⟩
  · have hrun : ∃ g, Graph.load desk "astray" = .ok g ∧ okAnd
        (annotate {} g { mode := "only necessary", workers := 1 }) (fun _ => true) = false :=
      exists_ok_of_okAnd (by decide +kernel)
    obtain ⟨g, hg, hrefused⟩ := hrun
    cases hout : annotate {} g { mode := "only necessary", workers := 1 } with
    | error fault =>
        exact ⟨fault, (annotate_delivers {} desk _).2.2.1 _ g fault (hdefault _ _) hg hout⟩
    | ok x =>
        rw [hout] at hrefused
        cases hrefused

end Command

end MuxFlow
