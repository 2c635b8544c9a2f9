import Mathlib.Data.List.Chain
import Mathlib.Logic.Relation
import MuxFlow.Proofs.Walk.Enumerate

/-!
# The paths of a walk

A rule opens some edges at each frame: those that carry data into a port which the
rule lists there. A `Chain` is a path that gets from its start to each of its frames
along open edges and never comes to a place twice, and a `Maximal` chain is one that
no open edge leads on to a new place. These words do not say how paths are found. A
walk finds each maximal chain, and finds it once (`back_maximal`).

The step of a walk is `Grows`: one more frame along an open edge. The recursion
gives the paths that come of such steps and can take no further step
(`mem_enumerate_iff`), and what comes of steps from a start is a chain
(`grown_iff_chain`).
-/

namespace MuxFlow

theorem Edge.frame_injective : Function.Injective Edge.frame := by
  intro e e' h
  exact Option.some.inj (congrArg Frame.edge h)

namespace Walk

variable {g : Graph} {follow : Follow}

/-- The rule lets a walk that stands at `f` go on backward along `e`. -/
structure Open (g : Graph) (follow : Follow) (f : Frame) (e : Edge) : Prop where
  mem : e ∈ g.edges
  data : e.continuation = false
  target : e.target = f.node
  port : ∃ n ports, g.node f.node = .ok n ∧ follow n f.port = .ok ports ∧ e.targetPort ∈ ports

/-- A path from a start along open edges that comes to no place twice. -/
structure Chain (g : Graph) (follow : Follow) (start : Frame) (p : Path) : Prop where
  start : p.start? = some start
  steps : p.IsChain fun f' f => ∃ e, f' = e.frame ∧ Open g follow f e
  simple : p.places.Nodup

/-- A chain that no open edge leads on to a new place. -/
structure Maximal (g : Graph) (follow : Follow) (start : Frame) (p : Path) : Prop extends
    Chain g follow start p where
  ended : ∀ f, p.terminal? = some f → ∀ e, Open g follow f e → e.origin ∈ p.places

/-- One step of a walk. -/
def Grows (g : Graph) (follow : Follow) (p q : Path) : Prop :=
  ∃ f, p.terminal? = some f ∧ ∃ e, Open g follow f e ∧ e.origin ∉ p.places ∧ q = e.frame :: p

theorem mem_extensions_iff {p q : Path} {qs : List Path} (h : extensions g follow p = .ok qs) :
    q ∈ qs ↔ Grows g follow p q := by
  cases p with
  | nil =>
      obtain rfl := Except.ok.inj h
      simp [Grows, Path.terminal?]
  | cons f p =>
      obtain ⟨n, hn, h⟩ := bind_eq_ok_iff.1 h
      obtain ⟨ports, hports, h⟩ := bind_eq_ok_iff.1 h
      obtain rfl := Except.ok.inj h
      have hopen : ∀ e, e ∈ arrivals g f.node ports ↔ Open g follow f e := by
        intro e
        rw [mem_arrivals]
        constructor
        · rintro ⟨he, hdata, htarget, hport⟩
          exact ⟨he, hdata, htarget, n, ports, hn, hports, hport⟩
        · rintro ⟨he, hdata, htarget, n', ports', hn', hports', hport⟩
          obtain rfl := Except.ok.inj (hn.symm.trans hn')
          obtain rfl := Except.ok.inj (hports.symm.trans hports')
          exact ⟨he, hdata, htarget, hport⟩
      simp only [nextFrames, List.mem_map, List.mem_filter, decide_eq_true_eq]
      constructor
      · rintro ⟨_, ⟨⟨e, he, rfl⟩, hnew⟩, rfl⟩
        exact ⟨f, rfl, e, (hopen e).1 he, hnew, rfl⟩
      · rintro ⟨f', hf', e, he, hnew, rfl⟩
        obtain rfl := Option.some.inj hf'
        exact ⟨e.frame, ⟨⟨e, (hopen e).2 he, rfl⟩, hnew⟩, rfl⟩

/-- The recursion gives what comes of steps from a path and can take no further
step. -/
theorem mem_enumerate_iff {p q : Path} {paths : List Path}
    (h : enumerate g follow p = .ok paths) :
    q ∈ paths ↔ Relation.ReflTransGen (Grows g follow) p q ∧ ∀ r, ¬Grows g follow q r := by
  induction p using enumerate.induct g follow generalizing paths with
  | case1 p e hext =>
      rw [enumerate_of_error hext] at h
      cases h
  | case2 p hext =>
      rw [enumerate_of_nil hext] at h
      obtain rfl := Except.ok.inj h
      have hstuck : ∀ r, ¬Grows g follow p r := by
        intro r hr
        exact List.not_mem_nil ((mem_extensions_iff hext).2 hr)
      rw [List.mem_singleton]
      constructor
      · rintro rfl
        exact ⟨Relation.ReflTransGen.refl, hstuck⟩
      · rintro ⟨hpq, _⟩
        rcases hpq.cases_head with rfl | ⟨r, hr, _⟩
        · rfl
        · exact absurd hr (hstuck r)
  | case3 p r rs hext ih =>
      rw [enumerate_of_cons hext] at h
      obtain ⟨found, hfound, h⟩ := bind_eq_ok_iff.1 h
      obtain rfl := Except.ok.inj h
      rw [mapM_eq_ok_iff] at hfound
      rw [List.mem_flatten]
      constructor
      · rintro ⟨ps, hps, hq⟩
        obtain ⟨p', hp', henum⟩ := exists_of_mem_right hfound hps
        obtain ⟨hgrown, hstuck⟩ := (ih p' hp' henum).1 hq
        exact ⟨hgrown.head ((mem_extensions_iff hext).1 hp'), hstuck⟩
      · rintro ⟨hpq, hstuck⟩
        rcases hpq.cases_head with rfl | ⟨p', hstep, hgrown⟩
        · exact absurd ((mem_extensions_iff hext).1 List.mem_cons_self) (hstuck r)
        · have hp' := (mem_extensions_iff hext).2 hstep
          obtain ⟨ps, hps, henum⟩ := exists_of_mem_left hfound hp'
          exact ⟨ps, hps, (ih p' hp' henum).2 ⟨hgrown, hstuck⟩⟩

/-- What comes of steps from a start is a chain, and every chain comes of them. -/
theorem grown_iff_chain {start : Frame} {p : Path} :
    Relation.ReflTransGen (Grows g follow) [start] p ↔ Chain g follow start p := by
  constructor
  · intro h
    induction h with
    | refl => exact ⟨rfl, List.isChain_singleton _, by simp⟩
    | tail _ hstep ih =>
        obtain ⟨f, hf, e, he, hnew, rfl⟩ := hstep
        obtain ⟨rest, rfl⟩ := List.head?_eq_some_iff.1 hf
        refine ⟨?_, ih.steps.cons_cons ⟨e, rfl, he⟩, ?_⟩
        · rw [Path.start?, List.getLast?_cons_cons]
          exact ih.start
        · exact List.nodup_cons.2 ⟨hnew, ih.simple⟩
  · intro h
    induction p with
    | nil => cases h.start
    | cons f p ih =>
        cases p with
        | nil =>
            obtain rfl : f = start := Option.some.inj h.start
            exact Relation.ReflTransGen.refl
        | cons f' p =>
            obtain ⟨⟨e, rfl, he⟩, hsteps⟩ := List.isChain_cons_cons.1 h.steps
            obtain ⟨hnew, hsimple⟩ := List.nodup_cons.1 h.simple
            have hstart : Path.start? (f' :: p) = some start := by
              rw [Path.start?, ← List.getLast?_cons_cons]
              exact h.start
            exact (ih ⟨hstart, hsteps, hsimple⟩).tail ⟨f', rfl, e, he, hnew, rfl⟩

/-- What holds of the start and is carried along open edges holds of every frame. -/
theorem Chain.forall_mem {P : Frame → Prop} {start : Frame} {p : Path}
    (h : Chain g follow start p) (hstart : P start)
    (hstep : ∀ f e, P f → Open g follow f e → P e.frame) : ∀ f ∈ p, P f := by
  have hgrown := grown_iff_chain.2 h
  clear h
  induction hgrown with
  | refl => simpa using hstart
  | tail _ hgrows ih =>
      obtain ⟨f, hf, e, he, _, rfl⟩ := hgrows
      exact List.forall_mem_cons.2 ⟨hstep f e (ih f (List.mem_of_mem_head? hf)) he, ih⟩

/-- A frame of a chain is the start, and nothing comes after it, or it is where an edge
into the frame after it leads. -/
theorem Chain.after {start f : Frame} {before rest : List Frame}
    (h : Chain g follow start (before ++ f :: rest)) :
    (rest = [] ∧ f = start) ∨
      ∃ f' rest' e, rest = f' :: rest' ∧ f = e.frame ∧ Open g follow f' e := by
  cases rest with
  | nil =>
      have hlast := h.start
      rw [Path.start?, List.getLast?_concat] at hlast
      exact .inl ⟨rfl, Option.some.inj hlast⟩
  | cons f' rest =>
      obtain ⟨⟨e, he, hopen⟩, _⟩ :=
        List.isChain_cons_cons.1 (h.steps.suffix (List.suffix_append _ _))
      exact .inr ⟨f', rest, e, rfl, he, hopen⟩

/-- The paths of a walk that ends well are the maximal chains. -/
theorem mem_back_iff {n : Node} (hn : n ∈ g.nodes) {port : String} {paths : List Path}
    (h : back g n.id port follow = .ok paths) {p : Path} :
    p ∈ paths ↔ Maximal g follow ⟨n.id, port, none⟩ p := by
  have hport : n.direction port ≠ .none := by
    intro hnone
    rw [back, g.node_eq_ok_iff.2 ⟨hn, rfl⟩, ok_bind, if_pos hnone] at h
    cases h
  rw [back_eq_enumerate hn hport] at h
  rw [mem_enumerate_iff h, grown_iff_chain]
  constructor
  · rintro ⟨hchain, hstuck⟩
    refine ⟨hchain, ?_⟩
    intro f hf e he
    by_contra hnew
    exact hstuck _ ⟨f, hf, e, he, hnew, rfl⟩
  · rintro ⟨hchain, hended⟩
    refine ⟨hchain, ?_⟩
    rintro _ ⟨f, hf, e, he, hnew, rfl⟩
    exact hnew (hended f hf e he)

/-- A rule that never fails at the nodes of a graph never makes the search for
extensions fail, wherever a walk can stand. -/
theorem exists_extensions (hfollow : ∀ n ∈ g.nodes, ∀ port, ∃ ports, follow n port = .ok ports)
    {p : Path} (hp : ∀ f, p.terminal? = some f → g.hasNode f.node = true) :
    ∃ qs, extensions g follow p = .ok qs := by
  cases p with
  | nil => exact ⟨[], rfl⟩
  | cons f p =>
      obtain ⟨n, hn, hid⟩ := g.exists_node_of_hasNode (hp f rfl)
      obtain ⟨ports, hports⟩ := hfollow n hn f.port
      rw [extensions, g.node_eq_ok_iff.2 ⟨hn, hid⟩, ok_bind, hports, ok_bind]
      exact ⟨_, rfl⟩

theorem exists_enumerate (hfollow : ∀ n ∈ g.nodes, ∀ port, ∃ ports, follow n port = .ok ports)
    {p : Path} (hp : ∀ f, p.terminal? = some f → g.hasNode f.node = true) :
    ∃ paths, enumerate g follow p = .ok paths := by
  induction p using enumerate.induct g follow with
  | case1 p e hext =>
      obtain ⟨qs, hqs⟩ := exists_extensions hfollow hp
      rw [hext] at hqs
      cases hqs
  | case2 p hext => exact ⟨[p], enumerate_of_nil hext⟩
  | case3 p r rs hext ih =>
      have hall : ∀ q ∈ r :: rs, ∃ paths, enumerate g follow q = .ok paths := by
        intro q hq
        apply ih q hq
        intro f hf
        obtain ⟨_, _, e, he, _, rfl⟩ := (mem_extensions_iff hext).1 hq
        obtain rfl := Option.some.inj hf
        exact (g.closed e he.mem).1
      obtain ⟨found, hfound⟩ := exists_mapM_eq_ok_iff.2 hall
      rw [enumerate_of_cons hext, hfound]
      exact ⟨found.flatten, rfl⟩

theorem arrivals_nodup {node : String} {ports : List String} (h : ports.Nodup) :
    (arrivals g node ports).Nodup := by
  rw [arrivals, List.nodup_flatMap]
  constructor
  · intro port _
    exact (g.edges_nodup.filter _).filter _
  · apply h.imp
    intro a b hab e ha hb
    simp only [Graph.inEdges, List.mem_filter, decide_eq_true_eq] at ha hb
    exact hab (ha.1.2.2.symm.trans hb.1.2.2)

/-- A rule that lists no port twice makes no extension twice. -/
theorem extensions_nodup (hfollow : ∀ n ∈ g.nodes, ∀ port ports,
    follow n port = .ok ports → ports.Nodup) {p : Path} {qs : List Path}
    (h : extensions g follow p = .ok qs) : qs.Nodup := by
  cases p with
  | nil =>
      obtain rfl := Except.ok.inj h
      exact List.nodup_nil
  | cons f p =>
      obtain ⟨n, hn, h⟩ := bind_eq_ok_iff.1 h
      obtain ⟨ports, hports, h⟩ := bind_eq_ok_iff.1 h
      obtain rfl := Except.ok.inj h
      have hnodup := hfollow n (g.node_eq_ok_iff.1 hn).1 f.port ports hports
      apply List.Nodup.map
      · intro a b hab
        exact (List.cons.inj hab).1
      · exact ((arrivals_nodup hnodup).map Edge.frame_injective).filter _

theorem suffix_of_grown {p q : Path} (h : Relation.ReflTransGen (Grows g follow) p q) :
    p <:+ q := by
  induction h with
  | refl => exact List.suffix_rfl
  | tail _ hstep ih =>
      obtain ⟨_, _, e, _, _, rfl⟩ := hstep
      exact ih.trans (List.suffix_cons _ _)

theorem enumerate_nodup (hfollow : ∀ n ∈ g.nodes, ∀ port ports,
    follow n port = .ok ports → ports.Nodup) {p : Path} {paths : List Path}
    (h : enumerate g follow p = .ok paths) : paths.Nodup := by
  induction p using enumerate.induct g follow generalizing paths with
  | case1 p e hext =>
      rw [enumerate_of_error hext] at h
      cases h
  | case2 p hext =>
      rw [enumerate_of_nil hext] at h
      obtain rfl := Except.ok.inj h
      exact List.nodup_singleton p
  | case3 p r rs hext ih =>
      rw [enumerate_of_cons hext] at h
      obtain ⟨found, hfound, h⟩ := bind_eq_ok_iff.1 h
      obtain rfl := Except.ok.inj h
      rw [mapM_eq_ok_iff] at hfound
      rw [List.nodup_flatten]
      constructor
      · intro ps hps
        obtain ⟨q, hq, henum⟩ := exists_of_mem_right hfound hps
        exact ih q hq henum
      · -- two extensions of a path have the same length, so no path ends in both of them
        have hlen : ∀ q ∈ r :: rs, q.length = p.length + 1 := by
          intro q hq
          obtain ⟨_, _, _, _, _, rfl⟩ := (mem_extensions_iff hext).1 hq
          rfl
        have hdistinct : (r :: rs).Pairwise fun q q' =>
            q ≠ q' ∧ q.length = p.length + 1 ∧ q'.length = p.length + 1 :=
          (extensions_nodup hfollow hext).imp_of_mem fun hq hq' hne =>
            ⟨hne, hlen _ hq, hlen _ hq'⟩
        apply pairwise_of_forall₂ hfound hdistinct
        rintro q q' ps ps' ⟨hne, hq, hq'⟩ henum henum' x hx hx'
        have hsuf := suffix_of_grown ((mem_enumerate_iff henum).1 hx).1
        have hsuf' := suffix_of_grown ((mem_enumerate_iff henum').1 hx').1
        have hle := List.suffix_of_suffix_length_le hsuf hsuf' (hq.trans hq'.symm).le
        exact hne (hle.eq_of_length (hq.trans hq'.symm))

/-- From a declared port, and under a rule that never fails and lists no port twice, a
walk finds each maximal chain, and finds it once. -/
theorem back_maximal (g : Graph) (follow : Follow) (n : Node) (port : String)
    (hn : n ∈ g.nodes) (hport : n.direction port ≠ .none)
    (hfollow : ∀ m ∈ g.nodes, ∀ p, ∃ ports, follow m p = .ok ports ∧ ports.Nodup) :
    ∃ paths, back g n.id port follow = .ok paths ∧ paths.Nodup ∧
      ∀ p, p ∈ paths ↔ Maximal g follow ⟨n.id, port, none⟩ p := by
  have htotal : ∀ m ∈ g.nodes, ∀ p, ∃ ports, follow m p = .ok ports := by
    intro m hm p
    obtain ⟨ports, hports, _⟩ := hfollow m hm p
    exact ⟨ports, hports⟩
  have hnodup : ∀ m ∈ g.nodes, ∀ p ports, follow m p = .ok ports → ports.Nodup := by
    intro m hm p ports h
    obtain ⟨ports', hports', hnd⟩ := hfollow m hm p
    obtain rfl := Except.ok.inj (h.symm.trans hports')
    exact hnd
  have hstart : ∀ f, Path.terminal? [⟨n.id, port, none⟩] = some f → g.hasNode f.node = true := by
    intro f hf
    obtain rfl := Option.some.inj hf
    exact g.hasNode_of_mem hn
  obtain ⟨paths, hpaths⟩ := exists_enumerate htotal hstart
  have hback : back g n.id port follow = .ok paths := by
    rw [back_eq_enumerate hn hport, hpaths]
  exact ⟨paths, hback, enumerate_nodup hnodup hpaths, fun p => mem_back_iff hn hback⟩

/-- Two nodes on a ring, one of them with a loop of its own, joined by two edges on
one side. -/
def looped : Graph where
  nodes :=
    [{ id := "a", inputs := [⟨"x", ""⟩], outputs := [⟨"y", ""⟩] },
      { id := "b", inputs := [⟨"u", ""⟩, ⟨"v", ""⟩], outputs := [⟨"w", ""⟩] }]
  edges :=
    [⟨"a", "y", "b", "u", "upper", false, false⟩, ⟨"a", "y", "b", "u", "lower", false, false⟩,
      ⟨"b", "w", "b", "v", "loop", false, false⟩, ⟨"b", "w", "a", "x", "back", false, false⟩]
  id_ne_empty := by decide
  ids_nodup := by decide
  kind_eq_mux := by decide
  name_ne_empty := by decide
  names_nodup := by decide
  closed := by decide

/-- Either of the two edges may be taken before or after the far place on the ring. -/
theorem back_looped : ∃ paths, back looped "b" "u" (fun n _ => .ok n.inputNames) = .ok paths ∧
    paths.length = 4 ∧ paths.Nodup ∧
      ∀ p, p ∈ paths ↔ Maximal looped (fun n _ => .ok n.inputNames) ⟨"b", "u", none⟩ p := by
  have hnames : ∀ m ∈ looped.nodes, m.inputNames.Nodup := by decide
  obtain ⟨paths, hback, hnodup, hmax⟩ :=
    back_maximal looped (fun n _ => .ok n.inputNames) looped.nodes[1] "u" (by decide) (by decide)
      fun m hm _ => ⟨m.inputNames, rfl, hnames m hm⟩
  have hlen : okAnd (back looped "b" "u" fun n _ => .ok n.inputNames)
      (fun ps => decide (ps.length = 4)) = true := by decide +kernel
  rw [show back looped "b" "u" (fun n _ => .ok n.inputNames) = .ok paths from hback] at hlen
  exact ⟨paths, hback, of_decide_eq_true hlen, hnodup, hmax⟩

end Walk

end MuxFlow
