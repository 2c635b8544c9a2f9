import Mathlib.Data.List.Perm.Subperm
import Mathlib.Logic.Relation
import MuxFlow.Proofs.Graph.Repair
import MuxFlow.Proofs.Yaml.Notation

/-!
# Which documents are read to an end

Writing the JSON text of a document is a recursion: a collection is written part by part,
up to the first part that has no text, and an alias is written by writing the node that
it points to. Nothing gets smaller when an alias is followed. `SerialTree.write?` is this
recursion, stopped at a depth.

A node calls the nodes whose texts it asks for (`SerialTree.Calls`). The recursion comes
to an end exactly when no node that is called from the root calls itself, directly or
through others (`SerialTree.endless_iff`, `SerialTree.ends_iff`). An alias that stands in
the node it points to need not lead to such a node: it may be a key, which is taken as it
is spelled, or come after a part that has no text.

Reading puts targets in the places of aliases and stops where one would be put into
itself. Where the recursion ends it has the same result (`SerialTree.eq_of_write?`), and
where it does not, reading has no end to report but that (`Graph.readYaml_ends_iff`).
-/

namespace MuxFlow

open Relation (ReflTransGen TransGen)

namespace Yaml

/-- What writing ends with: a text, or why there is none. -/
abbrev Written := Except NoValue (List Char)

/-- Writing was given up because it would not end. -/
def Written.Endless (r : Written) : Prop := ∃ name, r = .error (.endless name)

theorem Written.endless_map {r : Written} {g : List Char → List Char} :
    Written.Endless (r.map g) ↔ r.Endless := by
  cases r with
  | error e => rfl
  | ok text => exact ⟨fun ⟨_, h⟩ => (nomatch h), fun ⟨_, h⟩ => (nomatch h)⟩

namespace Serial

/-- The text of a node that stands as a key. -/
def keyText : Serial → String
  | scalar _ s => s
  | aliasOf name _ => name
  | _ => ""

/-- The parts of a collection, with what is written in front of each. -/
def parts : Serial → List (List Char × Serial)
  | sequence items => items.map fun n => ([], n)
  | mapping entries => entries.map fun e => (Json.literal true e.1.keyText ++ [':'], e.2)
  | _ => []

def isCollection : Serial → Bool
  | sequence _ | mapping _ => true
  | _ => false

/-- The text of a collection whose parts have a text. -/
def enclose : Serial → List Char → List Char
  | mapping _, text => '\x7b' :: (text ++ ['\x7d'])
  | _, text => '[' :: (text ++ [']'])

theorem sort (n : Serial) :
    (∃ tag s, n = .scalar tag s) ∨ (∃ name k, n = .aliasOf name k) ∨ n.isCollection = true := by
  cases n with
  | scalar tag s => exact .inl ⟨tag, s, rfl⟩
  | aliasOf name k => exact .inr (.inl ⟨name, k, rfl⟩)
  | sequence items => exact .inr (.inr rfl)
  | mapping entries => exact .inr (.inr rfl)

theorem sizeOf_lt_of_mem_parts {n : Serial} {p : List Char × Serial} (h : p ∈ n.parts) :
    sizeOf p.2 < sizeOf n := by
  cases n with
  | scalar tag s => cases h
  | aliasOf name k => cases h
  | sequence items =>
      obtain ⟨m, hm, rfl⟩ := List.mem_map.1 h
      have hlt := List.sizeOf_lt_of_mem hm
      simp only [sequence.sizeOf_spec]
      omega
  | mapping entries =>
      obtain ⟨⟨k, m⟩, hm, rfl⟩ := List.mem_map.1 h
      have hlt := List.sizeOf_lt_of_mem hm
      simp only [mapping.sizeOf_spec, Prod.mk.sizeOf_spec] at hlt ⊢
      omega

/-- What holds of a node whenever it holds of its parts holds of every node. -/
theorem byParts {P : Serial → Prop} (n : Serial)
    (step : ∀ n : Serial, (∀ p ∈ n.parts, P p.2) → P n) : P n :=
  step n fun p _hp => byParts p.2 step
termination_by sizeOf n
decreasing_by exact sizeOf_lt_of_mem_parts _hp

theorem isCollection_of_mem_parts {n : Serial} {p : List Char × Serial} (h : p ∈ n.parts) :
    n.isCollection = true := by
  obtain ⟨tag, s, rfl⟩ | ⟨name, k, rfl⟩ | hn := n.sort
  · cases h
  · cases h
  · exact hn

end Serial

open Serial (fill)

/-! ## The recursion -/

/-- Writes parts one after another, up to the first one that has no text; `call` writes
one of them. -/
def writeParts? (call : Serial → Option Written) (first : Bool) :
    List (List Char × Serial) → Option Written
  | [] => some (.ok [])
  | (label, n) :: ps =>
    match call n with
    | some (.ok text) =>
      (writeParts? call false ps).map
        (Except.map fun rest => (if first then [] else [',']) ++ (label ++ (text ++ rest)))
    | other => other

namespace SerialTree

/-- What is written for a node, if calls are nested less deep than the given bound. -/
def write? (t : SerialTree) : Nat → Serial → Option Written
  | 0, _ => none
  | depth + 1, n =>
    match n with
    | .scalar tag s =>
      match scalarJson? tag s with
      | some v => some (.ok v.compact)
      | none => some (.error (.meaningless s))
    | .aliasOf _ k => t.write? depth (t.target k)
    | n => (writeParts? (t.write? depth) true n.parts).map (Except.map n.enclose)

/-- To write a node, another one has to be written: the target of an alias, and a part of
a collection if the parts before it have texts. -/
inductive Calls (t : SerialTree) : Serial → Serial → Prop
  | aliasOf (name : String) (k : Nat) : t.Calls (.aliasOf name k) (t.target k)
  | part {n : Serial} {before after : List (List Char × Serial)} {p : List Char × Serial}
      (split : n.parts = before ++ p :: after)
      (written : ∀ b ∈ before, ∃ depth text, t.write? depth b.2 = some (.ok text)) :
      t.Calls n p.2

variable {t : SerialTree} {n x : Serial} {r : Written} {depth : Nat}

theorem write?_collection (h : n.isCollection = true) :
    t.write? (depth + 1) n =
      (writeParts? (t.write? depth) true n.parts).map (Except.map n.enclose) := by
  cases n with
  | scalar tag s => cases h
  | aliasOf name k => cases h
  | sequence items => rfl
  | mapping entries => rfl

theorem write?_scalar (tag s : String) :
    t.write? (depth + 1) (.scalar tag s) = some (Node.scalar tag s).jsonText := by
  simp only [write?, Node.jsonText]
  cases scalarJson? tag s <;> rfl

theorem writeParts?_mono {call call' : Serial → Option Written}
    (hcall : ∀ n r, call n = some r → call' n = some r) {first : Bool}
    {ps : List (List Char × Serial)} (h : writeParts? call first ps = some r) :
    writeParts? call' first ps = some r := by
  induction ps generalizing first r with
  | nil => exact h
  | cons p ps ih =>
      unfold writeParts? at h ⊢
      cases hp : call p.2 with
      | none => rw [hp] at h; cases h
      | some w =>
          rw [hcall _ _ hp]
          rw [hp] at h
          cases w with
          | error e => exact h
          | ok text =>
              obtain ⟨rest, hrest, rfl⟩ := Option.map_eq_some_iff.1 h
              simp only [ih hrest, Option.map_some]

/-! ## More depth changes nothing -/

theorem write?_succ (h : t.write? depth n = some r) : t.write? (depth + 1) n = some r := by
  induction depth generalizing n r with
  | zero => cases h
  | succ depth ih =>
      obtain ⟨tag, s, rfl⟩ | ⟨name, k, rfl⟩ | hn := n.sort
      · exact h
      · exact ih h
      · rw [write?_collection hn] at h ⊢
        obtain ⟨w, hw, rfl⟩ := Option.map_eq_some_iff.1 h
        rw [writeParts?_mono (fun n r => ih) hw]
        rfl

theorem write?_mono {depth' : Nat} (h : t.write? depth n = some r) (hle : depth ≤ depth') :
    t.write? depth' n = some r := by
  induction hle with
  | refl => exact h
  | step _ ih => exact write?_succ ih

theorem write?_unique {depth' : Nat} {r' : Written} (h : t.write? depth n = some r)
    (h' : t.write? depth' n = some r') : r = r' := by
  have hmax := write?_mono h (Nat.le_max_left depth depth')
  have hmax' := write?_mono h' (Nat.le_max_right depth depth')
  exact Option.some.inj (hmax.symm.trans hmax')

/-! ## A call ends before its caller -/

/-- Parts are written up to the first one without a text. -/
theorem exists_of_writeParts? {call : Serial → Option Written} {first : Bool}
    {before after : List (List Char × Serial)} {p : List Char × Serial}
    (h : writeParts? call first (before ++ p :: after) = some r)
    (hbefore : ∀ b ∈ before, ∀ w, call b.2 = some w → ∃ text, w = .ok text) :
    ∃ w, call p.2 = some w := by
  induction before generalizing first r with
  | nil =>
      rw [List.nil_append, writeParts?] at h
      cases hp : call p.2 with
      | none => rw [hp] at h; cases h
      | some w => exact ⟨w, rfl⟩
  | cons b before ih =>
      obtain ⟨hb, hbefore⟩ := List.forall_mem_cons.1 hbefore
      rw [List.cons_append, writeParts?] at h
      cases hcall : call b.2 with
      | none => rw [hcall] at h; cases h
      | some w =>
          obtain ⟨text, rfl⟩ := hb w hcall
          rw [hcall] at h
          obtain ⟨rest, hrest, -⟩ := Option.map_eq_some_iff.1 h
          exact ih hrest hbefore

theorem exists_lt_of_calls (hc : t.Calls n x) (h : t.write? depth n = some r) :
    ∃ d < depth, ∃ w, t.write? d x = some w := by
  cases depth with
  | zero => cases h
  | succ depth =>
      refine ⟨depth, Nat.lt_succ_self depth, ?_⟩
      cases hc with
      | aliasOf name k => exact ⟨r, h⟩
      | @part _ before after p split written =>
          have hn : n.isCollection = true :=
            Serial.isCollection_of_mem_parts (p := p) (by simp [split])
          rw [write?_collection hn, split] at h
          obtain ⟨w, hw, -⟩ := Option.map_eq_some_iff.1 h
          apply exists_of_writeParts? hw
          intro b hb w' hw'
          obtain ⟨d, text, htext⟩ := written b hb
          exact ⟨text, write?_unique hw' htext⟩

theorem exists_lt_of_transGen (hc : TransGen t.Calls n x) (h : t.write? depth n = some r) :
    ∃ d < depth, ∃ w, t.write? d x = some w := by
  induction hc with
  | single hc => exact exists_lt_of_calls hc h
  | tail _ hc ih =>
      obtain ⟨d, hd, w, hw⟩ := ih
      obtain ⟨d', hd', hw'⟩ := exists_lt_of_calls hc hw
      exact ⟨d', hd'.trans hd, hw'⟩

/-- A node that calls itself is never written. -/
theorem write?_eq_none_of_cycle (hc : TransGen t.Calls n n) (depth : Nat) :
    t.write? depth n = none := by
  induction depth using Nat.strongRecOn with
  | ind depth ih =>
      cases h : t.write? depth n with
      | none => rfl
      | some r =>
          obtain ⟨d, hd, w, hw⟩ := exists_lt_of_transGen hc h
          rw [ih d hd] at hw
          cases hw

theorem write?_eq_none_of_reach (hx : ReflTransGen t.Calls n x) (hc : TransGen t.Calls x x)
    (depth : Nat) : t.write? depth n = none := by
  rcases Relation.reflTransGen_iff_eq_or_transGen.1 hx with rfl | hx
  · exact write?_eq_none_of_cycle hc depth
  · cases h : t.write? depth n with
    | none => rfl
    | some r =>
        obtain ⟨d, -, w, hw⟩ := exists_lt_of_transGen hx h
        rw [write?_eq_none_of_cycle hc] at hw
        cases hw

/-! ## With targets in the places of aliases -/

section
variable {f : Serial → Written} {target : Nat → Option Node} {first : Bool}
  {ps : List (List Char × Serial)}

theorem writeParts?_items (first : Bool) (items : List Serial) :
    writeParts? (fun n => some (fill target n).jsonText) first (items.map fun n => ([], n)) =
      some (Node.itemsText first (Serial.fillItems target items)) := by
  induction items generalizing first with
  | nil => rfl
  | cons n ns ih =>
      simp only [List.map_cons, writeParts?, Serial.fillItems, Node.itemsText]
      cases (fill target n).jsonText with
      | error e => rfl
      | ok text =>
          simp only [ih]
          cases Node.itemsText false (Serial.fillItems target ns) <;> rfl

theorem not_endless_scalar (tag s : String) :
    ¬Written.Endless (fill target (.scalar tag s)).jsonText := by
  rintro ⟨name, h⟩
  rw [fill, Node.jsonText] at h
  cases hv : scalarJson? tag s <;> rw [hv] at h <;> cases h

theorem keyText_fill (n : Serial) : (fill target n).keyText = n.keyText := by
  cases n <;> rfl

theorem writeParts?_entries (first : Bool) (entries : List (Serial × Serial)) :
    writeParts? (fun n => some (fill target n).jsonText) first
        (entries.map fun e => (Json.literal true e.1.keyText ++ [':'], e.2)) =
      some (Node.entriesText first (Serial.fillEntries target entries)) := by
  induction entries generalizing first with
  | nil => rfl
  | cons e es ih =>
      simp only [List.map_cons, writeParts?, Serial.fillEntries, Node.entriesText, keyText_fill]
      cases (fill target e.2).jsonText with
      | error e => rfl
      | ok text =>
          simp only [ih]
          cases Node.entriesText false (Serial.fillEntries target es) with
          | error e => rfl
          | ok rest => simp [Except.map, bind, Except.bind, pure, Except.pure]

/-- The text of a collection is made of the texts of its parts. -/
theorem exists_writeParts_fill (target : Nat → Option Node) (hn : n.isCollection = true) :
    ∃ w, writeParts? (fun n => some (fill target n).jsonText) true n.parts = some w ∧
      (fill target n).jsonText = w.map n.enclose := by
  cases n with
  | scalar tag s => cases hn
  | aliasOf name k => cases hn
  | sequence items => exact ⟨_, writeParts?_items true items, rfl⟩
  | mapping entries => exact ⟨_, writeParts?_entries true entries, rfl⟩

/-- Parts are written at some depth if each of them is, as far as it comes to them. -/
theorem exists_depth_of_parts (first : Bool)
    (hps : ∀ p ∈ ps, ¬(f p.2).Endless → ∃ depth, t.write? depth p.2 = some (f p.2))
    (h : writeParts? (fun n => some (f n)) first ps = some r) (hr : ¬r.Endless) :
    ∃ depth, writeParts? (t.write? depth) first ps = some r := by
  induction ps generalizing first r with
  | nil => exact ⟨0, h⟩
  | cons p ps ih =>
      obtain ⟨hp, hps⟩ := List.forall_mem_cons.1 hps
      unfold writeParts? at h ⊢
      cases hf : f p.2 with
      | error e =>
          rw [hf] at h hp
          obtain rfl := Option.some.inj h
          obtain ⟨depth, hdepth⟩ := hp hr
          refine ⟨depth, ?_⟩
          rw [hdepth]
      | ok text =>
          rw [hf] at h hp
          obtain ⟨rest, hrest, rfl⟩ := Option.map_eq_some_iff.1 h
          obtain ⟨d, hd⟩ := hp fun ⟨_, he⟩ => nomatch he
          obtain ⟨d', hd'⟩ := ih false hps hrest fun he => hr (Written.endless_map.2 he)
          refine ⟨max d d', ?_⟩
          rw [write?_mono hd (Nat.le_max_left d d')]
          simp only [writeParts?_mono
            (fun n r hn => write?_mono hn (Nat.le_max_right d d')) hd', Option.map_some]

/-- Where parts do not end, one of them does not, and those before it have texts. -/
theorem exists_endless_part
    (h : writeParts? (fun n => some (f n)) first ps = some r) (hr : r.Endless) :
    ∃ before p after, ps = before ++ p :: after ∧ (∀ b ∈ before, ∃ text, f b.2 = .ok text) ∧
      (f p.2).Endless := by
  induction ps generalizing first r with
  | nil =>
      obtain ⟨_, rfl⟩ := hr
      cases h
  | cons p ps ih =>
      unfold writeParts? at h
      cases hf : f p.2 with
      | error e =>
          rw [hf] at h
          obtain rfl := Option.some.inj h
          exact ⟨[], p, ps, rfl, by simp, hf ▸ hr⟩
      | ok text =>
          rw [hf] at h
          obtain ⟨rest, hrest, rfl⟩ := Option.map_eq_some_iff.1 h
          obtain ⟨before, q, after, rfl, hbefore, hq⟩ := ih hrest (Written.endless_map.1 hr)
          exact ⟨p :: before, q, after, rfl, List.forall_mem_cons.2 ⟨⟨text, hf⟩, hbefore⟩, hq⟩

/-- Targets are what the recursion writes for the nodes that they stand for. -/
def Faithful (t : SerialTree) (target : Nat → Option Node) : Prop :=
  ∀ k m, target k = some m → ¬Written.Endless m.jsonText →
    ∃ depth, t.write? depth (t.target k) = some m.jsonText

theorem exists_write_of_faithful (htarget : t.Faithful target) (n : Serial) :
    ¬Written.Endless (fill target n).jsonText →
      ∃ depth, t.write? depth n = some (fill target n).jsonText := by
  induction n using Serial.byParts with
  | step n ih =>
      intro hends
      obtain ⟨tag, s, rfl⟩ | ⟨name, k, rfl⟩ | hn := n.sort
      · exact ⟨1, write?_scalar tag s⟩
      · rw [fill] at hends ⊢
        cases hk : target k with
        | none =>
            rw [hk] at hends
            exact absurd ⟨name, rfl⟩ hends
        | some m =>
            rw [hk] at hends
            obtain ⟨depth, hdepth⟩ := htarget k m hk hends
            exact ⟨depth + 1, hdepth⟩
      · obtain ⟨w, hw, htext⟩ := exists_writeParts_fill target hn
        rw [htext] at hends ⊢
        obtain ⟨depth, hdepth⟩ := exists_depth_of_parts true ih hw fun he =>
          hends (Written.endless_map.2 he)
        refine ⟨depth + 1, ?_⟩
        rw [write?_collection hn, hdepth]
        rfl

/-- Where a node does not end, it comes to an alias whose target is missing or does not
end. -/
theorem exists_alias_of_endless (htarget : t.Faithful target) (n : Serial) :
    Written.Endless (fill target n).jsonText →
      ∃ name k, ReflTransGen t.Calls n (.aliasOf name k) ∧
        ∀ m, target k = some m → Written.Endless m.jsonText := by
  induction n using Serial.byParts with
  | step n ih =>
      intro hendless
      obtain ⟨tag, s, rfl⟩ | ⟨name, k, rfl⟩ | hn := n.sort
      · exact absurd hendless (not_endless_scalar tag s)
      · refine ⟨name, k, .refl, ?_⟩
        intro m hm
        rw [fill, hm] at hendless
        exact hendless
      · obtain ⟨w, hw, htext⟩ := exists_writeParts_fill target hn
        rw [htext, Written.endless_map] at hendless
        obtain ⟨before, p, after, hsplit, hbefore, hp⟩ := exists_endless_part hw hendless
        have hcalls : t.Calls n p.2 := by
          apply Calls.part hsplit
          intro b hb
          obtain ⟨text, htext⟩ := hbefore b hb
          obtain ⟨depth, hdepth⟩ := exists_write_of_faithful htarget b.2 fun ⟨_, he⟩ =>
            (nomatch htext.symm.trans he)
          exact ⟨depth, text, htext ▸ hdepth⟩
        obtain ⟨name, k, hreach, hk⟩ := ih p (by simp [hsplit]) hp
        exact ⟨name, k, .head hcalls hreach, hk⟩

end

theorem faithful_within (t : SerialTree) (fuel : Nat) (opened : List Nat) :
    t.Faithful (t.within fuel opened) := by
  induction fuel generalizing opened with
  | zero => exact fun k m hm => nomatch hm
  | succ fuel ih =>
      intro k m hm hends
      rw [within] at hm
      split at hm
      · cases hm
      · obtain rfl := Option.some.inj hm
        exact exists_write_of_faithful (ih (k :: opened)) (t.target k) hends

theorem anchor_lt_of_endless {target : Nat → Option Node} {k : Nat}
    (h : Written.Endless (fill target (t.target k)).jsonText) : k < t.anchored.length := by
  by_contra hk
  have hnull : t.target k = .scalar "!!null" "" := by
    simp [SerialTree.target, List.getElem?_eq_none (Nat.le_of_not_lt hk)]
  rw [hnull] at h
  exact not_endless_scalar _ _ h

/-- While the nodes with the anchors in `opened` are being put in, each of them calls the
node at which that is. An alias of one of them closes a cycle, and there is always fuel
for the others. -/
theorem exists_cycle_of_endless (t : SerialTree) {fuel : Nat} (opened : List Nat) (n : Serial)
    (hnodup : opened.Nodup) (hopened : ∀ k ∈ opened, k < t.anchored.length)
    (hcalls : ∀ k ∈ opened, ReflTransGen t.Calls (t.target k) n)
    (hfuel : t.anchored.length < fuel + opened.length)
    (h : Written.Endless (fill (t.within fuel opened) n).jsonText) :
    ∃ x, ReflTransGen t.Calls n x ∧ TransGen t.Calls x x := by
  induction fuel generalizing opened n with
  | zero =>
      have hle : opened.length ≤ (List.range t.anchored.length).length :=
        (hnodup.subperm fun k hk => List.mem_range.2 (hopened k hk)).length_le
      rw [List.length_range] at hle
      omega
  | succ fuel ih =>
      obtain ⟨name, k, hreach, hk⟩ := exists_alias_of_endless (t.faithful_within _ opened) n h
      have halias : t.Calls (.aliasOf name k) (t.target k) := .aliasOf name k
      by_cases hmem : k ∈ opened
      · exact ⟨_, hreach, .head' halias ((hcalls k hmem).trans hreach)⟩
      · have hendless := hk _ (by rw [within, if_neg hmem])
        obtain ⟨x, hx, hcycle⟩ := ih (k :: opened) (t.target k)
          (List.nodup_cons.2 ⟨hmem, hnodup⟩)
          (List.forall_mem_cons.2 ⟨anchor_lt_of_endless hendless, hopened⟩)
          (List.forall_mem_cons.2 ⟨.refl, fun j hj => ((hcalls j hj).trans hreach).tail halias⟩)
          (by rw [List.length_cons]; omega) hendless
        exact ⟨x, (hreach.tail halias).trans hx, hcycle⟩

theorem exists_write? (t : SerialTree) (h : ¬Written.Endless t.node.jsonText) :
    ∃ depth, t.write? depth t.root = some t.node.jsonText :=
  exists_write_of_faithful (t.faithful_within _ []) t.root h

theorem endless_iff (t : SerialTree) :
    Written.Endless t.node.jsonText ↔
      ∃ x, ReflTransGen t.Calls t.root x ∧ TransGen t.Calls x x := by
  constructor
  · exact t.exists_cycle_of_endless [] t.root List.nodup_nil (by simp) (by simp) (by simp)
  · rintro ⟨x, hx, hcycle⟩
    by_contra hends
    obtain ⟨depth, h⟩ := t.exists_write? hends
    rw [write?_eq_none_of_reach hx hcycle] at h
    cases h

theorem ends_iff (t : SerialTree) :
    (∃ depth r, t.write? depth t.root = some r) ↔ ¬Written.Endless t.node.jsonText := by
  constructor
  · rintro ⟨depth, r, h⟩ hendless
    obtain ⟨x, hx, hcycle⟩ := t.endless_iff.1 hendless
    rw [write?_eq_none_of_reach hx hcycle] at h
    cases h
  · intro hends
    obtain ⟨depth, h⟩ := t.exists_write? hends
    exact ⟨depth, _, h⟩

/-- Where the recursion comes to an end, it has written the node of the document. -/
theorem eq_of_write? (h : t.write? depth t.root = some r) : t.node.jsonText = r := by
  obtain ⟨depth', h'⟩ := t.exists_write? (t.ends_iff.1 ⟨depth, r, h⟩)
  exact write?_unique h' h

end SerialTree

end Yaml

namespace Document

theorem NodeEntry.node_ne_endless (e : NodeEntry) : e.node ≠ .error .endless := by
  unfold node
  split
  · nofun
  · split <;> nofun

theorem addEntry_ne_endless (b : Builder) (e : NodeEntry) : addEntry b e ≠ .error .endless := by
  intro h
  rcases bind_eq_error_iff.1 h with h | ⟨n, _, h⟩
  · exact e.node_ne_endless h
  · unfold Builder.addNode at h
    split at h
    · cases h
    · split at h <;> cases h

theorem graph_ne_endless (d : Document) : d.graph ≠ .error .endless := by
  intro h
  rcases bind_eq_error_iff.1 h with h | ⟨b, _, h⟩
  · obtain ⟨b, e, _, hentry⟩ := exists_of_foldlM_eq_error h
    exact addEntry_ne_endless b e hentry
  · cases ((Builder.build_eq_error_iff _ _).1 h).2

end Document

namespace Graph

open Yaml (SerialTree Written)

theorem ofYaml_eq_endless_iff (n : Yaml.Node) :
    ofYaml n = .error .endless ↔ Written.Endless n.jsonText := by
  rw [Yaml.Node.jsonText_eq]
  unfold ofYaml
  cases n.toJson with
  | error e =>
      cases e with
      | meaningless s => exact ⟨nofun, fun ⟨_, h⟩ => (nomatch h)⟩
      | endless name => exact ⟨fun _ => ⟨name, rfl⟩, fun _ => rfl⟩
  | ok v =>
      refine ⟨?_, fun ⟨_, h⟩ => (nomatch h)⟩
      dsimp only
      split
      · nofun
      · unfold ofJson
        split
        · nofun
        · exact fun h => absurd h (Document.graph_ne_endless _)

theorem readYaml_eq_endless_iff (source : Text.Source) :
    readYaml source = .error .endless ↔
      ∃ t, SerialTree.read? source = some (some t) ∧ ∀ depth, t.write? depth t.root = none := by
  unfold readYaml Yaml.Node.read?
  cases SerialTree.read? source with
  | none => exact ⟨nofun, fun ⟨_, h, _⟩ => (nomatch h)⟩
  | some found =>
      cases found with
      | none => exact ⟨nofun, fun ⟨_, h, _⟩ => (nomatch h)⟩
      | some t =>
          have hnever : (∀ depth, t.write? depth t.root = none) ↔
              ¬∃ depth r, t.write? depth t.root = some r := by
            simp only [not_exists, Option.eq_none_iff_forall_ne_some, ne_eq]
          simp only [Option.map_some, ofYaml_eq_endless_iff, Option.some.injEq, exists_eq_left',
            hnever, t.ends_iff, not_not]

/-- Reading a YAML file comes to no end exactly when the file has a document that the
recursion never comes to the end of. That is so when some node that is called from the
root calls itself; otherwise what is written is the text of the document. -/
theorem readYaml_ends_iff (source : Text.Source) :
    (readYaml source = .error .endless ↔
      ∃ t, SerialTree.read? source = some (some t) ∧
        ∀ depth, t.write? depth t.root = none) ∧
    ∀ t, SerialTree.read? source = some (some t) →
      ((∃ depth r, t.write? depth t.root = some r) ↔
        ¬∃ n, ReflTransGen t.Calls t.root n ∧ TransGen t.Calls n n) ∧
      ∀ depth r, t.write? depth t.root = some r → t.node.jsonText = r := by
  refine ⟨readYaml_eq_endless_iff source, ?_⟩
  intro t _
  rw [t.ends_iff, t.endless_iff]
  exact ⟨Iff.rfl, fun depth r => SerialTree.eq_of_write?⟩

/-- An alias in a key of the node that it points to. -/
def aliasInKey : Text.Source := .ofString "nodes: &x \x7b? [*x] : 1\x7d\nedges: *x\n"

theorem readYaml_aliasInKey :
    readYaml aliasInKey ≠ .error .endless ∧
      ∃ t, SerialTree.read? aliasInKey = some (some t) ∧
        (¬∃ n, ReflTransGen t.Calls t.root n ∧ TransGen t.Calls n n) ∧
        t.node.jsonText.toOption =
          some "\x7b\"nodes\":\x7b\"\":1\x7d,\"edges\":\x7b\"\":1\x7d\x7d".toList := by
  have hread : ((SerialTree.read? aliasInKey).any fun found => found.any fun t =>
      (t.write? 4 t.root).any fun r => r.toOption ==
        some "\x7b\"nodes\":\x7b\"\":1\x7d,\"edges\":\x7b\"\":1\x7d\x7d".toList) = true := by
    decide +kernel
  simp only [Option.any_eq_true, beq_iff_eq] at hread
  obtain ⟨_, hdocument, t, rfl, r, hwritten, htext⟩ := hread
  obtain ⟨hendless, hwhen⟩ := readYaml_ends_iff aliasInKey
  obtain ⟨hends, hresult⟩ := hwhen t hdocument
  refine ⟨?_, t, hdocument, hends.1 ⟨4, r, hwritten⟩, ?_⟩
  · intro h
    obtain ⟨t', hdocument', hnever⟩ := hendless.1 h
    obtain rfl : t = t' := by simpa [hdocument] using hdocument'
    rw [hnever 4] at hwritten
    cases hwritten
  · rw [hresult 4 r hwritten, htext]

/-- A node that is an item of itself. -/
def itemOfItself : Text.Source := .ofString "nodes: &x [*x]\n"

theorem not_readYaml_ends :
    readYaml itemOfItself = .error .endless ∧
      ∃ t, SerialTree.read? itemOfItself = some (some t) ∧
        ∀ depth, t.write? depth t.root = none := by
  have hread : (match readYaml itemOfItself with
      | .error .endless => true
      | _ => false) = true := by decide +kernel
  have hendless : readYaml itemOfItself = .error .endless := by
    split at hread
    · assumption
    · cases hread
  exact ⟨hendless, (readYaml_eq_endless_iff itemOfItself).1 hendless⟩

end Graph

end MuxFlow
