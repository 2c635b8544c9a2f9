import MuxFlow.Proofs.Json.Literal

/-!
# Values are read back

A text is read as a value, `ReadsAs n text v`, when the reader, wherever it expects
a value and has room for `n` more containers, takes the text and then stands where
it stands after `v`. The two layouts differ in blanks and in how much they escape,
and neither matters to the reader: `ReadsAs.arr` and `ReadsAs.obj` say how containers
are read, whatever blanks there are between their parts, and both layouts are cases
of them. Numbers are left out. They are written in a normal form, so what is read
back is the same number but need not be the same `Decimal`.
-/

namespace MuxFlow.Json

open State

/-- A value without numbers that has at most so many containers inside one
another. -/
inductive Fits : Nat → Json → Prop
  | null {n : Nat} : Fits n .null
  | bool {n : Nat} (b : Bool) : Fits n (.bool b)
  | str {n : Nat} (s : String) : Fits n (.str s)
  | arr {n : Nat} {items : List Json} (h : ∀ v ∈ items, Fits n v) : Fits (n + 1) (.arr items)
  | obj {n : Nat} {members : List (String × Json)} (h : ∀ m ∈ members, Fits n m.2) :
      Fits (n + 1) (.obj members)

/-- Wherever there is room for `n` containers, the text is taken as the value. -/
def ReadsAs (n : Nat) (text : List Char) (v : Json) : Prop :=
  ∀ first outer cs, outer.length + n ≤ maxDepth →
    run? (.value first outer) (text ++ cs) = run? (give v outer) cs

/-- Nothing but blanks. -/
def Blanks (ws : List Char) : Prop := ∀ c ∈ ws, isBlank c = true

theorem blanks_nil : Blanks [] := by
  intro c hc
  cases hc

theorem blanks_newline (depth : Nat) : Blanks (newline depth) := by
  intro c hc
  rcases List.mem_cons.1 hc with rfl | hc
  · rfl
  · rw [List.eq_of_mem_replicate hc]
    rfl

theorem blanks_space : Blanks [' '] := by
  intro c hc
  rw [List.mem_singleton.1 hc]
  rfl

namespace State

/-- Blanks do not matter to a state that passes them over. -/
theorem run?_blanks {s : State} (hs : ∀ c, isBlank c = true → step? s c = some s)
    {ws : List Char} (hws : Blanks ws) (cs : List Char) : run? s (ws ++ cs) = run? s cs := by
  induction ws with
  | nil => rfl
  | cons c ws ih =>
      rw [List.cons_append, run?_cons (hs c (hws c List.mem_cons_self))]
      exact ih fun d hd => hws d (List.mem_cons_of_mem c hd)

theorem step?_value_blank (first : Bool) (outer : List Frame) {c : Char}
    (hc : isBlank c = true) : step? (value first outer) c = some (value first outer) := by
  simp [step?, hc]

theorem step?_key_blank (first : Bool) (members : List (String × Json)) (outer : List Frame)
    {c : Char} (hc : isBlank c = true) :
    step? (key first members outer) c = some (key first members outer) := by
  simp [step?, hc]

theorem isBlank_iff {c : Char} :
    isBlank c = true ↔ c = ' ' ∨ c = '\t' ∨ c = '\n' ∨ c = '\r' := by
  simp [isBlank, or_assoc]

theorem step?_after_blank (f : Frame) (outer : List Frame) {c : Char} (hc : isBlank c = true) :
    step? (after (f :: outer)) c = some (after (f :: outer)) := by
  rcases isBlank_iff.1 hc with rfl | rfl | rfl | rfl <;> cases f <;> rfl

/-- A value begins in the same way whether or not the array might end here. -/
theorem step?_value (first : Bool) (outer : List Frame) {c : Char} (hblank : isBlank c = false)
    (hend : c ≠ ']') : step? (value first outer) c = beginValue c outer := by
  simp only [step?, hblank, Bool.false_eq_true, if_false]
  split
  · rw [if_neg hend]
  · rfl

theorem step?_value_arr (first : Bool) {outer : List Frame} (hroom : outer.length < maxDepth) :
    step? (value first outer) '[' = some (value true (.arr [] :: outer)) := by
  rw [step?_value first outer rfl (by decide), beginValue, if_pos rfl, if_pos hroom]

theorem step?_value_obj (first : Bool) {outer : List Frame} (hroom : outer.length < maxDepth) :
    step? (value first outer) '\x7b' = some (key true [] outer) := by
  rw [step?_value first outer rfl (by decide), beginValue, if_neg (by decide), if_pos rfl,
    if_pos hroom]

/-- The name of a member and its colon. -/
theorem run?_key (markup first : Bool) (name : String) (members : List (String × Json))
    (outer : List Frame) (cs : List Char) :
    run? (key first members outer) (literal markup name ++ ':' :: cs) =
      run? (value false (.obj members name :: outer)) cs := by
  have hquote : step? (key first members outer) '"' = some (naming {} members outer) := rfl
  have hcolon : step? (colon name members outer) ':' =
      some (value false (.obj members name :: outer)) := rfl
  rw [literal, List.cons_append, run?_cons hquote, List.append_assoc, List.singleton_append,
    run?_naming, run?_cons hcolon]

end State

namespace ReadsAs

variable {n : Nat}

theorem null : ReadsAs n ['n', 'u', 'l', 'l'] .null := by
  intro first outer cs _
  rw [List.cons_append, run?_cons (step?_value first outer rfl (by decide))]
  rfl

theorem bool (b : Bool) : ReadsAs n (boolWord b) (.bool b) := by
  intro first outer cs _
  cases b <;>
  · simp only [boolWord, if_true, Bool.false_eq_true, if_false, List.cons_append]
    rw [run?_cons (step?_value first outer rfl (by decide))]
    rfl

theorem str (markup : Bool) (s : String) : ReadsAs n (literal markup s) (.str s) := by
  intro first outer cs _
  rw [literal, List.cons_append, run?_cons (step?_value first outer rfl (by decide)),
    List.append_assoc, List.singleton_append]
  exact run?_text markup s outer cs

theorem arrNil : ReadsAs (n + 1) ['[', ']'] (.arr []) := by
  intro first outer cs hroom
  exact (run?_cons (step?_value_arr first (by omega)) _).trans (run?_cons rfl cs)

theorem objNil : ReadsAs (n + 1) ['\x7b', '\x7d'] (.obj []) := by
  intro first outer cs hroom
  exact (run?_cons (step?_value_obj first (by omega)) _).trans (run?_cons rfl cs)

variable {ws ws' gap : List Char}

/-- The rest of an array, item by item: each further item is read where the one
before it has been added. -/
theorem run?_items (hws : Blanks ws) (hws' : Blanks ws') {write : Json → List Char} (vs : List Json)
    (h : ∀ v ∈ vs, ReadsAs n (write v) v) (items : List Json) (outer : List Frame)
    (hroom : outer.length + (n + 1) ≤ maxDepth) (cs : List Char) :
    run? (after (.arr items :: outer))
        (vs.flatMap (fun v => ',' :: (ws ++ write v)) ++ (ws' ++ ']' :: cs)) =
      run? (give (.arr (items.reverse ++ vs)) outer) cs := by
  induction vs generalizing items with
  | nil =>
      rw [List.flatMap_nil, List.nil_append,
        run?_blanks (fun _ => step?_after_blank _ _) hws', List.append_nil]
      exact run?_cons rfl cs
  | cons v vs ih =>
      have hcomma : step? (after (.arr items :: outer)) ',' =
          some (.value false (.arr items :: outer)) := rfl
      rw [List.flatMap_cons, List.append_assoc, List.cons_append, run?_cons hcomma,
        List.append_assoc, run?_blanks (fun _ => step?_value_blank _ _) hws,
        h v List.mem_cons_self false _ _ (by rw [List.length_cons]; omega)]
      have hrest := ih (fun x hx => h x (List.mem_cons_of_mem v hx)) (v :: items)
      rw [List.reverse_cons, List.append_assoc, List.singleton_append] at hrest
      exact hrest

/-- An array is read when its items are, with blanks in front of each item and of the
end. -/
theorem arr (hws : Blanks ws) (hws' : Blanks ws') {write : Json → List Char} (v : Json)
    (vs : List Json) (h : ∀ x ∈ v :: vs, ReadsAs n (write x) x) :
    ReadsAs (n + 1)
      ('[' :: (ws ++ (write v ++ (vs.flatMap (fun x => ',' :: (ws ++ write x)) ++ (ws' ++ [']'])))))
      (.arr (v :: vs)) := by
  intro first outer cs hroom
  simp only [List.cons_append, List.append_assoc, List.nil_append]
  rw [run?_cons (step?_value_arr first (by omega)),
    run?_blanks (fun _ => step?_value_blank _ _) hws,
    h v List.mem_cons_self true _ _ (by rw [List.length_cons]; omega)]
  exact run?_items hws hws' vs (fun x hx => h x (List.mem_cons_of_mem v hx)) [v] outer hroom cs

/-- A member is read where its name may stand. -/
theorem run?_member (hws : Blanks ws) (hgap : Blanks gap) {write : String × Json → List Char}
    (markup first : Bool) {m : String × Json} (h : ReadsAs n (write m) m.2)
    (members : List (String × Json)) (outer : List Frame)
    (hroom : outer.length + (n + 1) ≤ maxDepth) (cs : List Char) :
    run? (key first members outer)
        (ws ++ (literal markup m.1 ++ ':' :: (gap ++ (write m ++ cs)))) =
      run? (after (.obj (m :: members) m.1 :: outer)) cs := by
  rw [run?_blanks (fun _ => step?_key_blank _ _ _) hws, run?_key,
    run?_blanks (fun _ => step?_value_blank _ _) hgap,
    h false _ _ (by rw [List.length_cons]; omega)]
  rfl

theorem run?_members (hws : Blanks ws) (hgap : Blanks gap) (hws' : Blanks ws')
    {write : String × Json → List Char} (markup : Bool) (ms : List (String × Json))
    (h : ∀ m ∈ ms, ReadsAs n (write m) m.2)
    (members : List (String × Json)) (name : String) (outer : List Frame)
    (hroom : outer.length + (n + 1) ≤ maxDepth) (cs : List Char) :
    run? (after (.obj members name :: outer))
        (ms.flatMap (fun m => ',' :: (ws ++ (literal markup m.1 ++ ':' :: (gap ++ write m)))) ++
          (ws' ++ '\x7d' :: cs)) =
      run? (give (.obj (members.reverse ++ ms)) outer) cs := by
  induction ms generalizing members name with
  | nil =>
      rw [List.flatMap_nil, List.nil_append,
        run?_blanks (fun _ => step?_after_blank _ _) hws', List.append_nil]
      exact run?_cons rfl cs
  | cons m ms ih =>
      have hcomma : step? (after (.obj members name :: outer)) ',' =
          some (key false members outer) := rfl
      rw [List.flatMap_cons, List.append_assoc, List.cons_append, run?_cons hcomma]
      simp only [List.append_assoc, List.cons_append]
      rw [run?_member hws hgap markup false (h m List.mem_cons_self) members outer hroom]
      have hrest := ih (fun x hx => h x (List.mem_cons_of_mem m hx)) (m :: members) m.1
      rw [List.reverse_cons, List.append_assoc, List.singleton_append] at hrest
      exact hrest

/-- An object is read when the values of its members are, with blanks in front of each
name, of each value and of the end. -/
theorem obj (hws : Blanks ws) (hgap : Blanks gap) (hws' : Blanks ws')
    {write : String × Json → List Char} (markup : Bool) (m : String × Json)
    (ms : List (String × Json)) (h : ∀ x ∈ m :: ms, ReadsAs n (write x) x.2) :
    ReadsAs (n + 1)
      ('\x7b' :: (ws ++ (literal markup m.1 ++ ':' :: (gap ++ (write m ++
        (ms.flatMap (fun x => ',' :: (ws ++ (literal markup x.1 ++ ':' :: (gap ++ write x)))) ++
          (ws' ++ ['\x7d'])))))))
      (.obj (m :: ms)) := by
  intro first outer cs hroom
  simp only [List.cons_append, List.append_assoc, List.nil_append]
  rw [run?_cons (step?_value_obj first (by omega)),
    run?_member hws hgap markup true (h m List.mem_cons_self) [] outer hroom]
  exact run?_members hws hgap hws' markup ms (fun x hx => h x (List.mem_cons_of_mem m hx)) [m] m.1
    outer hroom cs

end ReadsAs

theorem compactItems_eq (vs : List Json) :
    compactItems vs = vs.flatMap fun v => ',' :: ([] ++ compact v) := by
  induction vs with
  | nil => simp [compactItems]
  | cons v vs ih => simp [compactItems, ih]

theorem compactMembers_eq (ms : List (String × Json)) :
    compactMembers ms =
      ms.flatMap fun m => ',' :: ([] ++ (literal true m.1 ++ ':' :: ([] ++ compact m.2))) := by
  induction ms with
  | nil => simp [compactMembers]
  | cons m ms ih => simp [compactMembers, ih]

theorem prettyItems_eq (picked : String → Bool) (markup : Bool) (depth : Nat) (vs : List Json) :
    prettyItems picked markup depth vs =
      vs.flatMap fun v => ',' :: (newline depth ++ pretty picked markup depth v) := by
  induction vs with
  | nil => simp [prettyItems]
  | cons v vs ih => simp [prettyItems, ih]

theorem prettyMembers_eq (picked : String → Bool) (markup : Bool) (depth : Nat)
    (ms : List (String × Json)) :
    prettyMembers picked markup depth ms =
      ms.flatMap fun m => ',' :: (newline depth ++ (literal markup m.1 ++ ':' :: ([' '] ++
        pretty picked (markup || picked m.1) depth m.2))) := by
  induction ms with
  | nil => simp [prettyMembers]
  | cons m ms ih => simp [prettyMembers, ih]

/-- A value is read back from its text without blanks. -/
theorem readsAs_compact {n : Nat} {v : Json} (h : Fits n v) : ReadsAs n v.compact v := by
  induction h with
  | null => exact ReadsAs.null
  | bool b => exact ReadsAs.bool b
  | str s => exact ReadsAs.str true s
  | @arr n items _ ih =>
      cases items with
      | nil => exact ReadsAs.arrNil
      | cons v vs =>
          rw [compact, compactItems_eq]
          exact ReadsAs.arr blanks_nil blanks_nil v vs ih
  | @obj n members _ ih =>
      cases members with
      | nil => exact ReadsAs.objNil
      | cons m ms =>
          rw [compact, compactMembers_eq]
          exact ReadsAs.obj blanks_nil blanks_nil blanks_nil true m ms ih

/-- A value is read back from its text on many lines, whatever is escaped in it. -/
theorem readsAs_pretty (picked : String → Bool) {n : Nat} {v : Json} (h : Fits n v)
    (markup : Bool) (depth : Nat) : ReadsAs n (v.pretty picked markup depth) v := by
  induction h generalizing markup depth with
  | null => exact ReadsAs.null
  | bool b => exact ReadsAs.bool b
  | str s => exact ReadsAs.str markup s
  | @arr n items _ ih =>
      cases items with
      | nil => exact ReadsAs.arrNil
      | cons v vs =>
          rw [pretty, prettyItems_eq]
          exact ReadsAs.arr (blanks_newline _) (blanks_newline _) v vs
            fun x hx => ih x hx markup (depth + 1)
  | @obj n members _ ih =>
      cases members with
      | nil => exact ReadsAs.objNil
      | cons m ms =>
          rw [pretty, prettyMembers_eq]
          exact ReadsAs.obj (blanks_newline _) blanks_space (blanks_newline _) markup m ms
            fun x hx => ih x hx (markup || picked x.1) (depth + 1)

/-- A text that is read as a value is read as this value when it stands first. -/
theorem ReadsAs.read? {n : Nat} {text : List Char} {v : Json} (h : ReadsAs n text v)
    (hn : n ≤ maxDepth) (cs : List Char) : Json.read? (text ++ cs) = some v := by
  rw [Json.read?, h false [] cs (by simpa using hn)]
  simp only [give, run?_done]
  rfl

end MuxFlow.Json
