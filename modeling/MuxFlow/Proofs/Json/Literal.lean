import MuxFlow.Json.Reader
import MuxFlow.Json.Writer

/-!
# String literals are read back

The reader takes a string literal character by character, and one character of a
text is written as up to six. So the statement that carries the rest is about one
character: after all that is written for `c`, the reader is where it was, with the
code of `c` added (`run?_escapeChar`). It holds with and without escapes for
markup, and for the names of members as well as for strings, because both are read
by a state that hands its characters to a `Literal`.
-/

namespace MuxFlow

namespace Text

theorem hexValue?_digitChar : ∀ d, d < 16 → Json.hexValue? (Nat.digitChar d) = some d := by
  decide

theorem hexDigits_four (n : Nat) :
    hexDigits 4 n = [Nat.digitChar (n / 4096 % 16), Nat.digitChar (n / 256 % 16),
      Nat.digitChar (n / 16 % 16), Nat.digitChar (n % 16)] := by
  simp [hexDigits, List.range_succ]

end Text

namespace Json

namespace State

theorem run?_done (v : Json) (cs : List Char) : run? (done v) cs = some (done v) := by
  cases cs <;> rfl

/-- A text is read by taking the step of its first character. -/
theorem run?_cons {s s' : State} {c : Char} (h : step? s c = some s') (cs : List Char) :
    run? s (c :: cs) = run? s' cs := by
  cases s with
  | done v =>
      obtain rfl : done v = s' := Option.some.inj h
      rw [run?_done, run?_done]
  | _ => simp only [run?, h]

end State

/-- A state that hands characters to the literal it holds, as long as they do not
end it. -/
def Feeds (wrap : Literal → State) : Prop :=
  ∀ t c, t.endsWith c = false → (wrap t).step? c = (t.next? c).map wrap

theorem feeds_text (outer : List Frame) : Feeds fun t => .text t outer := by
  intro t c h
  simp [State.step?, h]

theorem feeds_naming (members : List (String × Json)) (outer : List Frame) :
    Feeds fun t => .naming t members outer := by
  intro t c h
  simp [State.step?, h]

namespace Feeds

variable {wrap : Literal → State}

theorem run?_cons (hw : Feeds wrap) {t u : Literal} {c : Char} (hend : t.endsWith c = false)
    (h : t.next? c = some u) (cs : List Char) :
    State.run? (wrap t) (c :: cs) = State.run? (wrap u) cs :=
  State.run?_cons (by rw [hw t c hend, h]; rfl) cs

/-- A character that stands for itself. -/
theorem run?_plain (hw : Feeds wrap) {c : Char} (hquote : c ≠ '"') (hslash : c ≠ '\\')
    (hctrl : ¬c.toNat < 0x20) (codes : List Nat) (cs : List Char) :
    State.run? (wrap ⟨codes, .no⟩) (c :: cs) =
      State.run? (wrap ⟨c.toNat :: codes, .no⟩) cs := by
  apply hw.run?_cons
  · simp [Literal.endsWith, hquote]
  · simp [Literal.next?, hslash, hctrl]

/-- An escape of two characters. -/
theorem run?_short (hw : Feeds wrap) {letter : Char} {code : Nat} (hu : letter ≠ 'u')
    (h : Literal.shortEscape? letter = some code) (codes : List Nat) (cs : List Char) :
    State.run? (wrap ⟨codes, .no⟩) ('\\' :: letter :: cs) =
      State.run? (wrap ⟨code :: codes, .no⟩) cs := by
  rw [hw.run?_cons (u := ⟨codes, .begun⟩) rfl rfl, hw.run?_cons rfl]
  simp [Literal.next?, hu, h]

/-- One more digit of an escape that gives a code. -/
theorem run?_digit (hw : Feeds wrap) (codes : List Nat) (left value : Nat) {d : Nat}
    (hd : d < 16) (cs : List Char) :
    State.run? (wrap ⟨codes, .code (left + 2) value⟩) (Nat.digitChar d :: cs) =
      State.run? (wrap ⟨codes, .code (left + 1) (value * 16 + d)⟩) cs := by
  apply hw.run?_cons rfl
  simp [Literal.next?, Text.hexValue?_digitChar d hd]

/-- An escape that gives the code. -/
theorem run?_code (hw : Feeds wrap) {n : Nat} (hn : n < 0x10000) (codes : List Nat)
    (cs : List Char) :
    State.run? (wrap ⟨codes, .no⟩) ('\\' :: 'u' :: (Text.hexDigits 4 n ++ cs)) =
      State.run? (wrap ⟨n :: codes, .no⟩) cs := by
  have hmod : ∀ m : Nat, m % 16 < 16 := fun m => Nat.mod_lt m (by decide)
  rw [hw.run?_cons (u := ⟨codes, .begun⟩) rfl rfl,
    hw.run?_cons (u := ⟨codes, .code 4 0⟩) rfl rfl, Text.hexDigits_four]
  simp only [List.cons_append, List.nil_append]
  rw [hw.run?_digit codes 2 _ (hmod _), hw.run?_digit codes 1 _ (hmod _),
    hw.run?_digit codes 0 _ (hmod _), hw.run?_cons rfl]
  have hvalue : ((n / 4096 % 16 * 16 + n / 256 % 16) * 16 + n / 16 % 16) * 16 + n % 16 = n := by
    omega
  simp [Literal.next?, Text.hexValue?_digitChar _ (hmod n), hvalue]

/-- All that is written for a character gives its code. -/
theorem run?_escapeChar (hw : Feeds wrap) (markup : Bool) (c : Char) (codes : List Nat)
    (cs : List Char) :
    State.run? (wrap ⟨codes, .no⟩) (escapeChar markup c ++ cs) =
      State.run? (wrap ⟨c.toNat :: codes, .no⟩) cs := by
  -- the cases are those of the writer
  unfold escapeChar
  split
  · next h => subst h; exact hw.run?_short (by decide) rfl codes cs
  split
  · next h => subst h; exact hw.run?_short (by decide) rfl codes cs
  split
  · next h => rw [h]; exact hw.run?_short (by decide) rfl codes cs
  split
  · next h => rw [h]; exact hw.run?_short (by decide) rfl codes cs
  split
  · next h => subst h; exact hw.run?_short (by decide) rfl codes cs
  split
  · next h => subst h; exact hw.run?_short (by decide) rfl codes cs
  split
  · next h => subst h; exact hw.run?_short (by decide) rfl codes cs
  split
  · next h =>
      apply hw.run?_code
      rcases h with h | h | h | ⟨_, rfl | rfl | rfl⟩
      · omega
      · omega
      · omega
      all_goals decide
  · next hquote hslash _ _ _ _ _ h =>
      exact hw.run?_plain hquote hslash (fun hlt => h (Or.inl hlt)) codes cs

theorem run?_flatMap (hw : Feeds wrap) (markup : Bool) (text : List Char) (codes : List Nat)
    (cs : List Char) :
    State.run? (wrap ⟨codes, .no⟩) (text.flatMap (escapeChar markup) ++ cs) =
      State.run? (wrap ⟨(text.map Char.toNat).reverse ++ codes, .no⟩) cs := by
  induction text generalizing codes with
  | nil => rfl
  | cons c text ih =>
      rw [List.flatMap_cons, List.append_assoc, hw.run?_escapeChar, ih]
      simp

end Feeds

/-- No character is half a surrogate pair. -/
theorem isHigh_or_isLow_toNat (c : Char) : (isHigh c.toNat || isLow c.toNat) = false := by
  have hvalid : c.toNat < 0xd800 ∨ 0xdfff < c.toNat ∧ c.toNat < 0x110000 := c.valid
  simp only [isHigh, isLow, Bool.or_eq_false_iff, Bool.and_eq_false_iff,
    decide_eq_false_iff_not]
  omega

theorem charOf_toNat (c : Char) : charOf c.toNat = c := by
  rw [charOf, isHigh_or_isLow_toNat, if_neg (by decide), Char.ofNat_toNat]

/-- The codes of characters give these characters. -/
theorem fuse_map_toNat (text : List Char) : fuse (text.map Char.toNat) = text := by
  induction text with
  | nil => rfl
  | cons c text ih =>
      cases text with
      | nil => simp [fuse, charOf_toNat]
      | cons d text =>
          have hhigh : isHigh c.toNat = false :=
            (Bool.or_eq_false_iff.1 (isHigh_or_isLow_toNat c)).1
          simp only [List.map_cons] at ih ⊢
          rw [fuse, hhigh, Bool.false_and, if_neg (by decide), ih, charOf_toNat]

theorem Literal.value_of_text (text : List Char) :
    Literal.value ⟨(text.map Char.toNat).reverse, .no⟩ = String.ofList text := by
  rw [Literal.value, List.reverse_reverse, fuse_map_toNat]

namespace State

/-- A string is read back after its first quote. -/
theorem run?_text (markup : Bool) (s : String) (outer : List Frame) (cs : List Char) :
    run? (text {} outer) (s.toList.flatMap (escapeChar markup) ++ '"' :: cs) =
      run? (give (.str s) outer) cs := by
  rw [(feeds_text outer).run?_flatMap markup s.toList [] ('"' :: cs), List.append_nil]
  apply run?_cons
  simp [step?, Literal.endsWith, Literal.value_of_text]

/-- The name of a member is read back after its first quote. -/
theorem run?_naming (markup : Bool) (name : String) (members : List (String × Json))
    (outer : List Frame) (cs : List Char) :
    run? (naming {} members outer) (name.toList.flatMap (escapeChar markup) ++ '"' :: cs) =
      run? (colon name members outer) cs := by
  rw [(feeds_naming members outer).run?_flatMap markup name.toList [] ('"' :: cs),
    List.append_nil]
  apply run?_cons
  simp [step?, Literal.endsWith, Literal.value_of_text]

end State

end Json

end MuxFlow
