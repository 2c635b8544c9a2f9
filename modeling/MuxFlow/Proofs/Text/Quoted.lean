import Mathlib.Tactic.Ring
import MuxFlow.Proofs.Json.Literal

/-!
# Different texts are quoted differently

A fault names a place by quoting its id, so two faults are told apart by their ids
only if quoting loses nothing. `uncover?` takes the first character off a quoted
text: whatever `quoteChar` has written for a character is taken back as that character
and nothing more, so a quoted text has only one reading.
-/

namespace MuxFlow.Text

/-- The number that hexadecimal digits stand for. -/
def hexCode (ds : List Char) : Nat :=
  ds.foldl (fun value d => value * 16 + (Json.hexValue? d).getD 0) 0

theorem hexDigits_succ (width n : Nat) :
    hexDigits (width + 1) n = Nat.digitChar (n / 16 ^ width % 16) :: hexDigits width n := by
  simp [hexDigits, List.range_succ]

theorem length_hexDigits (width n : Nat) : (hexDigits width n).length = width := by
  simp [hexDigits]

theorem foldl_hexDigits (width n value : Nat) :
    (hexDigits width n).foldl (fun value d => value * 16 + (Json.hexValue? d).getD 0) value =
      value * 16 ^ width + n % 16 ^ width := by
  induction width generalizing value with
  | zero => simp [hexDigits, Nat.mod_one]
  | succ width ih =>
      have hdigit := hexValue?_digitChar (n / 16 ^ width % 16) (Nat.mod_lt _ (by decide))
      rw [hexDigits_succ, List.foldl_cons, ih, hdigit, Option.getD_some, Nat.mod_pow_succ,
        Nat.pow_succ]
      ring

theorem hexCode_hexDigits {width n : Nat} (h : n < 16 ^ width) :
    hexCode (hexDigits width n) = n := by
  rw [hexCode, foldl_hexDigits, Nat.zero_mul, Nat.zero_add, Nat.mod_eq_of_lt h]

/-- The character behind the letter of a short escape; any other letter is itself. -/
def unescape : Char → Char
  | 'a' => Char.ofNat 0x07
  | 'b' => Char.ofNat 0x08
  | 't' => Char.ofNat 0x09
  | 'n' => Char.ofNat 0x0a
  | 'v' => Char.ofNat 0x0b
  | 'f' => Char.ofNat 0x0c
  | 'r' => Char.ofNat 0x0d
  | c => c

/-- The number of digits that follow the letter of an escape that gives a code. -/
def codeWidth? : Char → Option Nat
  | 'x' => some 2
  | 'u' => some 4
  | 'U' => some 8
  | _ => none

/-- The first character of a quoted text, and what follows it. -/
def uncover? : List Char → Option (Char × List Char)
  | [] => none
  | '\\' :: letter :: rest =>
    match codeWidth? letter with
    | some width => some (Char.ofNat (hexCode (rest.take width)), rest.drop width)
    | none => some (unescape letter, rest)
  | c :: rest => some (c, rest)

theorem uncover?_code {letter : Char} {width : Nat} (hletter : codeWidth? letter = some width)
    {c : Char} (hc : c.toNat < 16 ^ width) (rest : List Char) :
    uncover? ('\\' :: letter :: (hexDigits width c.toNat ++ rest)) = some (c, rest) := by
  simp only [uncover?, hletter]
  rw [List.take_left' (length_hexDigits _ _), List.drop_left' (length_hexDigits _ _),
    hexCode_hexDigits hc, Char.ofNat_toNat]

theorem uncover?_codeEscape (c : Char) (rest : List Char) :
    uncover? (codeEscape c ++ rest) = some (c, rest) := by
  have hc : c.toNat < 0x110000 := by
    have hvalid : c.toNat < 0xd800 ∨ 0xdfff < c.toNat ∧ c.toNat < 0x110000 := c.valid
    omega
  unfold codeEscape
  extract_lets n
  split
  · next h =>
      have hn : n < 0x20 ∨ n = 0x7f := by simpa using h
      exact uncover?_code rfl (show n < 256 by omega) rest
  split
  · next h => exact uncover?_code rfl h rest
  · exact uncover?_code rfl (show n < 4294967296 by omega) rest

theorem unescape_of_shortEscape? {c letter : Char} (h : shortEscape? c = some letter) :
    codeWidth? letter = none ∧ unescape letter = c := by
  have hc : Char.ofNat c.toNat = c := Char.ofNat_toNat c
  unfold shortEscape? at h
  split at h
  case h_8 => cases h
  all_goals
    next hcode =>
      obtain rfl := Option.some.inj h
      rw [hcode] at hc
      exact ⟨rfl, hc⟩

/-- What is written for a character is taken back as that character. -/
theorem uncover?_quoteChar (c : Char) (rest : List Char) :
    uncover? (quoteChar '"' c ++ rest) = some (c, rest) := by
  unfold quoteChar
  split
  · next h =>
      have hc : c = '"' ∨ c = '\\' := by simpa using h
      rcases hc with rfl | rfl <;> rfl
  split
  · next h _ =>
      have hslash : c ≠ '\\' := by
        rintro rfl
        simp at h
      rw [List.singleton_append, uncover?]
      intro letter rest' hc
      exact fun _ => hslash hc
  split
  · next letter hletter =>
      obtain ⟨hwidth, hcode⟩ := unescape_of_shortEscape? hletter
      simp [uncover?, hwidth, hcode]
  · exact uncover?_codeEscape c rest

theorem flatMap_quoteChar_inj {s t : List Char}
    (h : s.flatMap (quoteChar '"') = t.flatMap (quoteChar '"')) : s = t := by
  induction s generalizing t with
  | nil =>
      cases t with
      | nil => rfl
      | cons d t =>
          have hd := uncover?_quoteChar d (t.flatMap (quoteChar '"'))
          rw [← List.flatMap_cons, ← h] at hd
          cases hd
  | cons c s ih =>
      have hc := uncover?_quoteChar c (s.flatMap (quoteChar '"'))
      rw [← List.flatMap_cons, h] at hc
      cases t with
      | nil => cases hc
      | cons d t =>
          rw [List.flatMap_cons, uncover?_quoteChar] at hc
          obtain ⟨rfl, hrest⟩ := Prod.mk.inj (Option.some.inj hc)
          rw [ih hrest.symm]

theorem quote_injective {s t : String} (h : quote s = quote t) : s = t := by
  have hchars := String.ofList_injective h
  rw [List.cons.injEq, List.append_cancel_right_eq] at hchars
  exact String.toList_injective (flatMap_quoteChar_inj hchars.2)

end MuxFlow.Text
