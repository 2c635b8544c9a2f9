/-!
# The characters of a file

A file is a row of bytes that are meant as UTF-8. A `Source` is what they say:
one entry for every character, and an entry without a character for every byte
that belongs to none. Readers differ in what they make of such a byte, so there
are two views: `lossy` puts the replacement character in its place, `strict?`
gives up.
-/

namespace MuxFlow.Text

/-- The characters of a file; `none` stands for a byte that is part of none. -/
abbrev Source := List (Option Char)

namespace Source

/-- Whether a byte continues a character. -/
def isTail (b : UInt8) : Bool := 0x80 ≤ b && b ≤ 0xbf

/-- The low six bits of a continuing byte. -/
def tailBits (b : UInt8) : Nat := b.toNat % 64

/-- The least and the greatest second byte after a first one that is followed by
two or three more. Overlong forms, surrogates and codes beyond the last
character have no second byte to begin with. -/
def secondRange (first : UInt8) : UInt8 × UInt8 :=
  if first = 0xe0 then (0xa0, 0xbf)
  else if first = 0xed then (0x80, 0x9f)
  else if first = 0xf0 then (0x90, 0xbf)
  else if first = 0xf4 then (0x80, 0x8f)
  else (0x80, 0xbf)

/-- Whether a byte may follow the first one. -/
def isSecond (first b : UInt8) : Bool :=
  (secondRange first).1 ≤ b && b ≤ (secondRange first).2

/-- The character that begins with a byte, and how many of the following bytes
belong to it. -/
def headChar? (first : UInt8) (rest : List UInt8) : Option (Char × Nat) :=
  if first < 0x80 then some (Char.ofNat first.toNat, 0)
  else if 0xc2 ≤ first && first ≤ 0xdf then
    match rest with
    | b :: _ =>
      if isTail b then some (Char.ofNat (first.toNat % 32 * 64 + tailBits b), 1) else none
    | _ => none
  else if 0xe0 ≤ first && first ≤ 0xef then
    match rest with
    | b :: c :: _ =>
      if isSecond first b && isTail c then
        some (Char.ofNat ((first.toNat % 16 * 64 + tailBits b) * 64 + tailBits c), 2)
      else none
    | _ => none
  else if 0xf0 ≤ first && first ≤ 0xf4 then
    match rest with
    | b :: c :: d :: _ =>
      if isSecond first b && isTail c && isTail d then
        let code := ((first.toNat % 8 * 64 + tailBits b) * 64 + tailBits c) * 64 + tailBits d
        some (Char.ofNat code, 3)
      else none
    | _ => none
  else none

/-- The characters of a row of bytes. -/
def ofBytes : List UInt8 → Source
  | [] => []
  | b :: rest =>
    match headChar? b rest with
    | some (c, n) => some c :: ofBytes (rest.drop n)
    | none => none :: ofBytes rest
termination_by bytes => bytes.length
decreasing_by
  all_goals
    simp only [List.length_drop, List.length_cons]
    omega

/-- The characters of a text. -/
def ofString (s : String) : Source := s.toList.map some

/-- The characters, with the replacement character for stray bytes. -/
def lossy (s : Source) : List Char := s.map fun c => c.getD (Char.ofNat 0xfffd)

/-- The characters, if there is no stray byte. -/
def strict? (s : Source) : Option (List Char) := s.mapM id

theorem lossy_ofString (s : String) : (ofString s).lossy = s.toList := by
  simp [ofString, lossy, Function.comp_def]

theorem strict?_ofString (s : String) : (ofString s).strict? = some s.toList := by
  unfold ofString strict?
  induction s.toList with
  | nil => rfl
  | cons c cs ih => simp [List.mapM_cons, ih]

end Source

end MuxFlow.Text
