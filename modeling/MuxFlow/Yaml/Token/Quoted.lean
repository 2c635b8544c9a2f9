import MuxFlow.Yaml.Token.Plain

/-!
# Quoted scalars

Between single quotes only the quote itself is special, and it is written twice.
Between double quotes a backslash begins an escape; before a line break it joins
the two lines without a blank. Line breaks are folded as in plain scalars.
-/

namespace MuxFlow.Yaml

/-- The value of a hexadecimal digit. -/
def hexDigit? (c : Char) : Option Nat := Whole.digitIn? 16 c

/-- The character of a short escape. -/
def shortEscape? (c : Char) : Option Char :=
  match c with
  | '0' => some (Char.ofNat 0x00)
  | 'a' => some (Char.ofNat 0x07)
  | 'b' => some (Char.ofNat 0x08)
  | 't' | '\t' => some '\t'
  | 'n' => some '\n'
  | 'v' => some (Char.ofNat 0x0b)
  | 'f' => some (Char.ofNat 0x0c)
  | 'r' => some '\r'
  | 'e' => some (Char.ofNat 0x1b)
  | ' ' => some ' '
  | '"' => some '"'
  | '\x27' => some '\x27'
  | '\\' => some '\\'
  | 'N' => some (Char.ofNat 0x85)
  | '_' => some (Char.ofNat 0xa0)
  | 'L' => some (Char.ofNat 0x2028)
  | 'P' => some (Char.ofNat 0x2029)
  | _ => none

/-- The number of digits of an escape that gives a code. -/
def codeLength? (c : Char) : Option Nat :=
  if c = 'x' then some 2 else if c = 'u' then some 4 else if c = 'U' then some 8 else none

/-- The character whose code the first `n` characters spell. -/
def codeChar? (n : Nat) (rest : List Char) : Option Char :=
  let ds := rest.take n
  if ds.length < n then none
  else
    (Whole.spelledIn? 16 ds).bind fun code =>
      if code.isValidChar then some (Char.ofNat code) else none

/-- The character of an escape after the backslash, and how many characters
spell it. -/
def escaped? : List Char → Option (Char × Nat)
  | [] => none
  | c :: rest =>
    match codeLength? c with
    | some n => (codeChar? n rest).map fun x => (x, n + 1)
    | none => (shortEscape? c).map fun x => (x, 1)

/-- Reads on in a quoted scalar up to its closing quote. -/
def quotedRest? (single : Bool) (said : List Char) (gap : Gap) (c : Cursor) :
    Option (String × Cursor) :=
  match _h : c.rest with
  | [] => none
  | x :: rest =>
    if isBlank x then quotedRest? single said (gap.addBlank x) ⟨rest, c.place.after x⟩
    else if isBreak x then quotedRest? single said (gap.addBreak x) ⟨rest, c.place.after x⟩
    else if atDocumentMark c.place (x :: rest) then none
    else
      let said := gap.folded ++ said
      let next : Cursor := ⟨rest, c.place.after x⟩
      if single then
        if x = '\x27' then
          if rest.head? = some '\x27' then
            quotedRest? single ('\x27' :: said) {} ⟨rest.drop 1, next.place.after '\x27'⟩
          else some (String.ofList said.reverse, next)
        else quotedRest? single (x :: said) {} next
      else if x = '"' then some (String.ofList said.reverse, next)
      else if x = '\\' then
        match rest.head? with
        | none => none
        | some y =>
          if isBreak y then
            quotedRest? single said { broken := true } ⟨rest.drop 1, next.place.after y⟩
          else
            match escaped? rest with
            | none => none
            | some (z, n) =>
              quotedRest? single (z :: said) {} ⟨rest.drop n, (next.advanceBy n).place⟩
      else quotedRest? single (x :: said) {} next
termination_by c.rest.length
decreasing_by
  all_goals
    have size := congrArg List.length _h
    simp only [List.length_cons, List.length_drop] at size ⊢
    omega

/-- Reads the quoted scalar whose opening quote is at the cursor. -/
def quotedScalar? (single : Bool) (c : Cursor) : Option (String × Cursor) :=
  quotedRest? single [] {} c.advance

end MuxFlow.Yaml
