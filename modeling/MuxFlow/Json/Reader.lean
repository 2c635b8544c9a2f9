import MuxFlow.Json.Value

/-!
# Reading JSON

The reader takes one character at a time. Its `State` holds everything that has
been read: the containers that are still open, innermost first, and what may
come next. A step either gives the next state or refuses the character, and
reading a text is nothing but taking the steps of its characters in turn.

Only the first value of a text is read, and what follows it is not looked at.
A number is the one value that does not show its own end, so it ends with the
character after it or with the text.
-/

namespace MuxFlow.Json

/-- The blanks between the parts of a document. -/
def isBlank (c : Char) : Bool := c = ' ' || c = '\t' || c = '\n' || c = '\r'

/-- The value of a hexadecimal digit. -/
def hexValue? (c : Char) : Option Nat :=
  if '0' ≤ c ∧ c ≤ '9' then some (c.toNat - 0x30)
  else if 'a' ≤ c ∧ c ≤ 'f' then some (c.toNat - 0x57)
  else if 'A' ≤ c ∧ c ≤ 'F' then some (c.toNat - 0x37)
  else none

/-! ## Strings -/

/-- Whether a code is the first half of a surrogate pair. -/
def isHigh (code : Nat) : Bool := 0xd800 ≤ code && code < 0xdc00

/-- Whether a code is the second half of a surrogate pair. -/
def isLow (code : Nat) : Bool := 0xdc00 ≤ code && code < 0xe000

/-- The character of a code that stands alone; half a surrogate pair has none. -/
def charOf (code : Nat) : Char :=
  if isHigh code || isLow code then Char.ofNat 0xfffd else Char.ofNat code

/-- The characters of a list of codes: two halves of a surrogate pair make one
character. -/
def fuse : List Nat → List Char
  | [] => []
  | [code] => [charOf code]
  | high :: low :: codes =>
    if isHigh high && isLow low then
      Char.ofNat (0x10000 + (high - 0xd800) * 0x400 + (low - 0xdc00)) :: fuse codes
    else charOf high :: fuse (low :: codes)

/-- Where a string stands between two of its characters. -/
inductive Escape where
  /-- Not in an escape. -/
  | no
  /-- After the backslash. -/
  | begun
  /-- In an escape that gives a code, with so many digits left. -/
  | code (left : Nat) (value : Nat)
  deriving DecidableEq, Repr

/-- A string that is being read: its codes so far, the last one first. -/
structure Literal where
  codes : List Nat := []
  escape : Escape := .no
  deriving DecidableEq, Repr

namespace Literal

/-- The code behind the letter of a short escape. -/
def shortEscape? : Char → Option Nat
  | '"' => some 0x22
  | '\\' => some 0x5c
  | '/' => some 0x2f
  | 'b' => some 0x08
  | 'f' => some 0x0c
  | 'n' => some 0x0a
  | 'r' => some 0x0d
  | 't' => some 0x09
  | _ => none

/-- The string after one more character that does not end it. -/
def next? (t : Literal) (c : Char) : Option Literal :=
  match t.escape with
  | .no =>
    if c = '\\' then some { t with escape := .begun }
    else if c.toNat < 0x20 then none
    else some { t with codes := c.toNat :: t.codes }
  | .begun =>
    if c = 'u' then some { t with escape := .code 4 0 }
    else (shortEscape? c).map fun code => ⟨code :: t.codes, .no⟩
  | .code left value =>
    (hexValue? c).map fun digit =>
      let value := value * 16 + digit
      if left ≤ 1 then ⟨value :: t.codes, .no⟩ else { t with escape := .code (left - 1) value }

/-- What has been read, as a text. -/
def value (t : Literal) : String := String.ofList (fuse t.codes.reverse)

/-- Whether a character ends the string. -/
def endsWith (t : Literal) (c : Char) : Bool := t.escape = .no && c = '"'

end Literal

/-! ## Numbers -/

/-- The part of a number that was read last. -/
inductive NumberPart where
  | sign
  | zero
  | whole
  | point
  | fraction
  | mark
  | markSign
  | power
  deriving DecidableEq, Repr

/-- A number that is being read. -/
structure Numeral where
  part : NumberPart
  negative : Bool := false
  digits : Nat := 0
  /-- How many of the digits stand after the point. -/
  places : Nat := 0
  powerNegative : Bool := false
  power : Nat := 0
  deriving DecidableEq, Repr

namespace Numeral

/-- The value of a decimal digit. -/
def digit? (c : Char) : Option Nat :=
  if '0' ≤ c ∧ c ≤ '9' then some (c.toNat - 0x30) else none

/-- The number that begins with a character. -/
def start? (c : Char) : Option Numeral :=
  if c = '-' then some { part := .sign, negative := true }
  else (digit? c).map fun d => { part := if d = 0 then .zero else .whole, digits := d }

/-- One more digit of the number itself. -/
def push (n : Numeral) (d : Nat) : Numeral := { n with digits := n.digits * 10 + d }

/-- The number after a digit. -/
def nextDigit? (n : Numeral) (d : Nat) : Option Numeral :=
  match n.part with
  | .sign => some { n.push d with part := if d = 0 then .zero else .whole }
  | .zero => none
  | .whole => some (n.push d)
  | .point | .fraction => some { n.push d with part := .fraction, places := n.places + 1 }
  | .mark | .markSign | .power => some { n with part := .power, power := n.power * 10 + d }

/-- The number after a character that is no digit. -/
def nextOther? (n : Numeral) (c : Char) : Option Numeral :=
  match n.part with
  | .zero | .whole =>
    if c = '.' then some { n with part := .point }
    else if c = 'e' ∨ c = 'E' then some { n with part := .mark }
    else none
  | .fraction => if c = 'e' ∨ c = 'E' then some { n with part := .mark } else none
  | .mark =>
    if c = '+' then some { n with part := .markSign }
    else if c = '-' then some { n with part := .markSign, powerNegative := true }
    else none
  | _ => none

/-- The number after one more character, if the character belongs to it. -/
def next? (n : Numeral) (c : Char) : Option Numeral :=
  match digit? c with
  | some d => n.nextDigit? d
  | none => n.nextOther? c

/-- What has been read, if the number may end here. -/
def value? (n : Numeral) : Option Decimal :=
  match n.part with
  | .zero | .whole | .fraction | .power =>
    let power : Int := if n.powerNegative then -n.power else n.power
    some ⟨n.negative, n.digits, power - n.places⟩
  | _ => none

end Numeral

/-! ## Values -/

/-- A container that is still open, its content last first. -/
inductive Frame where
  | arr (items : List Json)
  /-- An object whose member `name` is being read. -/
  | obj (members : List (String × Json)) (name : String)

/-- What has been read and what may come next. -/
inductive State where
  /-- A value; in an array that is still empty, also its end. -/
  | value (first : Bool) (outer : List Frame)
  /-- The name of a member; in an object that is still empty, also its end. -/
  | key (first : Bool) (members : List (String × Json)) (outer : List Frame)
  /-- The rest of a name. -/
  | naming (text : Literal) (members : List (String × Json)) (outer : List Frame)
  /-- The colon after a name. -/
  | colon (name : String) (members : List (String × Json)) (outer : List Frame)
  /-- The rest of one of the words. -/
  | word (left : List Char) (v : Json) (outer : List Frame)
  /-- The rest of a string. -/
  | text (text : Literal) (outer : List Frame)
  /-- The rest of a number. -/
  | number (n : Numeral) (outer : List Frame)
  /-- A comma or the end of the innermost container. -/
  | after (outer : List Frame)
  /-- Nothing: the value is read. -/
  | done (v : Json)

namespace State

/-- The state after a value. -/
def give (v : Json) : List Frame → State
  | [] => done v
  | .arr items :: outer => after (.arr (v :: items) :: outer)
  | .obj members name :: outer => after (.obj ((name, v) :: members) name :: outer)

/-- The state after the first character of a value. -/
def beginValue (c : Char) (outer : List Frame) : Option State :=
  if c = '[' then
    if outer.length < maxDepth then some (value true (.arr [] :: outer)) else none
  else if c = '\x7b' then
    if outer.length < maxDepth then some (key true [] outer) else none
  else if c = '"' then some (text {} outer)
  else if c = 't' then some (word ['r', 'u', 'e'] (.bool true) outer)
  else if c = 'f' then some (word ['a', 'l', 's', 'e'] (.bool false) outer)
  else if c = 'n' then some (word ['u', 'l', 'l'] .null outer)
  else (Numeral.start? c).map fun n => number n outer

/-- The state after a character that follows a value in a container. -/
def afterValue (c : Char) : List Frame → Option State
  | [] => none
  | .arr items :: outer =>
    if c = ',' then some (value false (.arr items :: outer))
    else if c = ']' then some (give (.arr items.reverse) outer)
    else if isBlank c then some (after (.arr items :: outer))
    else none
  | .obj members name :: outer =>
    if c = ',' then some (key false members outer)
    else if c = '\x7d' then some (give (.obj members.reverse) outer)
    else if isBlank c then some (after (.obj members name :: outer))
    else none

/-- The state after one more character; `none` if it must not stand there. -/
def step? (s : State) (c : Char) : Option State :=
  match s with
  | value first outer =>
    if isBlank c then some s
    else
      match first, outer with
      | true, .arr items :: rest =>
        if c = ']' then some (give (.arr items.reverse) rest) else beginValue c outer
      | _, _ => beginValue c outer
  | key first members outer =>
    if isBlank c then some s
    else if c = '"' then some (naming {} members outer)
    else if first ∧ c = '\x7d' then some (give (.obj members.reverse) outer)
    else none
  | naming t members outer =>
    if t.endsWith c then some (colon t.value members outer)
    else (t.next? c).map fun t => naming t members outer
  | colon n members outer =>
    if isBlank c then some s
    else if c = ':' then some (value false (.obj members n :: outer))
    else none
  | word left v outer =>
    match left with
    | [] => none
    | [d] => if c = d then some (give v outer) else none
    | d :: left => if c = d then some (word left v outer) else none
  | text t outer =>
    if t.endsWith c then some (give (.str t.value) outer)
    else (t.next? c).map fun t => text t outer
  | number n outer =>
    match n.next? c with
    | some n => some (number n outer)
    | none =>
      match n.value? with
      | none => none
      | some d =>
        match give (.num d) outer with
        | after outer => afterValue c outer
        | s => some s
  | after outer => afterValue c outer
  | done _ => some s

/-- The value that has been read when the text ends. -/
def finish? : State → Option Json
  | done v => some v
  | number n [] => n.value?.map .num
  | _ => none

/-- The state after a text. -/
def run? : State → List Char → Option State
  | s, [] => some s
  | done v, _ :: _ => some (done v)
  | s, c :: cs =>
    match step? s c with
    | some s => run? s cs
    | none => none

end State

/-- The first value of a text. -/
def read? (text : List Char) : Option Json :=
  (State.run? (.value false []) text).bind State.finish?

end MuxFlow.Json
