import MuxFlow.Json.Value

/-!
# Reading into a record

A document is read into a record that already holds something: every member of
an object changes the field of its name, and a name that occurs twice changes
its field twice. So the reader of a type `α` is a function of the old value and
of what the document says, `Field α`; it gives `none` when the document says
something of the wrong kind. `null` says nothing.

Lists are read over what stood there before, item by item. A list that gets
shorter leaves its last items behind, out of sight: when it grows again they are
what the new items are read over. `Places` keeps them.
-/

namespace MuxFlow.Document

/-- How a part of a document changes a value. -/
abbrev Field (α : Type) := α → Json → Option α

/-- A letter as it counts in the name of a member, where capitals do not matter.
The two letters outside ASCII are the ones that have an ASCII letter as their
other case. -/
def foldLetter (c : Char) : Char :=
  if c.toNat = 0x17f then 's'
  else if c.toNat = 0x212a then 'k'
  else if 'A' ≤ c ∧ c ≤ 'Z' then Char.ofNat (c.toNat + 32)
  else c

/-- A name as it counts. -/
def foldName (name : String) : List Char := name.toList.map foldLetter

namespace Field

/-- A text. -/
def text : Field String
  | _, .str s => some s
  | old, .null => some old
  | _, _ => none

/-- A truth value. -/
def flag : Field Bool
  | _, .bool b => some b
  | old, .null => some old
  | _, _ => none

/-- A value that need not be there; `null` takes it away. -/
def optional {α : Type} (fresh : α) (read : Field α) : Field (Option α)
  | _, .null => some none
  | old, v => (read (old.getD fresh) v).map some

/-- A value that is replaced as a whole. -/
def replace {α : Type} (read : Json → Option α) : Field α := fun _ v => read v

/-- A field of a record, seen from the record. -/
def on {α β : Type} (get : α → β) (set : α → β → α) (read : Field β) : Field α :=
  fun a v => (read (get a) v).map (set a)

/-- The reader of the field with a name, if the record has one. -/
def find? {α : Type} (fields : List (String × Field α)) (name : String) : Option (Field α) :=
  (fields.find? fun f => foldName f.1 = foldName name).map Prod.snd

/-- Reads the members of an object one after the other; members that the record
does not know are passed over. -/
def members {α : Type} (fields : List (String × Field α)) (old : α)
    (ms : List (String × Json)) : Option α :=
  ms.foldlM (fun a m =>
    match find? fields m.1 with
    | some read => read a m.2
    | none => some a) old

/-- A record. -/
def record {α : Type} (fields : List (String × Field α)) : Field α
  | old, .obj ms => members fields old ms
  | old, .null => some old
  | _, _ => none

end Field

/-- A list together with items that it once had beyond its end. -/
structure Places (α : Type) where
  items : List α := []
  left : List α := []

namespace Places

/-- Reads items over the places; a place that was never used holds `fresh`. -/
def readItems {α : Type} (fresh : α) (read : Field α) : List α → List Json → Option (List α)
  | _, [] => some []
  | olds, v :: vs => do
    return (← read (olds.headD fresh) v) :: (← readItems fresh read olds.tail vs)

/-- Reads a list over the places. An empty list and `null` forget them all. -/
def field {α : Type} (fresh : α) (read : Field α) : Field (Places α)
  | _, .null => some {}
  | _, .arr [] => some {}
  | old, .arr vs =>
    (readItems fresh read (old.items ++ old.left) vs).map fun items =>
      ⟨items, (old.items ++ old.left).drop vs.length⟩
  | _, _ => none

end Places

end MuxFlow.Document
