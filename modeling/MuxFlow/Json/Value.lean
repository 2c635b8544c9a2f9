import MuxFlow.Distinct
import MuxFlow.Number.Layout

/-!
# JSON values

A `Json` value is what a document says, member by member: the members of an
object keep their order, and a name may occur more than once. Whoever reads an
object decides what a repeated name means. Numbers are kept as written.

`Json.normal?` is the form in which a value is shown where a text is expected:
numbers in the 64-bit binary format, the members of an object sorted by name,
and of members of one name only the last.
-/

namespace MuxFlow

/-- A JSON value. -/
inductive Json where
  | null
  | bool (b : Bool)
  | num (n : Decimal)
  | str (s : String)
  | arr (items : List Json)
  | obj (members : List (String × Json))
  deriving Inhabited

namespace Json

/-- The greatest number of containers around a value, the value included. -/
def maxDepth : Nat := 10000

mutual

/-- The number of containers that stand inside one another. -/
def depth : Json → Nat
  | arr items => depthOfItems items + 1
  | obj members => depthOfMembers members + 1
  | _ => 0

/-- The greatest depth of a list of values. -/
def depthOfItems : List Json → Nat
  | [] => 0
  | v :: vs => max (depth v) (depthOfItems vs)

/-- The greatest depth of the values of members. -/
def depthOfMembers : List (String × Json) → Nat
  | [] => 0
  | (_, v) :: ms => max (depth v) (depthOfMembers ms)

end

/-- The members sorted by name; of members of one name only the last is kept. -/
def sortMembers {α : Type} (members : List (String × α)) : List (String × α) :=
  (distinctBy Prod.fst members.reverse).mergeSort fun a b => a.1 ≤ b.1

mutual

/-- The value with its numbers rounded and its objects sorted; `none` when a
number is beyond the greatest one of the binary format. -/
def normal? : Json → Option Json
  | num n => (Binary64.ofDecimal? n).map fun x => num x.toDecimal
  | arr items => (normalItems? items).map arr
  | obj members => (normalMembers? members).map fun ms => obj (sortMembers ms)
  | v => some v

/-- The normal forms of a list of values. -/
def normalItems? : List Json → Option (List Json)
  | [] => some []
  | v :: vs => do return (← normal? v) :: (← normalItems? vs)

/-- The members with their values in normal form. -/
def normalMembers? : List (String × Json) → Option (List (String × Json))
  | [] => some []
  | (name, v) :: ms => do return (name, ← normal? v) :: (← normalMembers? ms)

end

end Json

end MuxFlow
