/-!
# Dates and times

A plain scalar that looks like a date is one. Four spellings are known: a date,
a date and a time with one or more blanks between them, and a date and a time
with a `T` or a `t` between them and a zone at the end. Months, days, hours,
minutes and seconds have one or two digits; a fraction of a second has as many
as one likes, of which nine count.

`Timestamp.text?` is the one form in which a time is written.
-/

namespace MuxFlow.Yaml

/-- A point of time, with the distance of its zone in seconds. -/
structure Timestamp where
  year : Nat
  month : Nat
  day : Nat
  hour : Nat := 0
  minute : Nat := 0
  second : Nat := 0
  nanosecond : Nat := 0
  zone : Int := 0
  deriving DecidableEq, Repr

namespace Timestamp

/-- The value of a decimal digit. -/
def digit? (c : Char) : Option Nat :=
  if '0' ≤ c ∧ c ≤ '9' then some (c.toNat - 0x30) else none

/-- Whether a character is a decimal digit. -/
def isDigit (c : Char) : Bool := (digit? c).isSome

/-- The number that a row of digits spells. -/
def spelled (ds : List Char) : Nat := ds.foldl (fun n c => n * 10 + (digit? c).getD 0) 0

/-- Reads a number of one or two digits. -/
def short? : List Char → Option (Nat × List Char)
  | a :: b :: rest =>
    (digit? a).map fun x =>
      match digit? b with
      | some y => (x * 10 + y, rest)
      | none => (x, b :: rest)
  | [a] => (digit? a).map fun x => (x, [])
  | [] => none

/-- Reads a given character. -/
def mark? (c : Char) : List Char → Option (List Char)
  | d :: rest => if d = c then some rest else none
  | [] => none

/-- The number of days of a month. -/
def daysIn (year month : Nat) : Nat :=
  if month = 2 then
    if year % 4 = 0 ∧ (year % 100 ≠ 0 ∨ year % 400 = 0) then 29 else 28
  else if month ∈ [4, 6, 9, 11] then 30
  else 31

/-- Reads a date; the year has four digits. -/
def date? (s : List Char) : Option (Timestamp × List Char) := do
  let digits := s.takeWhile isDigit
  if digits.length ≠ 4 then none
  else
    let rest ← mark? '-' (s.drop 4)
    let (month, rest) ← short? rest
    let rest ← mark? '-' rest
    let (day, rest) ← short? rest
    let year := spelled digits
    if 1 ≤ month ∧ month ≤ 12 ∧ 1 ≤ day ∧ day ≤ daysIn year month then
      some ({ year, month, day }, rest)
    else none

/-- Reads the fraction of a second, in nanoseconds; it may be missing. -/
def fraction (s : List Char) : Nat × List Char :=
  match s with
  | c :: rest =>
    let digits := rest.takeWhile isDigit
    if (c = '.' ∨ c = ',') ∧ digits ≠ [] then
      let used := digits.take 9
      (spelled used * Nat.pow 10 (9 - used.length), rest.drop digits.length)
    else (0, s)
  | [] => (0, [])

/-- Reads a time of the day. -/
def clock? (t : Timestamp) (s : List Char) : Option (Timestamp × List Char) := do
  let (hour, rest) ← short? s
  let rest ← mark? ':' rest
  let (minute, rest) ← short? rest
  let rest ← mark? ':' rest
  let (second, rest) ← short? rest
  if 24 ≤ hour ∨ 60 ≤ minute ∨ 60 ≤ second then none
  else
    let (nanosecond, rest) := fraction rest
    some ({ t with hour, minute, second, nanosecond }, rest)

/-- Reads a number of exactly two digits. -/
def pair? (a b : Char) : Option Nat := do
  return (← digit? a) * 10 + (← digit? b)

/-- Reads the zone that ends a time. -/
def zone? : List Char → Option Int
  | ['Z'] => some 0
  | [sign, a, b, ':', c, d] => do
    let hours ← pair? a b
    let minutes ← pair? c d
    let seconds : Int := (hours * 60 + minutes) * 60
    if 24 < hours ∨ 60 < minutes then none
    else if sign = '+' then some seconds
    else if sign = '-' then some (-seconds)
    else none
  | _ => none

/-- The time that a text spells. -/
def parse? (s : String) : Option Timestamp := do
  let (t, rest) ← date? s.toList
  match rest with
  | [] => some t
  | c :: rest =>
    if c = 'T' ∨ c = 't' then
      let (t, rest) ← clock? t rest
      let zone ← zone? rest
      some { t with zone }
    else if c = ' ' then
      let (t, rest) ← clock? t (rest.dropWhile (· = ' '))
      if rest.isEmpty then some t else none
    else none

/-- A number with leading zeros. -/
def padded (width n : Nat) : String :=
  let ds := Nat.toDigits 10 n
  String.ofList (List.replicate (width - ds.length) '0' ++ ds)

/-- The fraction of a second without final zeros. -/
def fractionText (nanosecond : Nat) : String :=
  if nanosecond = 0 then ""
  else
    let ds := (padded 9 nanosecond).toList
    "." ++ String.ofList (ds.reverse.dropWhile (· = '0')).reverse

/-- The zone; `Z` stands for none. -/
def zoneText (zone : Int) : String :=
  if zone = 0 then "Z"
  else
    let minutes := zone.natAbs / 60
    (if zone < 0 then "-" else "+") ++ padded 2 (minutes / 60) ++ ":" ++ padded 2 (minutes % 60)

/-- The time as a text. A zone of a day or more cannot be written. -/
def text? (t : Timestamp) : Option String :=
  if 24 * 3600 ≤ t.zone.natAbs then none
  else some (padded 4 t.year ++ "-" ++ padded 2 t.month ++ "-" ++ padded 2 t.day ++ "T" ++
    padded 2 t.hour ++ ":" ++ padded 2 t.minute ++ ":" ++ padded 2 t.second ++
    fractionText t.nanosecond ++ zoneText t.zone)

end Timestamp

end MuxFlow.Yaml
