import FormLogic.Number.Decimal
import FormLogic.Text.Blank
import FormLogic.Time.Calendar

/-!
# Timestamps

The texts that date fields accept, and the seconds since the start of 1970 that each denotes; a
time of day alone counts from the start of 1970 as well. There are three layouts: a date, a time
of day, and the two together, where the last may also be an internet timestamp with a zone.
-/

namespace FormLogic

namespace Timestamp

/-- A fixed character in front. -/
def expect? (c : Char) : List Char → Option (List Char)
  | d :: rest => if d = c then some rest else none
  | [] => none

/-- A fixed number of digits in front. -/
def digits? (count : Nat) (cs : List Char) : Option (Nat × List Char) :=
  let digits := cs.take count
  if digits.length = count ∧ digits.all isDigit then
    some (digitsValue digits, cs.drop count)
  else none

/-- A year of four digits, a month and a day. -/
def unsignedDate? (cs : List Char) : Option ((Nat × Nat × Nat) × List Char) := do
  let (year, rest) ← digits? 4 cs
  let rest ← expect? '-' rest
  let (month, rest) ← digits? 2 rest
  let rest ← expect? '-' rest
  let (day, rest) ← digits? 2 rest
  return ((year, month, day), rest)

/-- A date in front, its year with an optional sign. -/
def splitDate? (cs : List Char) : Option (CalendarDate × List Char) := do
  let (negative, rest) := splitSign cs
  let ((year, month, day), rest) ← unsignedDate? rest
  let date ← CalendarDate.of? (if negative then -(year : Int) else year) month day
  return (date, rest)

/-- Hour and minute, and the second where one is given. -/
def timeOfDay? (cs : List Char) : Option TimeOfDay := do
  let (hour, rest) ← digits? 2 cs
  let rest ← expect? ':' rest
  let (minute, rest) ← digits? 2 rest
  match rest with
  | [] => TimeOfDay.of? hour minute 0
  | _ =>
    let rest ← expect? ':' rest
    let (second, rest) ← digits? 2 rest
    if rest ≠ [] then none
    TimeOfDay.of? hour minute second

/-- Drops a point and the digits of a fraction. -/
def dropFraction? : List Char → Option (List Char)
  | '.' :: rest =>
    match rest.span isDigit with
    | ([], _) => none
    | (_, rest) => some rest
  | cs => some cs

/-- The zone at the end of an internet timestamp, as seconds ahead of universal time. -/
def zone? : List Char → Option Int
  | ['Z'] | ['z'] => some 0
  | sign :: rest => do
    if sign ≠ '+' ∧ sign ≠ '-' then none
    let (hours, rest) ← digits? 2 rest
    let rest ← expect? ':' rest
    let (minutes, rest) ← digits? 2 rest
    if rest ≠ [] ∨ 24 ≤ hours ∨ 60 ≤ minutes then none
    let ahead : Int := hours * 3600 + minutes * 60
    return if sign = '-' then -ahead else ahead
  | [] => none

/-- Whether a moment of universal time, less than a day away from a date, is the last second of a
    month. -/
def isMonthEnd (date : CalendarDate) (secondOfDate : Int) : Bool :=
  let day :=
    if secondOfDate < 0 then date.previous
    else if secondsPerDay ≤ secondOfDate then date.next
    else some date
  secondOfDate % secondsPerDay == secondsPerDay - 1 && day.any (·.isMonthEnd)

/-- An internet timestamp: a date, one ASCII character, a time with seconds and maybe a fraction,
    and a zone. A leap second is allowed where one may be inserted, and counts as the second
    before it. -/
def internet? (cs : List Char) : Option Int := do
  let ((year, month, day), rest) ← unsignedDate? cs
  let date ← CalendarDate.of? year month day
  let separator :: rest := rest | none
  if 0x80 ≤ separator.toNat then none
  let (hour, rest) ← digits? 2 rest
  let rest ← expect? ':' rest
  let (minute, rest) ← digits? 2 rest
  let rest ← expect? ':' rest
  let (second, rest) ← digits? 2 rest
  let rest ← dropFraction? rest
  let ahead ← zone? rest
  let time ← TimeOfDay.of? hour minute (if second = 60 then 59 else second)
  let secondOfDate := time.seconds - ahead
  if second = 60 ∧ !isMonthEnd date secondOfDate then none
  return date.daysSinceEpoch * secondsPerDay + secondOfDate

/-- The first blank replaced by a `T`. -/
def joinAtBlank : List Char → List Char
  | [] => []
  | c :: rest => if c = ' ' then 'T' :: rest else c :: joinAtBlank rest

/-- A date, the letter `T` or a blank, and a time of day. -/
def local? (cs : List Char) : Option Int := do
  let (date, rest) ← splitDate? (joinAtBlank cs)
  let time ← timeOfDay? (← expect? 'T' rest)
  return date.daysSinceEpoch * secondsPerDay + time.seconds

/-- A date with a time of day. -/
def dateTime? (cs : List Char) : Option Int :=
  (internet? cs).or (local? cs)

/-- A date alone. -/
def date? (cs : List Char) : Option Int := do
  let (date, rest) ← splitDate? cs
  if rest ≠ [] then none
  return date.daysSinceEpoch * secondsPerDay

/-- A time of day alone. -/
def time? (cs : List Char) : Option Int :=
  (timeOfDay? cs).map (·.seconds)

/-- The moment that a text in any of the layouts denotes, blanks around it left aside. -/
def ofText? (text : String) : Option Int :=
  let cs := Text.trim text.toList
  ((dateTime? cs).or (date? cs)).or (time? cs)

end Timestamp

end FormLogic
