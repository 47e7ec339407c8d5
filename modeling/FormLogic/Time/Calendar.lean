/-!
# Calendar dates

Dates of the Gregorian calendar, continued without bound in both directions, and their count of
days.
-/

namespace FormLogic

def isLeapYear (year : Int) : Bool :=
  year % 4 == 0 && (year % 100 != 0 || year % 400 == 0)

/-- The number of days of a month, with January as `1`. -/
def monthLength (year : Int) (month : Nat) : Nat :=
  if month = 2 then (if isLeapYear year then 29 else 28)
  else if month = 4 ∨ month = 6 ∨ month = 9 ∨ month = 11 then 30
  else 31

/-- The number of days of a year before a month. -/
def daysBeforeMonth (year : Int) : Nat → Nat
  | 0 | 1 => 0
  | month + 2 => daysBeforeMonth year (month + 1) + monthLength year (month + 1)

/-- The number of days before a year, counted from the first day of the year `1`. -/
def daysBeforeYear (year : Int) : Int :=
  let past := year - 1
  365 * past + past / 4 - past / 100 + past / 400

/-- A date that exists. -/
structure CalendarDate where
  year : Int
  month : Nat
  day : Nat
  month_pos : 1 ≤ month
  month_le : month ≤ 12
  day_pos : 1 ≤ day
  day_le : day ≤ monthLength year month

namespace CalendarDate

/-- The date with the given parts, if there is one. -/
def of? (year : Int) (month day : Nat) : Option CalendarDate :=
  if h : (1 ≤ month ∧ month ≤ 12) ∧ 1 ≤ day ∧ day ≤ monthLength year month then
    some ⟨year, month, day, h.1.1, h.1.2, h.2.1, h.2.2⟩
  else none

/-- Days since the first day of the year `1`. -/
def dayNumber (d : CalendarDate) : Int :=
  daysBeforeYear d.year + daysBeforeMonth d.year d.month + (d.day - 1 : Nat)

/-- Days since the first of January 1970. -/
def daysSinceEpoch (d : CalendarDate) : Int :=
  d.dayNumber - daysBeforeYear 1970

def isMonthEnd (d : CalendarDate) : Bool :=
  d.day == monthLength d.year d.month

/-- The next day. -/
def next (d : CalendarDate) : Option CalendarDate :=
  if d.isMonthEnd then
    if d.month = 12 then of? (d.year + 1) 1 1 else of? d.year (d.month + 1) 1
  else of? d.year d.month (d.day + 1)

/-- The day before. -/
def previous (d : CalendarDate) : Option CalendarDate :=
  if d.day = 1 then
    if d.month = 1 then of? (d.year - 1) 12 31
    else of? d.year (d.month - 1) (monthLength d.year (d.month - 1))
  else of? d.year d.month (d.day - 1)

end CalendarDate

/-- The number of seconds of a day. -/
def secondsPerDay : Int := 86400

/-- A time of the day. -/
structure TimeOfDay where
  hour : Nat
  minute : Nat
  second : Nat
  hour_lt : hour < 24
  minute_lt : minute < 60
  second_lt : second < 60

namespace TimeOfDay

def of? (hour minute second : Nat) : Option TimeOfDay :=
  if h : hour < 24 ∧ minute < 60 ∧ second < 60 then
    some ⟨hour, minute, second, h.1, h.2.1, h.2.2⟩
  else none

/-- Seconds since midnight. -/
def seconds (t : TimeOfDay) : Int :=
  t.hour * 3600 + t.minute * 60 + t.second

end TimeOfDay

end FormLogic
