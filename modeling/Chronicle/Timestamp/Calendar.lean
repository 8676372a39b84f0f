set_option autoImplicit false

/-!
# The Gregorian calendar

Days counted from the first of January of the year zero, for all years before and after.
-/

namespace Chronicle.Calendar

/-- A leap year. -/
def isLeapYear (year : Int) : Bool :=
  year % 4 == 0 && (year % 100 != 0 || year % 400 == 0)

/-- The lengths of the months. -/
def monthLengths (year : Int) : List Nat :=
  [31, if isLeapYear year then 29 else 28, 31, 30, 31, 30, 31, 31, 30, 31, 30, 31]

/-- The number of days before a year's first. -/
def daysBeforeYear (year : Int) : Int :=
  365 * year + (year + 3) / 4 - (year + 99) / 100 + (year + 399) / 400

/-- The number of days of a year before a month's first. -/
def daysBeforeMonth (year : Int) (month : Nat) : Nat :=
  ((monthLengths year).take (month - 1)).foldl Nat.add 0

/-- The day of a date, if there is such a date. -/
def dayOf? (year : Int) (month day : Nat) : Option Int :=
  match (monthLengths year)[month - 1]? with
  | some length =>
      if 1 ≤ month ∧ 1 ≤ day ∧ day ≤ length then
        some (daysBeforeYear year + daysBeforeMonth year month + (day - 1 : Nat))
      else none
  | none => none

/-- The year in which a day falls. -/
def yearOf (day : Int) : Int :=
  let year := day * 400 / 146097
  if day < daysBeforeYear year then year - 1
  else if daysBeforeYear (year + 1) ≤ day then year + 1
  else year

/-- The month and the day of the month, `rest` days into the month numbered `month`. -/
def monthDay : List Nat → Nat → Nat → Nat × Nat
  | [], month, rest => (month, rest + 1)
  | length :: more, month, rest =>
      if rest < length then (month, rest + 1) else monthDay more (month + 1) (rest - length)

/-- The year, month and day of the month of a day. -/
def dateOf (day : Int) : Int × Nat × Nat :=
  let year := yearOf day
  (year, monthDay (monthLengths year) 1 (day - daysBeforeYear year).toNat)

end Chronicle.Calendar
