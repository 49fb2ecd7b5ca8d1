import AuditTrail.Text.Numeral

namespace AuditTrail.Calendar

structure Date where
  year : Nat
  month : Nat
  day : Nat
  deriving DecidableEq

/-- The date so many days after 1 January 1970. Years are counted from March, so that the leap
day comes last, and in cycles of four centuries, which have 146097 days each. -/
def Date.ofEpochDay (epochDay : Nat) : Date :=
  let fromMarch := epochDay + 719468
  let cycle := fromMarch / 146097
  let dayOfCycle := fromMarch % 146097
  let yearOfCycle :=
    (dayOfCycle - dayOfCycle / 1460 + dayOfCycle / 36524 - dayOfCycle / 146096) / 365
  let dayOfYear := dayOfCycle - (365 * yearOfCycle + yearOfCycle / 4 - yearOfCycle / 100)
  let monthFromMarch := (5 * dayOfYear + 2) / 153
  let month := if monthFromMarch < 10 then monthFromMarch + 3 else monthFromMarch - 9
  { year := cycle * 400 + yearOfCycle + if month ≤ 2 then 1 else 0
    month
    day := dayOfYear - (153 * monthFromMarch + 2) / 5 + 1 }

def weekdays : List String := ["Sun", "Mon", "Tue", "Wed", "Thu", "Fri", "Sat"]

def months : List String :=
  ["Jan", "Feb", "Mar", "Apr", "May", "Jun", "Jul", "Aug", "Sep", "Oct", "Nov", "Dec"]

def weekday (epochDay : Nat) : String :=
  weekdays.getD ((epochDay + 4) % 7) ""

/-- A moment, given in seconds since 1970, as in `Thu Jan  1 00:00:00 1970`. -/
def text (seconds : Nat) : String :=
  let epochDay := seconds / 86400
  let date := Date.ofEpochDay epochDay
  let clock := [seconds / 3600 % 24, seconds / 60 % 60, seconds % 60]
  " ".intercalate
    [weekday epochDay, months.getD (date.month - 1) "", Numeral.padded ' ' 2 date.day,
      ":".intercalate (clock.map (Numeral.padded '0' 2)), Numeral.decimal date.year]

end AuditTrail.Calendar
