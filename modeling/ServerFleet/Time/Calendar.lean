/-!
# Calendar dates

Dates of the Gregorian calendar, extended to every year of a fixed range.  A
date carries its validity, so that the day before and the day after it are dates
again unless the range ends there.
-/

namespace ServerFleet
namespace Time

def firstYear : Int := -262143

def lastYear : Int := 262142

def isLeapYear (year : Int) : Bool :=
  year % 4 == 0 && (year % 100 != 0 || year % 400 == 0)

def daysInMonth (year : Int) (month : Nat) : Nat :=
  if month == 2 then (if isLeapYear year then 29 else 28)
  else if month == 4 || month == 6 || month == 9 || month == 11 then 30
  else 31

structure Date where
  year : Int
  month : Nat
  day : Nat
  year_inside : firstYear ≤ year ∧ year ≤ lastYear
  month_inside : 1 ≤ month ∧ month ≤ 12
  day_inside : 1 ≤ day ∧ day ≤ daysInMonth year month
deriving DecidableEq, Repr

def Date.of? (year : Int) (month day : Nat) : Option Date :=
  if hy : firstYear ≤ year ∧ year ≤ lastYear then
    if hm : 1 ≤ month ∧ month ≤ 12 then
      if hd : 1 ≤ day ∧ day ≤ daysInMonth year month then
        some ⟨year, month, day, hy, hm, hd⟩
      else none
    else none
  else none

def Date.next? (d : Date) : Option Date :=
  if d.day < daysInMonth d.year d.month then Date.of? d.year d.month (d.day + 1)
  else if d.month < 12 then Date.of? d.year (d.month + 1) 1
  else Date.of? (d.year + 1) 1 1

def Date.previous? (d : Date) : Option Date :=
  if 1 < d.day then Date.of? d.year d.month (d.day - 1)
  else if 1 < d.month then
    Date.of? d.year (d.month - 1) (daysInMonth d.year (d.month - 1))
  else Date.of? (d.year - 1) 12 31

theorem Date.of?_self (d : Date) :
    Date.of? d.year d.month d.day = some d := by
  simp [Date.of?, d.year_inside, d.month_inside, d.day_inside]

end Time
end ServerFleet
