import Turnstile.Time.Moment

/-! Moments counted from the epoch. Years are taken to start in March, so that the leap day is the
last of its year and four hundred such years have always the same number of days. -/

namespace Turnstile

/-- Days in four hundred years. -/
def cycleDays : Nat := 146097

/-- Days from the first of March of the year zero to the epoch. -/
def daysBeforeEpoch : Nat := 719468

/-- The day that is so many days after the epoch. -/
def Date.afterEpoch? (days : Nat) : Option Date :=
  let all := days + daysBeforeEpoch
  let inCycle := all % cycleDays
  let year := (inCycle - inCycle / 1460 + inCycle / 36524 - inCycle / 146096) / 365
  let inYear := inCycle - (365 * year + year / 4 - year / 100)
  let fromMarch := (5 * inYear + 2) / 153
  let day := inYear - (153 * fromMarch + 2) / 5 + 1
  let month := if fromMarch < 10 then fromMarch + 3 else fromMarch - 9
  of? (year + 400 * (all / cycleDays) + (if month ≤ 2 then 1 else 0) : Nat) month day

def Moment.afterEpoch? (seconds nano : Nat) : Option Moment := do
  of? (← Date.afterEpoch? (seconds / 86400)) (seconds % 86400) nano

end Turnstile
