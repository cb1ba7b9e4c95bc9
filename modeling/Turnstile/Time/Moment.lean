import Turnstile.Time.Timestamp

/-! The points of time that a clock shows and that a text can name. The creation of a record has one
of them: it is set from the clock or read, never by hand. -/

namespace Turnstile

/-- A leap second stands behind the last second of a minute only. -/
def Timestamp.isMoment (t : Timestamp) : Bool := t.nano < 1000000000 || t.second % 60 == 59

structure Moment extends Timestamp where
  placed : toTimestamp.isMoment = true
deriving DecidableEq

namespace Moment

instance : Coe Moment Timestamp := ⟨toTimestamp⟩

def epoch : Moment := ⟨.epoch, by decide⟩

def of? (date : Date) (second nano : Nat) : Option Moment := do
  let t ← Timestamp.of? date second nano
  if h : t.isMoment = true then some ⟨t, h⟩ else none

/-- The moment whose clock, `minutes` ahead of universal time, shows the given date and second. -/
def ofLocal? (date : Date) (second nano : Nat) (minutes : Int) : Option Moment :=
  let shifted := (second : Int) - minutes * 60
  if shifted < 0 then do of? (← date.previous?) (shifted + 86400).toNat nano
  else if 86400 ≤ shifted then do of? (← date.next?) (shifted - 86400).toNat nano
  else of? date shifted.toNat nano

end Moment

end Turnstile
