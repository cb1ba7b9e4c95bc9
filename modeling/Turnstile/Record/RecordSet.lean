import Turnstile.Record.User
import Turnstile.Record.ApiKey

/-! All that a store keeps: the users and the keys, in the order in which they came. -/

namespace Turnstile

structure RecordSet where
  version : UInt32
  /-- Open to whoever makes a record set, so any point of time. -/
  updatedAt : Timestamp
  users : List User
  apiKeys : List ApiKey
deriving DecidableEq

namespace RecordSet

def currentVersion : UInt32 := 1

def empty (now : Moment) : RecordSet := ⟨currentVersion, now, [], []⟩

end RecordSet

end Turnstile
