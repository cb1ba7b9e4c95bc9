/-! Requests that were admitted and are not completed yet, counted for each key id. Between the
operations of a store an id without such requests has no entry, so every entry is at least one. -/

namespace Turnstile

abbrev InFlight := List (String × UInt32)

namespace InFlight

def count (m : InFlight) (id : String) : UInt32 := (m.lookup id).getD 0

def remove (m : InFlight) (id : String) : InFlight := m.filter (·.1 != id)

/-- The id has an entry, which is empty if it had none. -/
def entry (m : InFlight) (id : String) : InFlight :=
  if (m.lookup id).isSome then m else m ++ [(id, 0)]

/-- Gives the id that count, in its old place if it has one. -/
def put (id : String) (n : UInt32) : InFlight → InFlight
  | [] => [(id, n)]
  | (other, m) :: rest => if other == id then (id, n) :: rest else (other, m) :: put id n rest

/-- One request more. -/
def reserve (m : InFlight) (id : String) : InFlight := put id (m.count id + 1) m

/-- One request less, never below none. -/
def giveBack (m : InFlight) (id : String) : InFlight :=
  if m.count id ≤ 1 then m.remove id else put id (m.count id - 1) m

end InFlight

end Turnstile
