import Turnstile.Store.Keys

/-! Admission of requests. A request is admitted while its key is enabled, has quota left and has
a free slot; a key without a concurrency limit reserves no slot. Each admitted request is completed
once, which gives its slot back and may count as a use. -/

namespace Turnstile.Store

/-- Admits a request that presents the credential. The first of the checks that fails decides. -/
def beginRequest (s : Store) (credential : String) : Outcome ApiKey :=
  match s.findKey? credential with
  | none => (.error .keyNotFound, s)
  | some key =>
    if !key.enabled then (.error .keyDisabled, s)
    else if key.exhausted then (.error .quotaExceeded, s)
    else if key.hasConcurrencyLimit then
      -- the entry is made before it is looked at, also when the request is then refused
      let inFlight := s.inFlight.entry key.id
      if key.concurrencyLimit ≤ inFlight.count key.id then
        (.error .concurrencyExceeded, { s with inFlight })
      else (.ok key, { s with inFlight := inFlight.reserve key.id })
    else (.ok key, s)

/-- Completes a request on the first key that satisfies the test, which is `key`. The slot is given
back only if the key has a concurrency limit now. -/
def completeOn (s : Store) (test : ApiKey → Bool) (key : ApiKey) (counted : Bool) :
    Outcome ApiKey :=
  let after := if counted then key.recordUse else key
  let inFlight :=
    if key.hasConcurrencyLimit then s.inFlight.giveBack key.id else s.inFlight
  (.ok after, { s.withApiKeys (replaceFirst test after s.apiKeys) with inFlight })

/-- Completes a request by the credential that it presented. -/
def endRequest (s : Store) (credential : String) (counted : Bool) : Outcome ApiKey :=
  let credential := Text.trim credential
  if credential.isEmpty then (.error .keyNotFound, s)
  else match s.keyWithCredential? credential with
    | none => (.error .keyNotFound, s)
    | some key => s.completeOn (fun k => sameCredential k.credential credential) key counted

/-- Completes a request by the id of its key, which outlives a change of the credential. -/
def endRequestById (s : Store) (id : String) (counted : Bool) : Outcome ApiKey :=
  let id := Text.trim id
  match s.keyWithId? id with
  | none => (.error .keyNotFound, s)
  | some key => s.completeOn (·.id == id) key counted

def inFlightOf (s : Store) (id : String) : UInt32 := s.inFlight.count id

/-- Gives back every slot of a key and says how many there were; the id is taken as it stands. -/
def releaseSlots (s : Store) (id : String) : Outcome UInt32 :=
  match s.keyWithId? id with
  | none => (.error .keyNotFound, s)
  | some _ => (.ok (s.inFlight.count id), { s with inFlight := s.inFlight.remove id })

end Turnstile.Store
