import Turnstile.Record.Rule
import Turnstile.Time.Moment

/-! API keys. A limit of zero means no limit. The used count grows under traffic, up to the
greatest count there is, and only a reset takes it back. -/

namespace Turnstile

structure ApiKey where
  /-- Empty until the store has assigned one. -/
  id : String
  credential : String
  label : String
  /-- Empty for a key without an owner. -/
  userId : String
  enabled : Bool
  totalLimit : UInt64
  usedCount : UInt64
  concurrencyLimit : UInt32
  /-- The credential is also accepted from carriers that are not strict. -/
  compatibilityMode : Bool
  /-- From the clock or from a text, since nothing else sets it. -/
  createdAt : Moment
deriving DecidableEq

namespace ApiKey

/-- An enabled key without limits, owner or id. -/
def fresh (credential label : String) (createdAt : Moment) : ApiKey :=
  ⟨"", credential, label, "", true, 0, 0, 0, false, createdAt⟩

def isNew (k : ApiKey) : Bool := k.id.isEmpty

/-! ## Limits -/

def hasTotalLimit (k : ApiKey) : Bool := 0 < k.totalLimit

def hasConcurrencyLimit (k : ApiKey) : Bool := 0 < k.concurrencyLimit

/-- The lifetime quota is used up. -/
def exhausted (k : ApiKey) : Bool := k.hasTotalLimit && k.totalLimit ≤ k.usedCount

/-- What is left of the quota; `none` without a quota. -/
def remaining (k : ApiKey) : Option UInt64 :=
  if k.hasTotalLimit then
    some (if k.usedCount ≤ k.totalLimit then k.totalLimit - k.usedCount else 0)
  else none

/-! ## Changes -/

/-- One use more, unless the count is at its greatest. -/
def recordUse (k : ApiKey) : ApiKey :=
  { k with usedCount := if k.usedCount < 0xFFFFFFFFFFFFFFFF then k.usedCount + 1 else k.usedCount }

def resetUsage (k : ApiKey) : ApiKey := { k with usedCount := 0 }

end ApiKey

/-- The changes that an owner can make to a stored key. -/
inductive KeyEdit where
  | credential (value : String)
  | label (value : String)
  | userId (value : String)
  | enabled (value : Bool)
  | totalLimit (value : UInt64)
  | concurrencyLimit (value : UInt32)
  | compatibilityMode (value : Bool)
  | resetUsage

namespace KeyEdit

def apply (k : ApiKey) : KeyEdit → ApiKey
  | credential value => { k with credential := value }
  | label value => { k with label := value }
  | userId value => { k with userId := value }
  | enabled value => { k with enabled := value }
  | totalLimit value => { k with totalLimit := value }
  | concurrencyLimit value => { k with concurrencyLimit := value }
  | compatibilityMode value => { k with compatibilityMode := value }
  | resetUsage => k.resetUsage

def applyAll (edits : List KeyEdit) (k : ApiKey) : ApiKey := edits.foldl apply k

end KeyEdit

end Turnstile
