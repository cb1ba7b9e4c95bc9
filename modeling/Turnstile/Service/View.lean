import Turnstile.Json.Value
import Turnstile.Record.RecordSet

/-! How records are shown to callers. A user is shown without the password hash; a key without an
owner has no owner field; a limit of zero is shown as none. -/

namespace Turnstile

open Json (Value)

namespace User

def view (u : User) : Value :=
  .obj [("id", .str u.id), ("username", .str u.username), ("role", .str u.role.label),
    ("disabled", .bool u.disabled), ("created_at", .str u.createdAt.toOffset)]

end User

namespace ApiKey

def view (k : ApiKey) : Value :=
  .obj ([("id", .str k.id), ("key", .str k.credential), ("label", .str k.label)] ++
    (if k.userId.isEmpty then [] else [("user_id", .str k.userId)]) ++
    [("enabled", .bool k.enabled), ("total_limit", .nat k.totalLimit.toNat),
      ("used_count", .nat k.usedCount.toNat), ("concurrency_limit", .nat k.concurrencyLimit.toNat),
      ("compatibility_mode", .bool k.compatibilityMode),
      ("created_at", .str k.createdAt.toOffset)])

/-- The quota, if there is one. -/
def limit (k : ApiKey) : Option UInt64 := if k.hasTotalLimit then some k.totalLimit else none

def ceiling (k : ApiKey) : Option UInt32 :=
  if k.hasConcurrencyLimit then some k.concurrencyLimit else none

end ApiKey

/-- How far a key is used. -/
structure Usage where
  keyId : String
  label : String
  enabled : Bool
  used : UInt64
  limit : Option UInt64
  remaining : Option UInt64
  inFlight : UInt32
  ceiling : Option UInt32
deriving DecidableEq

namespace Usage

def of (k : ApiKey) (inFlight : UInt32) : Usage :=
  ⟨k.id, k.label, k.enabled, k.usedCount, k.limit, k.remaining, inFlight, k.ceiling⟩

def view (u : Usage) : Value :=
  .obj [("key_id", .str u.keyId), ("label", .str u.label), ("enabled", .bool u.enabled),
    ("used", .nat u.used.toNat), ("limit", Value.ofOption (.nat ·.toNat) u.limit),
    ("remaining", Value.ofOption (.nat ·.toNat) u.remaining),
    ("in_flight", .nat u.inFlight.toNat),
    ("concurrency_limit", Value.ofOption (.nat ·.toNat) u.ceiling)]

end Usage

end Turnstile
