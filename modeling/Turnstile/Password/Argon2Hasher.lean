import Turnstile.Password.Hasher
import Turnstile.Password.Phc
import Turnstile.Text.Utf8

/-! Password hashing with Argon2. The cost decides how new hashes are made; checking takes the cost
from the hash, so a change of the cost locks nobody out. Blanks around a password do not count. -/

namespace Turnstile

namespace Argon2

def CostFault.message : CostFault → String
  | .memoryTooSmall => "memory cost is too small"
  | .passesTooFew => "time cost is too small"
  | .lanesTooFew => "not enough threads"
  | .lanesTooMany => "too many threads"

/-- The shortest salt, in bytes. -/
def saltBound : Nat := 8

/-- The size of new digests. -/
def digestBytes : Nat := 32

/-- The size of new salts. -/
def saltBytes : Nat := 16

end Argon2

namespace PasswordHash

/-- The digest of a password under everything but the digest of the hash. -/
def digestOf (h : PasswordHash) (tagSize : Nat) (password : String) : List UInt8 :=
  Argon2.tag
    ⟨h.variant, h.version, h.cost, Utf8.encode (Text.trim password), h.salt, h.data, tagSize⟩

/-- The hash can be made at all. -/
def usable (h : PasswordHash) : Bool :=
  h.cost.check.toOption.isSome && Argon2.saltBound ≤ h.salt.length

def accepts (h : PasswordHash) (password : String) : Bool :=
  h.usable && h.digestOf h.digest.length password == h.digest

end PasswordHash

namespace Hasher

def argon2Hash (cost : Argon2.Cost) (salt : List UInt8) (password : String) :
    Except StoreError String :=
  match checkPassword password with
  | .error refusal => .error (.ofRefusal refusal)
  | .ok () =>
    let empty : PasswordHash := ⟨.id, .late, cost, [], salt, []⟩
    if empty.usable then
      .ok { empty with digest := empty.digestOf Argon2.digestBytes password }.render
    else .error (.encode "Failed to hash password: salt too short")

/-- A hash that cannot be read accepts nothing. -/
def argon2Verify (password hash : String) : Bool :=
  (PasswordHash.parse? hash).any (·.accepts password)

/-- The hasher of a cost, if the cost is one that hashing can have. -/
def argon2 (cost : Argon2.Cost) : Except StoreError Hasher :=
  match cost.check with
  | .ok () => .ok ⟨argon2Hash cost, argon2Verify⟩
  | .error fault =>
    .error (.configuration ("invalid password hashing cost: " ++ fault.message))

end Hasher

end Turnstile
