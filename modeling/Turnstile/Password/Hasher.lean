import Turnstile.Store.Error

/-! What the store needs of a password hasher. -/

namespace Turnstile

structure Hasher where
  /-- The hash of a password under the salt given. -/
  hash : List UInt8 → String → Except StoreError String
  /-- The password is the one that the hash was made from. -/
  verify : String → String → Bool

end Turnstile
