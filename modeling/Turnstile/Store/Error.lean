import Turnstile.Record.Rule

/-! Why an operation of the store failed. -/

namespace Turnstile

inductive StoreError where
  | keyNotFound
  | keyDisabled
  | quotaExceeded
  | concurrencyExceeded
  | userNotFound
  | invalidCredentials
  | duplicateUsername
  | duplicateApiKey
  | configuration (detail : String)
  | validation (detail : String)
  | decode (detail : String)
  | encode (detail : String)
  | io (detail : String)
deriving DecidableEq

namespace StoreError

def ofRefusal (r : Refusal) : StoreError := .validation r.message

def message : StoreError → String
  | keyNotFound => "api key not found"
  | keyDisabled => "api key disabled"
  | quotaExceeded => "quota exceeded"
  | concurrencyExceeded => "concurrency exceeded"
  | userNotFound => "user not found"
  | invalidCredentials => "invalid credentials"
  | duplicateUsername => "duplicate username"
  | duplicateApiKey => "duplicate api key"
  | configuration detail => "Configuration error: " ++ detail
  | validation detail => "Validation error: " ++ detail
  | decode detail => "Decode error: " ++ detail
  | encode detail => "Encode error: " ++ detail
  | io detail => "I/O error: " ++ detail

/-- A limit of the key itself was reached. -/
def isLimit : StoreError → Bool
  | quotaExceeded | concurrencyExceeded => true
  | _ => false

end StoreError

end Turnstile
