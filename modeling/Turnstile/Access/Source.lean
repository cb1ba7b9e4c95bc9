import Turnstile.Record.ApiKey

/-! Where on a request a credential may stand, and which places are trusted for which keys. -/

namespace Turnstile

inductive Source where
  | authorization
  | apiKeyHeader
  | googleHeader
  | queryKey
  | queryToken
deriving DecidableEq

namespace Source

def label : Source → String
  | authorization => "authorization"
  | apiKeyHeader => "x-api-key"
  | googleHeader => "x-goog-api-key"
  | queryKey => "query-key"
  | queryToken => "query-auth-token"

def all : List Source := [authorization, apiKeyHeader, googleHeader, queryKey, queryToken]

def ofLabel? (s : String) : Option Source := all.find? (·.label == s)

/-- A strict place is trusted for every key. -/
def isStrict : Source → Bool
  | authorization | apiKeyHeader => true
  | googleHeader | queryKey | queryToken => false

end Source

namespace ApiKey

/-- The other places are trusted for keys in compatibility mode only. -/
def trusts (k : ApiKey) (source : Source) : Bool := source.isStrict || k.compatibilityMode

end ApiKey

end Turnstile
