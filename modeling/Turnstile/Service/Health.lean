import Turnstile.Json.Value
import Turnstile.Store.Basic

/-! What the service says about itself. A store without a file still serves, but is degraded: what
it holds is lost with the process. The path of the file is not told. -/

namespace Turnstile.Health

open Json (Value)

def version : String := "0.1.0"

def healthy : Value := .obj [("status", .str "healthy"), ("version", .str version)]

def status (s : Store) : String := if s.path.isSome then "healthy" else "degraded"

def summary (s : Store) : String :=
  s.counts.1.repr ++ " users, " ++ s.counts.2.repr ++ " api keys" ++
    if s.path.isSome then " (persisted)" else " (no data path, not persisted)"

/-- The checks take no time that shows. -/
def readiness (s : Store) : Value :=
  .obj [("status", .str (status s)), ("version", .str version),
    ("checks", .arr [.obj [("name", .str "record_store"), ("status", .str (status s)),
      ("message", .str (summary s)), ("latency_ms", .nat 0)]]),
    ("latency_ms", .nat 0)]

end Turnstile.Health
