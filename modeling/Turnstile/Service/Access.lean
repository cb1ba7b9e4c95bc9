import Turnstile.Service.View
import Turnstile.Service.Gate

/-! The counted check itself: who the key is and how much it was used before this request. -/

namespace Turnstile.Access

open Json (Value)

def report (grant : Grant) : Value :=
  .obj ([("key_id", .str grant.key.id), ("source", .str grant.source.label),
    ("metadata", .obj (grant.metadata.map fun (name, value) => (name, .str value))),
    ("used", .nat grant.key.usedCount.toNat)] ++
    grant.key.limit.toList.map fun n => ("limit", .nat n.toNat))

end Turnstile.Access
