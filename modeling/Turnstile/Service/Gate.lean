import Turnstile.Service.World
import Turnstile.Store.Admission

/-! The gate in front of counted requests. A request enters by passing the access check and being
admitted; it leaves once, either completed, which counts as a use if it was served, or dropped. -/

namespace Turnstile

/-- A request inside the gate. -/
structure Admitted where
  grant : Grant
  /-- The id of the key that was admitted. -/
  keyId : String
deriving DecidableEq

namespace Gate

def enter (r : Http.Request) : Handler Admitted := fun w =>
  match w.store.checkAccess r.carrier with
  | .error e => (.error (.ofAccess e), w)
  | .ok grant =>
    match w.store.beginRequest grant.principal with
    | (.ok key, store) => (.ok ⟨grant, key.id⟩, { w with store })
    | (.error e, store) => (.error (.ofStore e), { w with store })

/-- Leaves with an answer. A failure to save does not reach the caller. -/
def complete (service : Service) (draw : Draw) (admitted : Admitted) (served : Bool) (w : World) :
    World :=
  match w.store.endRequestById admitted.keyId served with
  | (.error _, store) => { w with store }
  | (.ok _, store) =>
    let w := { w with store }
    if served && service.saveOnUse then (w.persist draw).2 else w

/-- Leaves without an answer. -/
def drop (admitted : Admitted) (w : World) : World :=
  { w with store := (w.store.endRequestById admitted.keyId false).2 }

end Gate

end Turnstile
