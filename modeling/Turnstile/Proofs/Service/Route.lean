import Turnstile.Proofs.Files.Path
import Turnstile.Proofs.Service.Action

/-! Where an action is found. A request is answered by the first route that its path matches, so
what a path starts with can be read off the routes that have the action: only the counted access
check stands behind the gate, and whatever writes or releases stands below the administration. -/

namespace Turnstile

open Http (Request Response)

/-- The request asks for that action, with these ids in its path. -/
def Http.Request.Asks (r : Request) (action : Action) (ids : List (String × String)) : Prop :=
  ∃ route, findRoute r.uri.path = some (route, ids) ∧ route.action? r.method = some action

namespace Route

variable {route : Route} {path : String} {ids : List (String × String)}

theorem find?_of_findRoute (h : findRoute path = some (route, ids)) :
    route ∈ routes ∧ route.find? path = some ids := by
  obtain ⟨candidate, hmem, hfound⟩ := List.exists_of_findSome?_eq_some h
  obtain ⟨found, hids, hpair⟩ := Option.map_eq_some_iff.mp hfound
  obtain ⟨rfl, rfl⟩ := Prod.mk.inj hpair
  exact ⟨hmem, hids⟩

theorem matchPieces_of_find? (h : route.find? path = some ids) :
    ∃ rest, Path.pieces path = "" :: rest ∧ matchPieces route.pieces rest = some ids := by
  unfold find? at h
  split at h
  · rename_i rest hpieces
    exact ⟨rest, hpieces, h⟩
  · cases h

/-- A literal piece stands in every path that matches. -/
theorem matchPieces_literal {text : String} {pieces : List Piece} {rest : List String}
    (h : matchPieces (.literal text :: pieces) rest = some ids) :
    ∃ more, rest = text :: more ∧ matchPieces pieces more = some ids := by
  cases rest with
  | nil => cases h
  | cons first more =>
    rw [matchPieces] at h
    split at h
    · rename_i htext
      exact ⟨more, by rw [beq_iff_eq.mp htext], h⟩
    · cases h

theorem ne_nil_of_matchPieces {piece : Piece} {pieces : List Piece} {rest : List String}
    (h : matchPieces (piece :: pieces) rest = some ids) : rest ≠ [] := by
  rintro rfl
  cases piece <;> cases h

theorem eq_nil_of_matchPieces {rest : List String} (h : matchPieces [] rest = some ids) :
    rest = [] := by
  cases rest with
  | nil => rfl
  | cons => cases h

theorem mem_actions_of_action? {method : String} {action : Action}
    (h : route.action? method = some action) : ∃ verb, (verb, action) ∈ route.actions := by
  obtain ⟨before, rest, hactions, -⟩ := List.lookup_eq_some_iff.mp h
  exact ⟨_, by rw [hactions]; exact List.mem_append_right before List.mem_cons_self⟩

/-! ## Two parts of the table -/

theorem pieces_of_gate (hroute : route ∈ routes)
    (hgate : route.isGated = true ∨ ∃ verb, (verb, Action.checkAccess) ∈ route.actions) :
    route.pieces = [.literal "v1", .literal "access"] := by
  have htable : ∀ route ∈ routes, (route.isGated = true ∨
      ∃ entry ∈ route.actions, entry.2 = Action.checkAccess) →
        route.pieces = [.literal "v1", .literal "access"] := by
    decide
  refine htable route hroute (hgate.imp_right ?_)
  rintro ⟨verb, hmem⟩
  exact ⟨_, hmem, rfl⟩

theorem pieces_of_change (hroute : route ∈ routes) {verb : String} {action : Action}
    (hmem : (verb, action) ∈ route.actions)
    (hchange : action.writes = true ∨ action = .release) :
    ∃ piece pieces, route.pieces = .literal "admin" :: piece :: pieces := by
  have htable : ∀ route ∈ routes, ∀ entry ∈ route.actions,
      (entry.2.writes = true ∨ entry.2 = .release) →
        route.pieces.head? = some (.literal "admin") ∧ 2 ≤ route.pieces.length := by
    decide
  obtain ⟨hhead, hlength⟩ := htable route hroute _ hmem hchange
  match hpieces : route.pieces, hhead, hlength with
  | first :: piece :: pieces, hhead, _ =>
    rw [List.head?_cons, Option.some.injEq] at hhead
    exact ⟨piece, pieces, by rw [hhead]⟩

/-! ## Paths -/

theorem path_of_literals {first second : String} (h : findRoute path = some (route, ids))
    (hpieces : route.pieces = [.literal first, .literal second]) :
    path = "/".intercalate ["", first, second] := by
  obtain ⟨-, hfound⟩ := find?_of_findRoute h
  obtain ⟨rest, hpath, hmatch⟩ := matchPieces_of_find? hfound
  rw [hpieces] at hmatch
  obtain ⟨more, rfl, hmore⟩ := matchPieces_literal hmatch
  obtain ⟨last, rfl, hlast⟩ := matchPieces_literal hmore
  rw [← Path.intercalate_pieces path, hpath, eq_nil_of_matchPieces hlast]

/-- The one path behind the gate. -/
theorem path_of_gate (h : findRoute path = some (route, ids))
    (hgate : route.isGated = true ∨ ∃ verb, (verb, Action.checkAccess) ∈ route.actions) :
    path = "/v1/access" := by
  rw [path_of_literals h (pieces_of_gate (find?_of_findRoute h).1 hgate)]
  decide

/-- The one request that is a login. -/
theorem request_of_login (h : findRoute path = some (route, ids)) {method : String}
    (haction : route.action? method = some .login) :
    method = "POST" ∧ path = "/portal/login" := by
  have htable : ∀ route ∈ routes, (∃ entry ∈ route.actions, entry.2 = Action.login) →
      route.pieces = [.literal "portal", .literal "login"] ∧
        route.actions = [("POST", .login)] := by
    decide
  obtain ⟨verb, hmem⟩ := mem_actions_of_action? haction
  obtain ⟨hpieces, hactions⟩ := htable route (find?_of_findRoute h).1 ⟨_, hmem, rfl⟩
  refine ⟨?_, (path_of_literals h hpieces).trans (by decide)⟩
  rw [action?, hactions, List.lookup_cons, List.lookup_nil] at haction
  split at haction
  · rename_i hverb
    split at hverb
    · cases hverb
    · exact beq_iff_eq.mp hverb
  · cases haction

theorem path_of_change (h : findRoute path = some (route, ids)) {method : String} {action : Action}
    (haction : route.action? method = some action)
    (hchange : action.writes = true ∨ action = .release) : ∃ rest, path = "/admin/" ++ rest := by
  obtain ⟨hroute, hfound⟩ := find?_of_findRoute h
  obtain ⟨verb, hmem⟩ := mem_actions_of_action? haction
  obtain ⟨piece, pieces, hpieces⟩ := pieces_of_change hroute hmem hchange
  obtain ⟨rest, hpath, hmatch⟩ := matchPieces_of_find? hfound
  rw [hpieces] at hmatch
  obtain ⟨more, rfl, hmore⟩ := matchPieces_literal hmatch
  obtain ⟨second, others, rfl⟩ := List.exists_cons_of_ne_nil (ne_nil_of_matchPieces hmore)
  refine ⟨"/".intercalate (second :: others), ?_⟩
  rw [← Path.intercalate_pieces path, hpath, String.intercalate_cons_cons,
    String.intercalate_cons_cons, ← String.append_assoc, ← String.append_assoc]
  rfl

end Route

/-- Without a body, nothing is asked for that changes a record. -/
theorem Http.Request.Asks.method_ne_head {r : Request} {action : Action}
    {ids : List (String × String)} (h : r.Asks action ids) (hwrites : action.writes = true) :
    r.method ≠ "HEAD" := by
  have htable : ∀ route ∈ routes, ∀ found ∈ route.actions.lookup "GET", found.writes = false := by
    decide
  obtain ⟨route, hroute, haction⟩ := h
  intro hhead
  rw [hhead] at haction
  rw [htable route (Route.find?_of_findRoute hroute).1 action haction] at hwrites
  cases hwrites

/-- Asked for an action, with a body wanted, the service gives what the action answers. -/
theorem Service.handle_of_asks {service : Service} {draw : Draw} {r : Request} {w : World}
    {action : Action} {ids : List (String × String)} (h : r.Asks action ids)
    (hmethod : r.method ≠ "HEAD") :
    service.handle draw r w = (action.handler service draw ids r).answer w := by
  obtain ⟨route, hroute, haction⟩ := h
  rw [handle, hroute]
  simp only [Route.handler, Route.tellAllowed, haction, Option.isSome_some, if_true, forMethod,
    beq_iff_eq, hmethod, if_false]

end Turnstile
