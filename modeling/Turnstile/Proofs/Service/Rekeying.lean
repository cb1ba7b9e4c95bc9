import Turnstile.Proofs.Record.RoundTrip
import Turnstile.Proofs.Record.Rule
import Turnstile.Proofs.Service.KeyPaths
import Turnstile.Proofs.Service.Patching
import Turnstile.Proofs.Service.Presentation

/-! Two ways to give a key its credential. A key that is created takes the credential as it stands
in the request, a key that is changed takes it without the blanks around it. So one body is read
alike by both exactly if the blanks make no difference to the check of the credential. -/

namespace Turnstile

open Http (Problem Request Response)

/-- An owner asks for the action, with a body that says it is JSON. -/
structure Http.Request.OwnerAsks (r : Request) (action : Action) (ids : List (String × String))
    (w : World) : Prop where
  asks : r.Asks action ids
  owner : ∃ grant user, w.store.checkAccess r.carrier = .ok grant ∧
    Handler.ownerOf? w.store grant.key = some user
  json : r.saysJson = true

def ApiKey.rekeyed (key : ApiKey) (credential : String) : ApiKey := { key with credential }

namespace World

/-- One body with a credential and nothing else asks for a new key and for a change of the key with
this id. The credential is not blank, and no key has it without the blanks around it. -/
structure AskedTwice (w : World) (create update : Request) (id credential : String) : Prop where
  creates : ∃ ids, create.OwnerAsks .createKey ids w
  updates : ∃ ids, update.OwnerAsks .updateKey ids w ∧ Handler.pathId? ids = some id
  body : create.body = update.body
  read : Admin.keyDecoder.run create.body = .ok { credential := some credential }
  nonblank : Text.trim credential ≠ ""
  free : ∀ key ∈ w.store.apiKeys, key.credential ≠ Text.trim credential

/-- With these keys stored, the answer is the key as soon as the store is saved. -/
def storing (w : World) (draw : Draw) (status : Nat) (key : ApiKey) (keys : List ApiKey) :
    Response × World :=
  (Handler.persist draw >>= fun _ => pure (.json status key.view) : Handler Response).answer
    { w with store := w.store.withApiKeys keys }

def storingNew (w : World) (draw : Draw) (key : ApiKey) : Response × World :=
  w.storing draw 201 key (w.store.apiKeys ++ [key])

def storingChanged (w : World) (draw : Draw) (id : String) (key : ApiKey) : Response × World :=
  w.storing draw 200 key (Store.replaceFirst (·.id == Text.trim id) key w.store.apiKeys)

/-- Both the new key and the changed one are stored with one credential, or both requests are turned
down with one problem and nothing is changed. -/
def ReadAlike (w : World) (createDraw updateDraw : Draw) (id : String)
    (created updated : Response × World) : Prop :=
  (∃ key found, w.store.keyWithId? (Text.trim id) = some found ∧
    created = w.storingNew createDraw key ∧
    updated = w.storingChanged updateDraw id (found.rekeyed key.credential)) ∨
  ∃ problem : Problem, created = (problem.toResponse, w) ∧ updated = (problem.toResponse, w)

variable {w : World} {createDraw updateDraw : Draw} {id : String}
  {created updated : Response × World}

theorem status_storing (w : World) (draw : Draw) (status : Nat) (key : ApiKey)
    (keys : List ApiKey) : (w.storing draw status key keys).1.status = status ∨
      (w.storing draw status key keys).1.status = 500 := by
  rw [storing, Handler.answer_bind, Handler.persist]
  rcases hsaved : { w with store := w.store.withApiKeys keys }.persist draw with ⟨e | ⟨⟩, v⟩
  · have hio := persist_answer { w with store := w.store.withApiKeys keys } draw
    rw [hsaved] at hio
    rcases hio with hok | ⟨detail, hdetail⟩
    · cases hok
    · cases hdetail
      simp only [hsaved]
      exact .inr rfl
  · simp only [hsaved]
    exact .inl rfl

theorem status_storingNew (w : World) (draw : Draw) (key : ApiKey) :
    (w.storingNew draw key).1.status = 201 ∨ (w.storingNew draw key).1.status = 500 :=
  status_storing ..

theorem status_storingChanged (w : World) (draw : Draw) (id : String) (key : ApiKey) :
    (w.storingChanged draw id key).1.status = 200 ∨
      (w.storingChanged draw id key).1.status = 500 :=
  status_storing ..

/-- What is told off of the one request is told off of the other. -/
theorem ReadAlike.same (h : w.ReadAlike createDraw updateDraw id created updated)
    (hstatus : created.1.status = 400 ∨ updated.1.status = 404) : created = updated := by
  rcases h with ⟨key, found, -, rfl, rfl⟩ | ⟨problem, rfl, rfl⟩
  · have hcreated := w.status_storingNew createDraw key
    have hupdated := w.status_storingChanged updateDraw id (found.rekeyed key.credential)
    omega
  · rfl

end World

/-! ## Bodies -/

theorem Http.Request.readJson_of_run {α : Type} {r : Request} {d : Json.Decoder α} {a : α}
    (hjson : r.saysJson = true) (hread : d.run r.body = .ok a) :
    r.readJson d = if bodyBound < r.body.length then .error .bodyTooLarge else .ok a := by
  rw [readJson, hread]
  simp only [hjson, Bool.not_true, Bool.false_eq_true, if_false]
  rfl

/-- Every text can be sent as a credential. -/
theorem Admin.run_keyBody (credential : String) :
    keyDecoder.run (Utf8.encode (Json.Value.obj [("key", .str credential)]).pretty) =
      .ok { credential := some credential } := by
  have htakes : Json.Decoder.Takes keyDecoder { credential := some credential }
      (.obj [("key", .str credential)]) :=
    Json.Decoder.takes_record ⟨_, Json.Decoder.member_of_field rfl rfl fun rest => rfl, rfl⟩ rfl
  have hcounted : (Json.Value.obj [("key", .str credential)]).Counted := ⟨trivial, trivial⟩
  have htokens := htakes []
  rw [List.append_nil] at htokens
  rw [Json.Decoder.run, Json.Token.ofBytes_pretty hcounted, htokens]

namespace Handler

variable {draw : Draw} {r : Request} {w : World} {id credential : String} {refusal : Refusal}

theorem answer_jsonBody {α : Type} {d : Json.Decoder α} {a : α} (h : r.readJson d = .ok a)
    (rest : α → Handler Response) : (jsonBody d r >>= rest).answer w = (rest a).answer w := by
  rw [answer_bind, jsonBody, h]
  rfl

theorem answer_jsonBody_of_error {α : Type} {d : Json.Decoder α} {p : Problem}
    (h : r.readJson d = .error p) (rest : α → Handler Response) :
    (jsonBody d r >>= rest).answer w = (p.toResponse, w) := by
  rw [answer_bind, jsonBody, h]
  rfl

theorem answer_checkOwner {request : Admin.KeyRequest} (h : request.userId = none)
    (rest : Unit → Handler Response) :
    (Admin.checkOwner request >>= rest).answer w = (rest ()).answer w := by
  rw [answer_bind, checkOwner_apply]
  rw [h]
  exact .inl (by decide)

/-! ## New keys -/

theorem answer_createKey
    (hread : r.readJson Admin.keyDecoder = .ok { credential := some credential })
    (hsome : Text.trim credential ≠ "") :
    (Admin.createKey draw r).answer w =
      (onStore (·.upsertKey draw.keyId draw.now (.fresh credential "" draw.now)) >>= fun key =>
        persist draw >>= fun _ => pure (.json 201 key.view)).answer w := by
  have hnonblank : Text.blank credential = false :=
    Bool.eq_false_iff.mpr fun hblank => hsome (Text.trim_of_blank hblank)
  rw [Admin.createKey, answer_jsonBody hread, answer_checkOwner rfl]
  simp only [Option.filter_some, hnonblank, Bool.not_false, if_true, Option.getD_some]
  rfl

theorem answer_createKey_of_refused
    (hread : r.readJson Admin.keyDecoder = .ok { credential := some credential })
    (hsome : Text.trim credential ≠ "") (hcheck : checkCredential credential = .error refusal) :
    (Admin.createKey draw r).answer w = ((Problem.ofStore (.ofRefusal refusal)).toResponse, w) := by
  have hstored : w.store.upsertKey draw.keyId draw.now (.fresh credential "" draw.now) =
      (.error (.ofRefusal refusal), w.store) := by
    simp only [Store.upsertKey, ApiKey.fresh, hcheck]
  rw [answer_createKey hread hsome, answer_bind, onStore, onStoreOr, hstored]

theorem answer_createKey_of_free
    (hread : r.readJson Admin.keyDecoder = .ok { credential := some credential })
    (hsome : Text.trim credential ≠ "") (hcheck : checkCredential credential = .ok ())
    (hfree : ∀ key ∈ w.store.apiKeys, key.credential ≠ credential) :
    (Admin.createKey draw r).answer w =
      w.storingNew draw { ApiKey.fresh credential "" draw.now with id := draw.keyId } := by
  have htaken : w.store.credentialTaken "" credential = false := by
    simpa [Store.credentialTaken] using hfree
  have hstored : w.store.upsertKey draw.keyId draw.now (.fresh credential "" draw.now) =
      (.ok { ApiKey.fresh credential "" draw.now with id := draw.keyId }, w.store.withApiKeys
        (w.store.apiKeys ++ [{ ApiKey.fresh credential "" draw.now with id := draw.keyId }])) := by
    simp only [Store.upsertKey, ApiKey.fresh, hcheck, htaken, Bool.false_eq_true, if_false]
    rfl
  rw [answer_createKey hread hsome, answer_bind, onStore, onStoreOr, hstored]
  rfl

/-! ## Changed keys -/

theorem answer_updateKey
    (hread : r.readJson Admin.keyDecoder = .ok { credential := some credential }) :
    (Admin.updateKey draw id r).answer w =
      (onStoreOr (Admin.explain id)
          (·.updateKey id (·.rekeyed (Text.trim credential))) >>= fun key =>
        persist draw >>= fun _ => pure (.json 200 key.view)).answer w := by
  rw [Admin.updateKey, answer_jsonBody hread, answer_checkOwner rfl]
  rfl

theorem answer_updateKey_of_missing
    (hread : r.readJson Admin.keyDecoder = .ok { credential := some credential })
    (hfound : w.store.keyWithId? (Text.trim id) = none) :
    (Admin.updateKey draw id r).answer w = ((Admin.noSuchKey id).toResponse, w) := by
  rw [answer_updateKey hread, answer_bind, onStoreOr]
  simp only [Store.updateKey, hfound]
  rfl

variable {found : ApiKey}

theorem answer_updateKey_of_refused
    (hread : r.readJson Admin.keyDecoder = .ok { credential := some credential })
    (hfound : w.store.keyWithId? (Text.trim id) = some found)
    (hcheck : checkCredential (Text.trim credential) = .error refusal) :
    (Admin.updateKey draw id r).answer w =
      ((Problem.ofStore (.ofRefusal refusal)).toResponse, w) := by
  have hrefused : w.store.updateKey id (·.rekeyed (Text.trim credential)) =
      (.error (.ofRefusal refusal), w.store) := Store.updateKey_of_refused hfound hcheck
  rw [answer_updateKey hread, answer_bind, onStoreOr, hrefused]
  simp only [StoreError.ofRefusal, Admin.explain]

theorem answer_updateKey_of_free
    (hread : r.readJson Admin.keyDecoder = .ok { credential := some credential })
    (hfound : w.store.keyWithId? (Text.trim id) = some found)
    (hcheck : checkCredential (Text.trim credential) = .ok ())
    (hfree : ∀ key ∈ w.store.apiKeys, key.credential ≠ Text.trim credential) :
    (Admin.updateKey draw id r).answer w =
      w.storingChanged draw id (found.rekeyed (Text.trim credential)) := by
  have htaken : (w.store.apiKeys.any fun key =>
      key.id != Text.trim id && key.credential == Text.trim credential) = false := by
    simp only [List.any_eq_false, Bool.and_eq_true, beq_iff_eq, not_and]
    exact fun key hkey _ => hfree key hkey
  have hstored : w.store.updateKey id (·.rekeyed (Text.trim credential)) =
      (.ok (found.rekeyed (Text.trim credential)), w.store.withApiKeys (Store.replaceFirst
        (·.id == Text.trim id) (found.rekeyed (Text.trim credential)) w.store.apiKeys)) := by
    simp only [Store.updateKey, hfound, ApiKey.rekeyed, hcheck, htaken, Bool.false_eq_true,
      if_false]
  rw [answer_updateKey hread, answer_bind, onStoreOr, hstored]
  rfl

/-! ## Both -/

/-- The answer about a new key is not that the changed one is missing. -/
theorem status_createKey_ne
    (hread : r.readJson Admin.keyDecoder = .ok { credential := some credential })
    (hsome : Text.trim credential ≠ "")
    (hfree : ∀ key ∈ w.store.apiKeys, key.credential ≠ Text.trim credential) :
    ((Admin.createKey draw r).answer w).1.status ≠ 404 := by
  cases hcheck : checkCredential credential with
  | error refusal =>
    rw [answer_createKey_of_refused hread hsome hcheck]
    exact (by decide : (400 : Nat) ≠ 404)
  | ok _ =>
    rw [(isCredential_of_check hcheck).trimmed] at hfree
    rw [answer_createKey_of_free hread hsome hcheck hfree]
    rcases w.status_storingNew draw _ with hstatus | hstatus <;> rw [hstatus] <;> decide

theorem readAlike_refusals_iff {createDraw updateDraw : Draw} {e f : Refusal} :
    w.ReadAlike createDraw updateDraw id ((Problem.ofStore (.ofRefusal e)).toResponse, w)
      ((Problem.ofStore (.ofRefusal f)).toResponse, w) ↔ e.message = f.message := by
  constructor
  · intro h
    simpa [Problem.toResponse, Problem.toJson, Response.json, Problem.ofStore, StoreError.ofRefusal,
      Problem.badRequest] using h.same (.inl rfl)
  · intro h
    refine .inr ⟨_, rfl, ?_⟩
    rw [StoreError.ofRefusal, StoreError.ofRefusal, h]

theorem readAlike_iff {createDraw updateDraw : Draw} {create update : Request}
    (hcreate : create.readJson Admin.keyDecoder = .ok { credential := some credential })
    (hupdate : update.readJson Admin.keyDecoder = .ok { credential := some credential })
    (hsome : Text.trim credential ≠ "")
    (hfree : ∀ key ∈ w.store.apiKeys, key.credential ≠ Text.trim credential) :
    w.ReadAlike createDraw updateDraw id ((Admin.createKey createDraw create).answer w)
        ((Admin.updateKey updateDraw id update).answer w) ↔
      (∃ key ∈ w.store.apiKeys, key.id = Text.trim id) ∧
        checkCredential credential = checkCredential (Text.trim credential) := by
  rw [← Store.keyWithId?_isSome_iff]
  cases hfound : w.store.keyWithId? (Text.trim id) with
  | none =>
    rw [answer_updateKey_of_missing hupdate hfound]
    simp only [Option.isSome_none, Bool.false_eq_true, false_and, iff_false]
    intro halike
    have hmissing : ((Admin.createKey createDraw create).answer w).1.status = 404 := by
      rw [halike.same (.inr rfl)]
      rfl
    exact status_createKey_ne hcreate hsome hfree hmissing
  | some found =>
    simp only [Option.isSome_some, true_and]
    cases hcut : checkCredential (Text.trim credential) with
    | error cut =>
      rw [answer_updateKey_of_refused hupdate hfound hcut]
      cases hwhole : checkCredential credential with
      | error whole =>
        have hne : credential ≠ "" := by
          rintro rfl
          exact hsome (by decide)
        rw [answer_createKey_of_refused hcreate hsome hwhole, readAlike_refusals_iff,
          message_inj_of_checkCredential hne hsome hwhole hcut, Except.error.injEq]
      | ok _ =>
        rw [(isCredential_of_check hwhole).trimmed, hwhole] at hcut
        cases hcut
    | ok _ =>
      rw [answer_updateKey_of_free hupdate hfound hcut hfree]
      cases hwhole : checkCredential credential with
      | error whole =>
        rw [answer_createKey_of_refused hcreate hsome hwhole]
        simp only [reduceCtorEq, iff_false]
        intro halike
        have hstored := w.status_storingChanged updateDraw id
          (found.rekeyed (Text.trim credential))
        rw [← halike.same (.inl rfl)] at hstored
        rcases hstored with hstored | hstored <;> cases hstored
      | ok _ =>
        have htrim := (isCredential_of_check hwhole).trimmed
        rw [htrim] at hfree ⊢
        rw [answer_createKey_of_free hcreate hsome hwhole hfree]
        exact iff_of_true (.inl ⟨_, found, hfound, rfl, rfl⟩) rfl

end Handler

namespace Service

variable {service : Service} {createDraw updateDraw : Draw} {w : World} {create update : Request}
  {id credential : String}

theorem handle_createKey {ids : List (String × String)} (h : create.OwnerAsks .createKey ids w) :
    service.handle createDraw create w = (Admin.createKey createDraw create).answer w := by
  obtain ⟨grant, user, hcheck, howner⟩ := h.owner
  rw [handle_of_asks h.asks (h.asks.method_ne_head rfl), Action.handler,
    Handler.answer_asOwner_of_owner hcheck howner]

theorem handle_updateKey {ids : List (String × String)} (h : update.OwnerAsks .updateKey ids w)
    (hid : Handler.pathId? ids = some id) :
    service.handle updateDraw update w = (Admin.updateKey updateDraw id update).answer w := by
  obtain ⟨grant, user, hcheck, howner⟩ := h.owner
  rw [handle_of_asks h.asks (h.asks.method_ne_head rfl), Action.handler,
    Handler.answer_asOwner_of_owner hcheck howner, Handler.withId_of_pathId? hid]

theorem readAlike_of_tooLong (h : w.AskedTwice create update id credential)
    (hlong : Http.bodyBound < create.body.length) :
    w.ReadAlike createDraw updateDraw id (service.handle createDraw create w)
      (service.handle updateDraw update w) := by
  obtain ⟨ids, hcreate⟩ := h.creates
  obtain ⟨ids', hupdate, hid⟩ := h.updates
  have hcreates := Http.Request.readJson_of_run hcreate.json h.read
  have hupdates := Http.Request.readJson_of_run hupdate.json (h.body ▸ h.read)
  rw [if_pos hlong] at hcreates
  rw [if_pos (h.body ▸ hlong)] at hupdates
  refine .inr ⟨.bodyTooLarge, ?_, ?_⟩
  · rw [handle_createKey hcreate, Admin.createKey, Handler.answer_jsonBody_of_error hcreates]
  · rw [handle_updateKey hupdate hid, Admin.updateKey, Handler.answer_jsonBody_of_error hupdates]

/-- A body with a credential is read alike for a new key and for a stored one exactly if it is too
long for both, or a key has the id without blanks and the check makes no difference between the
credential with blanks around it and without. -/
theorem rekeying_agrees_iff (service : Service) (createDraw updateDraw : Draw) {w : World}
    {create update : Request} {id credential : String}
    (h : w.AskedTwice create update id credential) :
    w.ReadAlike createDraw updateDraw id (service.handle createDraw create w)
        (service.handle updateDraw update w) ↔
      Http.bodyBound < create.body.length ∨
        (∃ key ∈ w.store.apiKeys, key.id = Text.trim id) ∧
          (credentialBound < (Text.trim credential).length ∨
            credential.length ≤ credentialBound ∧
              firstUnfit credential = firstUnfit (Text.trim credential)) := by
  by_cases hlong : Http.bodyBound < create.body.length
  · exact iff_of_true (readAlike_of_tooLong h hlong) (.inl hlong)
  · obtain ⟨ids, hcreate⟩ := h.creates
    obtain ⟨ids', hupdate, hid⟩ := h.updates
    have hcreates := Http.Request.readJson_of_run hcreate.json h.read
    have hupdates := Http.Request.readJson_of_run hupdate.json (h.body ▸ h.read)
    rw [if_neg hlong] at hcreates
    rw [if_neg (h.body ▸ hlong)] at hupdates
    rw [handle_createKey hcreate, handle_updateKey hupdate hid, or_iff_right hlong,
      Handler.readAlike_iff hcreates hupdates h.nonblank h.free,
      checkCredential_trim_iff h.nonblank]

/-- The owner's request whose body gives that credential. -/
def masterAsks (method path credential : String) : Request :=
  ⟨method, ⟨path, none⟩, [⟨"x-api-key", Utf8.encode "tk_master"⟩,
    ⟨"content-type", Utf8.encode "application/json"⟩],
    Utf8.encode (Json.Value.obj [("key", .str credential)]).pretty⟩

def masterCreates : String → Request := masterAsks "POST" "/admin/api-keys"

def masterUpdates : String → Request := masterAsks "PUT" "/admin/api-keys/key_1"

theorem ownerAsks_master {method path credential : String} {action : Action}
    {ids : List (String × String)}
    (hroute : ∃ route ∈ routes, findRoute path = some (route, ids) ∧
      route.action? method = some action) :
    (masterAsks method path credential).OwnerAsks action ids master where
  asks := by
    obtain ⟨route, -, hroute, haction⟩ := hroute
    exact ⟨route, hroute, haction⟩
  owner := by
    have hcheck : master.store.checkAccess (masterCreates "").carrier =
        .ok ⟨{ ApiKey.fresh "tk_master" "" .epoch with
          id := "key_1", userId := "user_1", usedCount := 3 }, .apiKeyHeader⟩ := by
      decide +kernel
    exact ⟨_, _, hcheck, rfl⟩
  json := by
    have hjson : (masterCreates "").saysJson = true := by decide +kernel
    exact hjson

theorem askedTwice_master {credential : String} (hnonblank : Text.trim credential ≠ "")
    (hfree : Text.trim credential ≠ "tk_master") :
    master.AskedTwice (masterCreates credential) (masterUpdates credential) "key_1" credential where
  creates := ⟨[], ownerAsks_master (by decide +kernel)⟩
  updates := ⟨[("key_id", "key_1")], ownerAsks_master (by decide +kernel), by decide +kernel⟩
  body := rfl
  read := by
    dsimp only [masterCreates, masterAsks]
    exact Admin.run_keyBody credential
  nonblank := hnonblank
  free := by
    intro key hkey
    rw [List.mem_singleton.mp hkey]
    exact hfree.symm

/-- A credential without blanks is given to both keys. -/
theorem rekeying_agrees_plain :
    master.store.Sound ∧
      master.AskedTwice (masterCreates "tk_new") (masterUpdates "tk_new") "key_1" "tk_new" ∧
      master.ReadAlike masterDraw masterDraw "key_1"
        (masterService.handle masterDraw (masterCreates "tk_new") master)
        (masterService.handle masterDraw (masterUpdates "tk_new") master) := by
  have hasked : master.AskedTwice (masterCreates "tk_new") (masterUpdates "tk_new") "key_1"
      "tk_new" := askedTwice_master (by decide +kernel) (by decide +kernel)
  refine ⟨by decide +kernel, hasked, ?_⟩
  exact (rekeying_agrees_iff masterService masterDraw masterDraw hasked).mpr
    (.inr ⟨⟨_, List.mem_cons_self, by decide +kernel⟩, .inr ⟨by decide +kernel, by decide +kernel⟩⟩)

/-- A credential with a blank in front is refused to the new key and given to the stored one. -/
theorem rekeying_disagrees_padded :
    master.store.Sound ∧
      master.AskedTwice (masterCreates " tk_new") (masterUpdates " tk_new") "key_1" " tk_new" ∧
      (masterService.handle masterDraw (masterCreates " tk_new") master).1.status = 400 ∧
      (masterService.handle masterDraw (masterUpdates " tk_new") master).1.status = 200 ∧
      (masterService.handle masterDraw (masterUpdates " tk_new") master).2.store.apiKeys.map
        ApiKey.credential = ["tk_new"] ∧
      ¬ master.ReadAlike masterDraw masterDraw "key_1"
        (masterService.handle masterDraw (masterCreates " tk_new") master)
        (masterService.handle masterDraw (masterUpdates " tk_new") master) := by
  have hasked : master.AskedTwice (masterCreates " tk_new") (masterUpdates " tk_new") "key_1"
      " tk_new" := askedTwice_master (by decide +kernel) (by decide +kernel)
  have hcreated : (masterService.handle masterDraw (masterCreates " tk_new") master).1.status =
      400 := by decide +kernel
  have hupdated : (masterService.handle masterDraw (masterUpdates " tk_new") master).1.status =
      200 := by decide +kernel
  refine ⟨by decide +kernel, hasked, hcreated, hupdated, by decide +kernel, ?_⟩
  intro halike
  rw [halike.same (.inl hcreated), hupdated] at hcreated
  cases hcreated

end Service

end Turnstile
