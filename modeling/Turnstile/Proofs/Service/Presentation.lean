import Turnstile.Proofs.Access.Check
import Turnstile.Proofs.Admission.Ceiling
import Turnstile.Proofs.Json.Scalar
import Turnstile.Proofs.Service.Redaction
import Turnstile.Proofs.Service.Refusal
import Turnstile.Proofs.Store.Soundness

/-! Presenting a stored credential. A credential may hold any characters but blanks and control
characters, while a header counts as text only where it is ASCII. So the holder of a credential in
ASCII is let in with it on either strict place, and the holder of any other one cannot present it.
-/

namespace Turnstile

/-! ## Headers -/

namespace Utf8

theorem encodeList_eq_map {cs : List Char} (h : ∀ c ∈ cs, c.toNat < 0x80) :
    encodeList cs = cs.map fun c => c.toNat.toUInt8 := by
  induction cs with
  | nil => rfl
  | cons c cs ih =>
    rw [List.forall_mem_cons] at h
    rw [encodeList_cons, Json.Token.encodeChar_ascii h.1, ih h.2, List.map_cons,
      List.singleton_append]

/-- Every other character is written with a byte that is not ASCII. -/
theorem exists_byte_of_not_ascii {c : Char} (h : 0x80 ≤ c.toNat) :
    ∃ b ∈ encodeChar c, 0x80 ≤ b.toNat := by
  have hvalid := toNat_valid c
  unfold encodeChar
  dsimp only
  rw [if_neg (by omega)]
  -- the lead byte is one, however many follow
  split
  · exact ⟨_, List.mem_cons_self, by rw [toNat_toUInt8 (by omega)]; omega⟩
  · split
    · exact ⟨_, List.mem_cons_self, by rw [toNat_toUInt8 (by omega)]; omega⟩
    · exact ⟨_, List.mem_cons_self, by rw [toNat_toUInt8 (by omega)]; omega⟩

end Utf8

open Http (Header Request Response)

namespace Http.Header

variable {name s : String}

/-- A value without control characters is text if it is ASCII. -/
theorem text?_encode (hplain : ∀ c ∈ s.toList, Text.isControl c = false)
    (hascii : ∀ c ∈ s.toList, c.toNat < 0x80) : text? ⟨name, Utf8.encode s⟩ = some s := by
  have hbyte : ∀ c ∈ s.toList, c.toNat.toUInt8.toNat = c.toNat := fun c hc =>
    Utf8.toNat_toUInt8 (Nat.lt_trans (hascii c hc) (by decide))
  have hvisible : ∀ c ∈ s.toList, 32 ≤ c.toNat.toUInt8 ∧ c.toNat.toUInt8 < 127 := by
    intro c hc
    have hcontrol := hplain c hc
    rw [Text.isControl] at hcontrol
    simp only [Bool.or_eq_false_iff, Bool.and_eq_false_iff, decide_eq_false_iff_not] at hcontrol
    rw [UInt8.le_iff_toNat_le, UInt8.lt_iff_toNat_lt, hbyte c hc]
    have := hascii c hc
    change 32 ≤ c.toNat ∧ c.toNat < 127
    omega
  have hread : s.toList.map ((fun b : UInt8 => Char.ofNat b.toNat) ∘ fun c => c.toNat.toUInt8) =
      s.toList.map id := by
    refine List.map_congr_left ?_
    intro c hc
    rw [Function.comp_apply, hbyte c hc, Char.ofNat_toNat, id]
  rw [text?, Utf8.encode, Utf8.encodeList_eq_map hascii, if_pos, List.map_map, hread, List.map_id,
    String.ofList_toList]
  simp only [List.all_map, List.all_eq_true, Function.comp_apply]
  intro c hc
  simp [hvisible c hc]

theorem text?_encode_of_not_ascii {c : Char} (hc : c ∈ s.toList) (h : 0x80 ≤ c.toNat) :
    text? ⟨name, Utf8.encode s⟩ = none := by
  obtain ⟨b, hb, hbyte⟩ := Utf8.exists_byte_of_not_ascii h
  refine if_neg ?_
  intro hall
  have hmem : b ∈ Utf8.encode s := List.mem_flatMap.mpr ⟨c, hc, hb⟩
  have hvisible := List.all_eq_true.mp hall b hmem
  simp only [Bool.or_eq_true, Bool.and_eq_true, decide_eq_true_eq, beq_iff_eq] at hvisible
  rcases hvisible with ⟨-, hlow⟩ | rfl
  · rw [UInt8.lt_iff_toNat_lt] at hlow
    change b.toNat < 127 at hlow
    omega
  · exact absurd hbyte (by decide)

/-- What such a value is read as, if it is ASCII. -/
theorem read_encode_iff {read : String → Option String} {credential value : String}
    (hplain : ∀ c ∈ s.toList, Text.isControl c = false) (hread : read s = some credential) :
    (text? ⟨name, Utf8.encode s⟩).bind read = some value ↔
      value = credential ∧ ∀ c ∈ s.toList, c.toNat < 0x80 := by
  by_cases hascii : ∀ c ∈ s.toList, c.toNat < 0x80
  · rw [text?_encode hplain hascii, Option.bind_some, hread, Option.some.injEq]
    exact ⟨fun h => ⟨h.symm, hascii⟩, fun h => h.1.symm⟩
  · simp only [hascii, and_false, iff_false]
    obtain ⟨c, hc, hhigh⟩ : ∃ c ∈ s.toList, 0x80 ≤ c.toNat := by simpa using hascii
    rw [text?_encode_of_not_ascii hc hhigh, Option.bind_none]
    exact (Option.some_ne_none value).symm

end Http.Header

/-! ## Carriers -/

namespace IsCredential

variable {credential : String}

theorem ne_empty (h : IsCredential credential) : credential ≠ "" := by
  rintro rfl
  exact absurd h.nonempty (by decide)

theorem nonEmpty? (h : IsCredential credential) :
    Carrier.nonEmpty? credential = some credential := by
  have hne : credential.isEmpty = false := by simpa using h.ne_empty
  simp only [Carrier.nonEmpty?, h.trimmed, hne, Bool.false_eq_true, if_false]

/-- After the scheme stands the credential, whole. -/
theorem ofAuthorization? (h : IsCredential credential) :
    Carrier.ofAuthorization? ("Bearer " ++ credential) = some credential := by
  have htext : ("Bearer " ++ credential).toList =
      ['B', 'e', 'a', 'r', 'e', 'r'] ++ ' ' :: credential.toList := String.toList_append
  have hstart : Text.trimStart ("Bearer " ++ credential) = "Bearer " ++ credential := by
    rw [Text.trimStart, htext, List.cons_append, List.dropWhile_cons_of_neg (by decide),
      ← List.cons_append, ← htext, String.ofList_toList]
  have hsplit : Text.splitAt ' ' ("Bearer " ++ credential).toList =
      (['B', 'e', 'a', 'r', 'e', 'r'], some credential.toList) := by
    rw [htext]
    exact Text.splitAt_of_not_mem (by decide)
  have hscheme : Text.equalIgnoringAsciiCase (String.ofList ['B', 'e', 'a', 'r', 'e', 'r'])
      "bearer" = true := by
    decide
  simp only [Carrier.ofAuthorization?, hstart, hsplit, String.ofList_toList, hscheme, if_true,
    h.nonEmpty?]

end IsCredential

/-- The header presents the credential on a strict place. -/
inductive Http.Header.Presents (credential : String) : Header → Source → Prop where
  | authorization :
    Presents credential ⟨"authorization", Utf8.encode ("Bearer " ++ credential)⟩ .authorization
  | apiKey : Presents credential ⟨"x-api-key", Utf8.encode credential⟩ .apiKeyHeader

/-- The request presents the credential in a header, and no credential on another place. -/
structure Http.Request.PresentsOnly (r : Request) (credential : String) (source : Source) :
    Prop where
  header : ∃ h : Header, h.Presents credential source ∧
    r.headers.find? (·.name == h.name) = some h
  alone : ∀ found ∈ r.carrier.presented, found.source = source

namespace Carrier

variable {c : Carrier} {value : String} {source : Source}

theorem mem_heldIn_iff {lookup : String → Option String} {places : List (String × Source)} :
    ⟨value, source⟩ ∈ heldIn lookup places ↔
      ∃ name, (name, source) ∈ places ∧ (lookup name).bind nonEmpty? = some value := by
  simp only [heldIn, List.mem_filterMap, Option.map_eq_some_iff, Prod.exists, Extracted.mk.injEq]
  constructor
  · rintro ⟨name, _, hplace, _, hvalue, rfl, rfl⟩
    exact ⟨name, hplace, hvalue⟩
  · rintro ⟨name, hplace, hvalue⟩
    exact ⟨name, source, hplace, value, hvalue, rfl, rfl⟩

theorem mem_presented_authorization : ⟨value, .authorization⟩ ∈ c.presented ↔
    (c.header "Authorization").bind ofAuthorization? = some value := by
  simp [presented, mem_heldIn_iff, keyHeaders, keyParameters]

theorem mem_presented_apiKeyHeader : ⟨value, .apiKeyHeader⟩ ∈ c.presented ↔
    (c.header "X-Api-Key").bind nonEmpty? = some value ∨
      (c.header "X-API-Key").bind nonEmpty? = some value := by
  simp [presented, mem_heldIn_iff, keyHeaders, keyParameters, or_and_right, exists_or]

end Carrier

namespace Http.Request.PresentsOnly

variable {r : Request} {credential value : String} {source : Source} {found : Extracted}

/-- Of the credentials on that place, the one in the header is the one that is read. -/
theorem mem_presented_iff (h : r.PresentsOnly credential source)
    (hcredential : IsCredential credential) :
    ⟨value, source⟩ ∈ r.carrier.presented ↔
      value = credential ∧ ∀ c ∈ credential.toList, c.toNat < 0x80 := by
  obtain ⟨header, hpresents, hfirst⟩ := h.header
  cases hpresents with
  | authorization =>
    have hheader : r.carrier.header "Authorization" =
        Header.text? ⟨"authorization", Utf8.encode ("Bearer " ++ credential)⟩ := by
      have hname : Text.asciiLower "Authorization" = "authorization" := by decide
      change r.header? "Authorization" = _
      rw [header?, hname, hfirst, Option.bind_some]
    have hscheme : ∀ c ∈ "Bearer ".toList, Text.isControl c = false ∧ c.toNat < 0x80 := by
      have hall : ("Bearer ".toList.all fun c =>
          Text.isControl c = false ∧ c.toNat < 0x80) = true := by
        decide
      simpa using hall
    have hplain : ∀ c ∈ ("Bearer " ++ credential).toList, Text.isControl c = false := by
      rw [String.toList_append, List.forall_mem_append]
      exact ⟨fun c hc => (hscheme c hc).1, fun c hc => (hcredential.plain c hc).2⟩
    rw [Carrier.mem_presented_authorization, hheader,
      Header.read_encode_iff hplain hcredential.ofAuthorization?, String.toList_append,
      List.forall_mem_append, and_iff_right fun c hc => (hscheme c hc).2]
  | apiKey =>
    have hheader : ∀ name, Text.asciiLower name = "x-api-key" → r.carrier.header name =
        Header.text? ⟨"x-api-key", Utf8.encode credential⟩ := by
      intro name hname
      change r.header? name = _
      rw [header?, hname, hfirst, Option.bind_some]
    rw [Carrier.mem_presented_apiKeyHeader, hheader "X-Api-Key" (by decide),
      hheader "X-API-Key" (by decide), or_self]
    exact Header.read_encode_iff (fun c hc => (hcredential.plain c hc).2) hcredential.nonEmpty?

theorem extract_of_ascii (h : r.PresentsOnly credential source)
    (hcredential : IsCredential credential) (hascii : ∀ c ∈ credential.toList, c.toNat < 0x80) :
    r.carrier.extract = some ⟨credential, source⟩ := by
  have hmem := (h.mem_presented_iff hcredential).mpr ⟨rfl, hascii⟩
  obtain ⟨found, others, hpresented⟩ := List.exists_cons_of_ne_nil (List.ne_nil_of_mem hmem)
  have hfirst : found ∈ r.carrier.presented := by simp [hpresented]
  obtain ⟨value, place⟩ := found
  obtain rfl := h.alone _ hfirst
  obtain ⟨rfl, -⟩ := (h.mem_presented_iff hcredential).mp hfirst
  rw [Carrier.extract_eq_head?, hpresented, List.head?_cons]

theorem extract_of_not_ascii (h : r.PresentsOnly credential source)
    (hcredential : IsCredential credential)
    (hascii : ¬ ∀ c ∈ credential.toList, c.toNat < 0x80) : r.carrier.extract = none := by
  rw [Carrier.extract_eq_head?, List.head?_eq_none_iff, List.eq_nil_iff_forall_not_mem]
  rintro ⟨value, place⟩ hfound
  obtain rfl := h.alone _ hfound
  exact hascii ((h.mem_presented_iff hcredential).mp hfound).2

end Http.Request.PresentsOnly

/-! ## The counted check -/

theorem Http.Header.Presents.isStrict {header : Header} {credential : String} {source : Source}
    (h : header.Presents credential source) : source.isStrict = true := by
  cases h <;> rfl

/-- Whoever passes the check and is admitted is answered. -/
theorem Handler.answer_throughGate_of_admitted {service : Service} {draw : Draw} {r : Request}
    {w : World} {grant : Grant} {key : ApiKey} (hcheck : w.store.checkAccess r.carrier = .ok grant)
    (hbegin : (w.store.beginRequest grant.principal).1 = .ok key) (answer : Grant → Response) :
    ((throughGate service draw r answer).answer w).1 = answer grant := by
  rw [throughGate, answer_bind, Gate.enter, hcheck]
  dsimp only
  rcases hentered : w.store.beginRequest grant.principal with ⟨e | entered, t⟩
  · rw [hentered] at hbegin
    cases hbegin
  · rfl

namespace Service

variable {w : World} {r : Request} {credential : String} {key : ApiKey} {source : Source}

/-- The holder of a key that may be called is let in with its credential, and answered, exactly if
the credential is ASCII. -/
theorem admitted_iff_ascii (service : Service) (draw : Draw) (hsound : w.store.Sound)
    (hcheck : checkCredential credential = .ok ()) (hstored : key ∈ w.store.apiKeys)
    (hcredential : key.credential = credential) (henabled : key.enabled = true)
    (hquota : key.exhausted = false)
    (hslot : key.hasConcurrencyLimit = true →
      w.store.inFlightOf key.id < key.concurrencyLimit)
    (hmethod : r.method = "GET") (hpath : r.uri.path = "/v1/access")
    (hpresents : r.PresentsOnly credential source) :
    (w.store.checkAccess r.carrier = .ok ⟨key, source⟩ ∧
      (service.handle draw r w).1 = .json 200 (Access.report ⟨key, source⟩)) ↔
      ∀ c ∈ credential.toList, c.toNat < 0x80 := by
  have hrule := isCredential_of_check hcheck
  constructor
  · rintro ⟨hgranted, -⟩
    by_contra hascii
    rw [Store.checkAccess_eq_noCredentials_iff.mpr
      (hpresents.extract_of_not_ascii hrule hascii)] at hgranted
    cases hgranted
  · intro hascii
    obtain ⟨header, hheader, -⟩ := hpresents.header
    have hgranted : w.store.checkAccess r.carrier = .ok ⟨key, source⟩ :=
      Store.checkAccess_of_accepts hsound.distinctCredentials
        (hpresents.extract_of_ascii hrule hascii) hstored
        ⟨hcredential, henabled, .inl hheader.isStrict⟩
    have hbegin : (w.store.beginRequest key.credential).1 = .ok key :=
      (Store.beginRequest_ok_iff (Store.findKey?_of_checkAccess hgranted)).mpr
        ⟨henabled, hquota, fun hlimit => UInt32.lt_iff_toNat_lt.mp (hslot hlimit)⟩
    have hasks : r.Asks .checkAccess [] := by
      refine ⟨⟨[.literal "v1", .literal "access"],
        [("GET", .checkAccess), ("POST", .checkAccess)]⟩, ?_, ?_⟩
      · rw [hpath]
        decide +kernel
      · rw [hmethod]
        decide
    refine ⟨hgranted, ?_⟩
    rw [handle_of_asks hasks (by rw [hmethod]; decide), Action.handler]
    exact Handler.answer_throughGate_of_admitted hgranted hbegin fun grant =>
      .json 200 (Access.report grant)

/-- A key of two slots, of which one is taken. -/
def slottedKey (credential : String) : ApiKey :=
  { ApiKey.fresh credential "" .epoch with id := "key_1", totalLimit := 5, concurrencyLimit := 2 }

def slotted (credential : String) : World :=
  ⟨{ Store.stocked [slottedKey credential] with inFlight := [("key_1", 1)] }, .empty⟩

def bearing (credential : String) : Request :=
  ⟨"GET", ⟨"/v1/access", none⟩, [⟨"authorization", Utf8.encode ("Bearer " ++ credential)⟩], []⟩

theorem admitted_bearing :
    (slotted "tk_door").store.Sound ∧ checkCredential "tk_door" = .ok () ∧
      (bearing "tk_door").PresentsOnly "tk_door" .authorization ∧
      (slotted "tk_door").store.checkAccess (bearing "tk_door").carrier =
        .ok ⟨slottedKey "tk_door", .authorization⟩ ∧
      (masterService.handle knockingDraw (bearing "tk_door") (slotted "tk_door")).1 =
        .json 200 (Access.report ⟨slottedKey "tk_door", .authorization⟩) := by
  have hsound : (slotted "tk_door").store.Sound := by decide +kernel
  have hcheck : checkCredential "tk_door" = .ok () := by decide +kernel
  have hpresents : (bearing "tk_door").PresentsOnly "tk_door" .authorization :=
    ⟨⟨_, .authorization, by decide +kernel⟩, by decide +kernel⟩
  refine ⟨hsound, hcheck, hpresents, ?_⟩
  exact (admitted_iff_ascii masterService knockingDraw hsound hcheck List.mem_cons_self rfl rfl
    (by decide) (fun _ => by decide) rfl rfl hpresents).mpr (by simp)

/-- A credential with an accent is stored and presented as it is, and is not seen. -/
theorem refused_with_accent :
    (slotted "clé").store.Sound ∧ checkCredential "clé" = .ok () ∧
      (Gateway.presenting "clé").PresentsOnly "clé" .apiKeyHeader ∧
      (slotted "clé").store.checkAccess (Gateway.presenting "clé").carrier =
        .error .noCredentials ∧
      (masterService.handle knockingDraw (Gateway.presenting "clé")
        (slotted "clé")).1.status = 401 := by
  refine ⟨by decide +kernel, by decide +kernel, ⟨⟨_, .apiKey, ?_⟩, ?_⟩, ?_⟩
  · decide +kernel
  · decide +kernel
  · decide +kernel

end Service

end Turnstile
