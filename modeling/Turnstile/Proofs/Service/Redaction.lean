import Turnstile.Proofs.Files.Path
import Turnstile.Proofs.Text.Split
import Turnstile.Service.Router
import Mathlib.Data.List.Forall2

/-! What the request log tells of a request. The log reads a query pair by pair, the carrier reads
it as a whole, and the two find the same names: the pairs whose values are hidden are those that the
carrier would read a credential from, and all others are logged as they are written. So two requests
that differ in nothing but the values of such pairs and of credential headers leave one line. -/

namespace Turnstile

namespace Http.Query

variable {query name : String} {pair : List Char} {written : List (List Char)}

theorem of_mem_rawPairs (h : pair ∈ rawPairs query) : '&' ∉ pair ∧ pair ≠ [] := by
  obtain ⟨hmem, hne⟩ := List.mem_filter.mp h
  exact ⟨Text.not_mem_of_mem_splitOn hmem, by simpa using hne⟩

/-- Pairs that are joined with ampersands are found again. -/
theorem rawPairs_intercalate (h : ∀ pair ∈ written, '&' ∉ pair ∧ pair ≠ []) :
    rawPairs ("&".intercalate (written.map String.ofList)) = written := by
  rw [rawPairs, String.toList_intercalate, List.map_map]
  have hlists : written.map (String.toList ∘ String.ofList) = written :=
    (List.map_congr_left fun pair _ => String.toList_ofList).trans (List.map_id written)
  rw [hlists]
  by_cases hnone : written = []
  · rw [hnone]
    rfl
  · have hmark : "&".toList = ['&'] := rfl
    rw [hmark, Text.splitOn_intercalate (fun pair hpair => (h pair hpair).1) hnone]
    refine List.filter_eq_self.mpr ?_
    intro pair hpair
    simpa using (h pair hpair).2

/-- A pair is the only one of the query that it is alone. -/
theorem rawPairs_ofList (h : pair ∈ rawPairs query) : rawPairs (String.ofList pair) = [pair] := by
  obtain ⟨hmark, hne⟩ := of_mem_rawPairs h
  rw [rawPairs, String.toList_ofList, Text.splitOn_of_not_mem hmark]
  simpa using hne

theorem value?_ofList (h : pair ∈ rawPairs query) :
    value? (String.ofList pair) name =
      if name = (decodePair pair).1 then some (decodePair pair).2 else none := by
  rw [value?, pairs, rawPairs_ofList h, List.map_singleton, List.reverse_singleton,
    List.lookup_cons, List.lookup_nil]
  by_cases hname : name = (decodePair pair).1
  · rw [if_pos hname, beq_iff_eq.mpr hname]
  · rw [if_neg hname, beq_false_of_ne hname]

/-- A query gives a name the value that the last of its pairs gives it which gives it any. -/
theorem value?_eq_findSome? (query name : String) :
    value? query name =
      (rawPairs query).reverse.findSome? fun pair => value? (String.ofList pair) name := by
  rw [value?, pairs, ← List.map_reverse]
  have hpairs : ∀ pair ∈ (rawPairs query).reverse, pair ∈ rawPairs query :=
    fun _ => List.mem_reverse.mp
  generalize (rawPairs query).reverse = written at hpairs ⊢
  induction written with
  | nil => rfl
  | cons pair rest ih =>
    obtain ⟨hpair, hrest⟩ := List.forall_mem_cons.mp hpairs
    rw [List.map_cons, List.findSome?_cons, value?_ofList hpair, List.lookup_cons, ih hrest]
    by_cases hname : name = (decodePair pair).1
    · rw [if_pos hname, beq_iff_eq.mpr hname]
    · rw [if_neg hname, beq_false_of_ne hname]

end Http.Query

namespace Log

open Http (Header Request Response Query.rawPairs Query.decodePair Query.decodeText Query.value?)

variable {query : String} {pair pair' : List Char} {r r' : Request}

/-! ## Pairs -/

/-- The carrier would read a credential from the pair, if the pair were the whole query. -/
def carries (pair : List Char) : Bool :=
  (Query.value? (String.ofList pair) "key").isSome ||
    (Query.value? (String.ofList pair) "auth_token").isSome

/-- The name as it is written, and no value. -/
def hidden (pair : List Char) : List Char := (Text.splitAt '=' pair).1 ++ "=[REDACTED]".toList

theorem nameOf_of_mem (h : pair ∈ Query.rawPairs query) :
    nameOf pair = (Query.decodePair pair).1 := by
  rw [nameOf, Http.Query.pairs, Http.Query.rawPairs_ofList h]
  rfl

theorem isSecretParameter_iff {name : String} :
    isSecretParameter name = true ↔ name = "key" ∨ name = "auth_token" := by
  simp [isSecretParameter]

/-- Both readings of a pair find the same name. -/
theorem carries_eq (h : pair ∈ Query.rawPairs query) :
    carries pair = isSecretParameter (nameOf pair) := by
  have hsome (name : String) :
      (Query.value? (String.ofList pair) name).isSome = (nameOf pair == name) := by
    rw [Http.Query.value?_ofList h, nameOf_of_mem h]
    by_cases hname : name = (Query.decodePair pair).1
    · rw [if_pos hname, hname, beq_self_eq_true]
      rfl
    · rw [if_neg hname, beq_false_of_ne (Ne.symm hname)]
      rfl
  rw [carries, hsome, hsome, isSecretParameter]

theorem redactPair_of_mem (h : pair ∈ Query.rawPairs query) :
    redactPair pair = String.ofList (if carries pair then hidden pair else pair) := by
  rw [redactPair, carries_eq h]
  split
  · rw [hidden, String.ofList_append, String.ofList_toList, String.append_assoc]
    rfl
  · rfl

theorem not_mem_hidden (h : '&' ∉ pair) : '&' ∉ hidden pair ∧ hidden pair ≠ [] := by
  have hname : '&' ∉ (Text.splitAt '=' pair).1 := by
    unfold Text.splitAt
    split
    · exact fun hmem => h (List.takeWhile_subset _ hmem)
    · exact h
  refine ⟨?_, by simp [hidden]⟩
  rw [hidden, List.mem_append, not_or]
  exact ⟨hname, by decide⟩

/-- The logged query has the pairs of the query, in their order, and those that carry a credential
have lost their values. -/
theorem rawPairs_redactQuery (query : String) :
    Query.rawPairs (redactQuery query) =
      (Query.rawPairs query).map fun pair => if carries pair then hidden pair else pair := by
  have hpairs : (Query.rawPairs query).map redactPair =
      ((Query.rawPairs query).map fun pair =>
        if carries pair then hidden pair else pair).map String.ofList := by
    rw [List.map_map]
    exact List.map_congr_left fun pair hpair => redactPair_of_mem hpair
  rw [redactQuery, hpairs]
  refine Http.Query.rawPairs_intercalate ?_
  intro shown hshown
  obtain ⟨pair, hpair, rfl⟩ := List.mem_map.mp hshown
  obtain ⟨hmark, hne⟩ := Http.Query.of_mem_rawPairs hpair
  split
  · exact not_mem_hidden hmark
  · exact ⟨hmark, hne⟩

/-! ## Requests that differ in credentials -/

/-- The names of the headers whose values may differ. -/
def credentialHeaders : List String :=
  ["authorization", "x-api-key", "x-goog-api-key", "proxy-authorization", "cookie", "set-cookie"]

def LikeHeader (h h' : Header) : Prop :=
  h.name = h'.name ∧ (h.value = h'.value ∨ h.name ∈ credentialHeaders)

/-- The pairs are one, or they differ in what stands behind the first equals sign of a pair whose
name is that of a credential. -/
inductive LikePair : List Char → List Char → Prop
  | same (pair : List Char) : LikePair pair pair
  | secret (name value value' : List Char) (hmark : '=' ∉ name)
      (hname : Query.decodeText name = "key" ∨ Query.decodeText name = "auth_token") :
      LikePair (name ++ '=' :: value) (name ++ '=' :: value')

/-- The pairs of a request's query as they are written. -/
def writtenPairs (r : Request) : List (List Char) := r.uri.query.elim [] Query.rawPairs

structure AlikeButSecrets (r r' : Request) : Prop where
  method : r.method = r'.method
  path : r.uri.path = r'.uri.path
  headers : List.Forall₂ LikeHeader r.headers r'.headers
  query : List.Forall₂ LikePair (writtenPairs r) (writtenPairs r')

/-- Alike pairs are logged alike. -/
theorem redactPair_congr {query' : String} (h : LikePair pair pair')
    (hpair : pair ∈ Query.rawPairs query) (hpair' : pair' ∈ Query.rawPairs query') :
    redactPair pair = redactPair pair' := by
  cases h with
  | same => rfl
  | secret name value value' hmark hname =>
    have hsecret (text : List Char) : (Query.decodePair (name ++ '=' :: text)).1 =
        Query.decodeText name := by
      rw [Query.decodePair, Text.splitAt_of_not_mem hmark]
    have hname := isSecretParameter_iff.mpr hname
    rw [redactPair, redactPair, nameOf_of_mem hpair, nameOf_of_mem hpair', hsecret, hsecret,
      if_pos hname, if_pos hname, Text.splitAt_of_not_mem hmark, Text.splitAt_of_not_mem hmark]

/-! ## Headers -/

theorem headerText_congr {h h' : Header} (hlike : LikeHeader h h') :
    headerText h = headerText h' := by
  obtain ⟨hname, hvalue⟩ := hlike
  rw [headerText, headerText, ← hname]
  split
  · rfl
  · rename_i hplain
    rcases hvalue with hvalue | hcredential
    · rw [Header.text?, Header.text?, hvalue]
    · refine absurd ?_ hplain
      rw [isSecretHeader, List.contains_iff_mem]
      simp only [credentialHeaders, List.mem_cons, List.not_mem_nil, or_false] at hcredential ⊢
      tauto

theorem map_congr_of_forall₂ {α β : Type} {R : α → α → Prop} {f : α → β} {l l' : List α}
    (h : List.Forall₂ R l l') (hf : ∀ a ∈ l, ∀ b ∈ l', R a b → f a = f b) :
    l.map f = l'.map f := by
  induction h with
  | nil => rfl
  | cons hab _ ih =>
    rw [List.map_cons, List.map_cons, hf _ List.mem_cons_self _ List.mem_cons_self hab, ih]
    intro a ha b hb
    exact hf a (List.mem_cons_of_mem _ ha) b (List.mem_cons_of_mem _ hb)

theorem filter_congr {hs hs' : List Header} (h : List.Forall₂ LikeHeader hs hs')
    (test : String → Bool) :
    List.Forall₂ LikeHeader (hs.filter (test ·.name)) (hs'.filter (test ·.name)) := by
  refine List.rel_filter ?_ h
  intro a b hlike
  simp only [hlike.1]

theorem grouped_congr {hs hs' : List Header} (h : List.Forall₂ LikeHeader hs hs') :
    List.Forall₂ LikeHeader (grouped hs) (grouped hs') := by
  have hnames : hs.map (·.name) = hs'.map (·.name) :=
    map_congr_of_forall₂ h fun _ _ _ _ hlike => hlike.1
  rw [grouped, grouped, ← hnames]
  induction (hs.map (·.name)).eraseDups with
  | nil => exact .nil
  | cons name names ih => exact List.rel_append (filter_congr h (· == name)) ih

theorem headersText_congr {hs hs' : List Header} (h : List.Forall₂ LikeHeader hs hs') :
    headersText hs = headersText hs' := by
  have hlogged := filter_congr (grouped_congr h) isLoggedHeader
  rw [headersText, headersText,
    map_congr_of_forall₂ hlogged fun _ _ _ _ hlike => headerText_congr hlike]

/-! ## Lines -/

/-- The logged query of a request. -/
theorem loggedQuery_eq (r : Request) :
    (r.uri.query.map redactQuery).getD "" = "&".intercalate ((writtenPairs r).map redactPair) := by
  rw [writtenPairs]
  cases r.uri.query <;> rfl

theorem exists_query_of_mem (h : pair ∈ writtenPairs r) :
    ∃ query, pair ∈ Query.rawPairs query := by
  rw [writtenPairs] at h
  cases hquery : r.uri.query with
  | none =>
    rw [hquery] at h
    cases h
  | some query =>
    rw [hquery] at h
    exact ⟨query, h⟩

theorem loggedQuery_congr (h : AlikeButSecrets r r') :
    (r.uri.query.map redactQuery).getD "" = (r'.uri.query.map redactQuery).getD "" := by
  rw [loggedQuery_eq, loggedQuery_eq, map_congr_of_forall₂ h.query]
  intro pair hpair pair' hpair' hlike
  obtain ⟨query, hpair⟩ := exists_query_of_mem hpair
  obtain ⟨query', hpair'⟩ := exists_query_of_mem hpair'
  exact redactPair_congr hlike hpair hpair'

/-- What the line on an incoming request says in this field. -/
def incomingField? (events : List Event) (name : String) : Option String :=
  (events.find? (·.message == "Incoming request")).bind (·.fields.lookup name)

/-- Two requests that differ in nothing but the values of credentials leave one line in the log,
whatever is answered. What is hidden in a query is what the carrier reads a credential from, if it
reads one pair at a time; and it is by the last of these pairs that the carrier answers. -/
theorem incoming_hides_credentials (h : AlikeButSecrets r r') :
    (∀ (draw draw' : Draw) (response response' : Response),
      ∀ name ∈ ["method", "path", "query", "headers"],
        incomingField? (Service.log draw r response) name =
          incomingField? (Service.log draw' r' response') name) ∧
      (∀ (r : Request) (draw : Draw) (response : Response), ∃ logged,
        incomingField? (Service.log draw r response) "query" = some logged ∧
          Query.rawPairs logged =
            (writtenPairs r).map fun pair => if carries pair then hidden pair else pair) ∧
      ∀ (r : Request) (name : String), r.carrier.query name =
        (writtenPairs r).reverse.findSome? fun pair => Query.value? (String.ofList pair) name := by
  refine ⟨?_, ?_, ?_⟩
  · intro draw draw' response response' name hname
    have hpath : Service.loggedPath r = Service.loggedPath r' := by
      rw [Service.loggedPath, Service.loggedPath, h.path]
    simp only [List.mem_cons, List.not_mem_nil, or_false] at hname
    rcases hname with rfl | rfl | rfl | rfl
    · exact congrArg some h.method
    · exact congrArg some hpath
    · exact congrArg some (loggedQuery_congr h)
    · exact congrArg some (headersText_congr h.headers)
  · intro r draw response
    refine ⟨_, rfl, ?_⟩
    rw [writtenPairs]
    cases r.uri.query with
    | none => rfl
    | some query => exact rawPairs_redactQuery query
  · intro r name
    rw [writtenPairs, Http.Request.carrier]
    cases r.uri.query with
    | none => rfl
    | some query => exact Http.Query.value?_eq_findSome? query name

/-- A credential under an escaped name, an empty pair, a plain pair, and a name that comes twice. -/
def calling (first second header : String) : Request where
  method := "GET"
  uri := ⟨"/v1/access", some ("ke%79=" ++ first ++ "&&page=a+b&key=" ++ second)⟩
  headers := [⟨"x-api-key", Utf8.encode header⟩, ⟨"accept", Utf8.encode "text/plain"⟩,
    ⟨"cookie", Utf8.encode second⟩]
  body := []

theorem incoming_hides_credentials_calling :
    AlikeButSecrets (calling "tk_door" "a=b" "tk_side") (calling "" "tk%20gate" "") ∧
      ∀ (draw draw' : Draw) (response response' : Response),
        incomingField? (Service.log draw (calling "tk_door" "a=b" "tk_side") response) "query" =
            some "ke%79=[REDACTED]&page=a+b&key=[REDACTED]" ∧
          incomingField? (Service.log draw' (calling "" "tk%20gate" "") response') "query" =
            some "ke%79=[REDACTED]&page=a+b&key=[REDACTED]" := by
  have halike : AlikeButSecrets (calling "tk_door" "a=b" "tk_side")
      (calling "" "tk%20gate" "") := by
    refine ⟨rfl, rfl, ?_, ?_⟩
    · refine .cons ?_ (.cons ?_ (.cons ?_ .nil))
      · exact ⟨rfl, .inr (by decide)⟩
      · exact ⟨rfl, .inl rfl⟩
      · exact ⟨rfl, .inr (by decide)⟩
    · have hpairs : writtenPairs (calling "tk_door" "a=b" "tk_side") =
          ["ke%79=tk_door".toList, "page=a+b".toList, "key=a=b".toList] := by
        decide +kernel
      have hpairs' : writtenPairs (calling "" "tk%20gate" "") =
          ["ke%79=".toList, "page=a+b".toList, "key=tk%20gate".toList] := by
        decide +kernel
      rw [hpairs, hpairs']
      refine .cons ?_ (.cons (.same _) (.cons ?_ .nil))
      · exact .secret "ke%79".toList _ [] (by decide) (.inl (by decide +kernel))
      · exact .secret "key".toList _ _ (by decide) (.inl (by decide +kernel))
  refine ⟨halike, ?_⟩
  intro draw draw' response response'
  have hshown : incomingField? (Service.log draw (calling "tk_door" "a=b" "tk_side") response)
      "query" = some "ke%79=[REDACTED]&page=a+b&key=[REDACTED]" :=
    congrArg some (by decide +kernel)
  refine ⟨hshown, ?_⟩
  rw [← (incoming_hides_credentials halike).1 draw draw' response response' "query" (by simp)]
  exact hshown

end Log
end Turnstile
