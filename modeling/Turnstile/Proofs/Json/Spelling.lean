import Turnstile.Proofs.Json.Scalar

/-! The pretty form of a value, read back as tokens. What a piece of text spells is said together
with any text that may follow it and any number of steps that suffices, so pieces can be put
together one after the other. -/

namespace Turnstile.Json

open Utf8 (encodeChar encodeList)

/-! ## The tokens of a value -/

def Value.tokens : Value → List Token
  | .null => [.null]
  | .bool b => [.bool b]
  | .num n => [.num n]
  | .str s => [.str (some s)]
  | .arr [] => [.openArray, .closeArray]
  | .arr (v :: rest) => .openArray :: (v.tokens ++ (moreItems rest ++ [.closeArray]))
  | .obj [] => [.openObject, .closeObject]
  | .obj ((name, v) :: rest) =>
    .openObject :: .str (some name) :: .colon :: (v.tokens ++ (moreMembers rest ++ [.closeObject]))
where
  moreItems : List Value → List Token
    | [] => []
    | v :: rest => .comma :: (v.tokens ++ moreItems rest)
  moreMembers : List (String × Value) → List Token
    | [] => []
    | (name, v) :: rest => .comma :: .str (some name) :: .colon :: (v.tokens ++ moreMembers rest)

/-- All numbers in the value are counts. -/
def Value.Counted : Value → Prop
  | .num n => ∃ k, n = .ofNat k
  | .arr items => allItems items
  | .obj members => allMembers members
  | _ => True
where
  allItems : List Value → Prop
    | [] => True
    | v :: rest => v.Counted ∧ allItems rest
  allMembers : List (String × Value) → Prop
    | [] => True
    | (_, v) :: rest => v.Counted ∧ allMembers rest

namespace Token

variable {c : Char} {cs ds : List Char} {token : Token} {tokens more : List Token}

/-! ## Pieces of text -/

/-- Before anything that continues no number, the text is read as the tokens. -/
def Spells (cs : List Char) (tokens : List Token) : Prop :=
  ∀ rest, Closed rest → ∀ steps seen, (encodeList cs ++ rest).length ≤ steps →
    ∃ left, rest.length ≤ left ∧
      readAll steps seen (encodeList cs ++ rest) = readAll left (tokens.reverse ++ seen) rest

/-- The text starts with what continues no number. -/
def Breaks (cs : List Char) : Prop := ∀ rest, Closed (encodeList cs ++ rest)

theorem breaks_cons (hascii : c.toNat < 0x80) (hclosed : isDigit c.toNat.toUInt8 = false ∧
    c.toNat.toUInt8 ≠ 0x2E ∧ c.toNat.toUInt8 ≠ 0x65 ∧ c.toNat.toUInt8 ≠ 0x45) :
    Breaks (c :: cs) := by
  intro rest b hb
  rw [Utf8.encodeList_cons, encodeChar_ascii hascii] at hb
  exact Option.some.inj hb ▸ hclosed

theorem ofBytes_of_spells (h : Spells cs tokens) : ofBytes (encodeList cs) = tokens := by
  obtain ⟨left, -, hread⟩ := h [] nofun (encodeList cs).length [] (by simp)
  rw [List.append_nil, List.append_nil] at hread
  rw [ofBytes, hread]
  cases left <;> simp [readAll]

namespace Spells

theorem nil : Spells [] [] :=
  fun _ _ steps _ hsteps => ⟨steps, hsteps, rfl⟩

theorem append (h : Spells cs tokens) (h' : Spells ds more) (hbreaks : Breaks ds) :
    Spells (cs ++ ds) (tokens ++ more) := by
  intro rest hrest steps seen hsteps
  rw [Utf8.encodeList_append, List.append_assoc] at hsteps ⊢
  obtain ⟨left, hleft, hread⟩ := h _ (hbreaks rest) steps seen hsteps
  obtain ⟨last, hlast, hread'⟩ := h' rest hrest left (tokens.reverse ++ seen) hleft
  refine ⟨last, hlast, ?_⟩
  rw [hread, hread', List.reverse_append, List.append_assoc]

/-- A space spells nothing. -/
theorem space (hascii : c.toNat < 0x80) (hspace : isSpace c.toNat.toUInt8 = true)
    (h : Spells cs tokens) : Spells (c :: cs) tokens := by
  intro rest hrest steps seen hsteps
  rw [Utf8.encodeList_cons, encodeChar_ascii hascii] at hsteps ⊢
  rw [List.cons_append, List.nil_append, List.cons_append, List.length_cons] at hsteps
  obtain ⟨steps, rfl⟩ : ∃ k, steps = k + 1 := ⟨steps - 1, by omega⟩
  obtain ⟨left, hleft, hread⟩ := h rest hrest steps seen (by omega)
  refine ⟨left, hleft, ?_⟩
  rw [List.cons_append, List.nil_append, List.cons_append, readAll, if_pos hspace, hread]

/-- One token and nothing more. -/
theorem one {b : UInt8} (hhead : (encodeList cs).head? = some b)
    (hspace : isSpace b = false)
    (hone : ∀ rest, Closed rest → readOne (encodeList cs ++ rest) = some (token, rest)) :
    Spells cs [token] := by
  intro rest hrest steps seen hsteps
  have hread := hone rest hrest
  obtain ⟨bytes, hbytes⟩ := List.head?_eq_some_iff.mp hhead
  rw [hbytes, List.cons_append] at hsteps hread ⊢
  rw [List.length_cons, List.length_append] at hsteps
  obtain ⟨steps, rfl⟩ : ∃ k, steps = k + 1 := ⟨steps - 1, by omega⟩
  refine ⟨steps, by omega, ?_⟩
  rw [readAll, hspace, hread]
  rfl

/-- A mark is a token whatever follows it. -/
theorem mark (hascii : c.toNat < 0x80) (hspace : isSpace c.toNat.toUInt8 = false)
    (hone : ∀ rest, readOne (c.toNat.toUInt8 :: rest) = some (token, rest))
    (h : Spells cs tokens) : Spells (c :: cs) (token :: tokens) := by
  intro rest hrest steps seen hsteps
  rw [Utf8.encodeList_cons, encodeChar_ascii hascii] at hsteps ⊢
  rw [List.cons_append, List.nil_append, List.cons_append] at hsteps ⊢
  rw [List.length_cons] at hsteps
  obtain ⟨steps, rfl⟩ : ∃ k, steps = k + 1 := ⟨steps - 1, by omega⟩
  obtain ⟨left, hleft, hread⟩ := h rest hrest steps (token :: seen) (by omega)
  refine ⟨left, hleft, ?_⟩
  have hreverse : (token :: tokens).reverse ++ seen = tokens.reverse ++ token :: seen := by simp
  rw [readAll, hspace, hone, hreverse]
  exact hread

theorem newLine {level : Nat} (h : Spells cs tokens) : Spells (newLine level ++ cs) tokens := by
  have hblanks (n : Nat) : Spells (List.replicate n ' ' ++ cs) tokens := by
    induction n with
    | zero => exact h
    | succ n ih => exact space (by decide) (by decide) ih
  exact space (by decide) (by decide) (hblanks _)

theorem null : Spells (compactChars .null) [.null] :=
  one (b := 0x6E) rfl rfl (fun _ _ => rfl)

theorem bool (b : Bool) : Spells (compactChars (.bool b)) [.bool b] := by
  cases b with
  | true => exact one (b := 0x74) rfl rfl (fun _ _ => rfl)
  | false => exact one (b := 0x66) rfl rfl (fun _ _ => rfl)

theorem count (n : Nat) : Spells (compactChars (.num (.ofNat n))) [.num (.ofNat n)] := by
  have hchars : compactChars (.num (.ofNat n)) = Nat.toDigits 10 n := by
    simp [compactChars, Number.render, Number.ofNat]
  obtain ⟨b, bytes, hbytes, hdigit⟩ := encodeList_toDigits n
  have hspace : isSpace b = false := by
    cases hspace : isSpace b with
    | false => rfl
    | true =>
      simp only [isSpace, Bool.or_eq_true, beq_iff_eq] at hspace
      rcases hspace with ((rfl | rfl) | rfl) | rfl <;> exact absurd hdigit (by decide)
  rw [hchars]
  exact one (by rw [hbytes]; rfl) hspace (fun rest hrest => readOne_toDigits hrest)

theorem quote (s : String) : Spells (quote s) [.str (some s)] :=
  one (b := 0x22) rfl rfl (fun _ _ => readOne_quote s)

end Spells

/-! ## Values -/

theorem breaks_newLine {level : Nat} : Breaks (newLine level ++ cs) :=
  breaks_cons (by decide) (by decide)

theorem breaks_comma : Breaks (',' :: cs) := breaks_cons (by decide) (by decide)

theorem breaks_colon : Breaks (':' :: cs) := breaks_cons (by decide) (by decide)

theorem spells_closeArray : Spells [']'] [.closeArray] :=
  .mark (by decide) (by decide) (fun _ => rfl) .nil

theorem spells_closeObject : Spells ['\x7d'] [.closeObject] :=
  .mark (by decide) (by decide) (fun _ => rfl) .nil

theorem spells_member (level : Nat) (name : String) (h : Spells cs tokens) :
    Spells (newLine level ++ quote name ++ ':' :: ' ' :: cs)
      (.str (some name) :: .colon :: tokens) := by
  have hcolon : Spells (':' :: ' ' :: cs) (.colon :: tokens) :=
    .mark (by decide) (by decide) (fun _ => rfl) (h.space (by decide) (by decide))
  exact ((Spells.quote name).newLine).append hcolon breaks_colon

mutual

theorem spells_prettyChars (level : Nat) :
    (v : Value) → v.Counted → Spells (prettyChars level v) v.tokens
  | .null, _ => .null
  | .bool b, _ => .bool b
  | .num n, h => by
    obtain ⟨k, rfl⟩ := h
    exact .count k
  | .str s, _ => .quote s
  | .arr [], _ => .mark (by decide) (by decide) (fun _ => rfl) spells_closeArray
  | .arr (v :: rest), h => by
    have hclose : Spells (newLine level ++ [']']) [.closeArray] := spells_closeArray.newLine
    have hall := (spells_prettyItems (level + 1) v rest h.1 h.2).append hclose breaks_newLine
    rw [← List.append_assoc, List.append_assoc v.tokens] at hall
    exact .mark (by decide) (by decide) (fun _ => rfl) hall
  | .obj [], _ => .mark (by decide) (by decide) (fun _ => rfl) spells_closeObject
  | .obj ((name, v) :: rest), h => by
    have hclose : Spells (newLine level ++ ['\x7d']) [.closeObject] := spells_closeObject.newLine
    have hall := (spells_prettyMembers (level + 1) name v rest h.1 h.2).append hclose breaks_newLine
    rw [← List.append_assoc, List.cons_append, List.cons_append,
      List.append_assoc v.tokens] at hall
    exact .mark (by decide) (by decide) (fun _ => rfl) hall
termination_by v => sizeOf v

theorem spells_prettyItems (level : Nat) :
    (v : Value) → (rest : List Value) → v.Counted → Value.Counted.allItems rest →
      Spells (prettyChars.prettyItems level (v :: rest)) (v.tokens ++ Value.tokens.moreItems rest)
  | v, [], hv, _ => by
    rw [Value.tokens.moreItems, List.append_nil]
    exact (spells_prettyChars level v hv).newLine
  | v, w :: rest, hv, hrest => by
    have hmore := spells_prettyItems level w rest hrest.1 hrest.2
    have hcomma : Spells (',' :: prettyChars.prettyItems level (w :: rest))
        (.comma :: (w.tokens ++ Value.tokens.moreItems rest)) :=
      .mark (by decide) (by decide) (fun _ => rfl) hmore
    exact ((spells_prettyChars level v hv).newLine).append hcomma breaks_comma
termination_by v rest => sizeOf v + sizeOf rest

theorem spells_prettyMembers (level : Nat) :
    (name : String) → (v : Value) → (rest : List (String × Value)) → v.Counted →
      Value.Counted.allMembers rest →
      Spells (prettyChars.prettyMembers level ((name, v) :: rest))
        (.str (some name) :: .colon :: (v.tokens ++ Value.tokens.moreMembers rest))
  | name, v, [], hv, _ => by
    have hmember := spells_member level name (spells_prettyChars level v hv)
    rw [Value.tokens.moreMembers, List.append_nil]
    exact hmember
  | name, v, (other, w) :: rest, hv, hrest => by
    have hmember := spells_member level name (spells_prettyChars level v hv)
    have hmore := spells_prettyMembers level other w rest hrest.1 hrest.2
    have hcomma : Spells (',' :: prettyChars.prettyMembers level ((other, w) :: rest))
        (.comma :: .str (some other) :: .colon ::
          (w.tokens ++ Value.tokens.moreMembers rest)) :=
      .mark (by decide) (by decide) (fun _ => rfl) hmore
    exact hmember.append hcomma breaks_comma
termination_by _ v rest => sizeOf v + sizeOf rest

end

/-- The pretty form of a value is read as its tokens. -/
theorem ofBytes_pretty {v : Value} (h : v.Counted) : ofBytes (Utf8.encode v.pretty) = v.tokens := by
  have hspells := ofBytes_of_spells (spells_prettyChars 0 v h)
  rwa [Utf8.encode, Value.pretty, String.toList_ofList]

end Token

end Turnstile.Json
