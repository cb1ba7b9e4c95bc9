import Turnstile.Proofs.Json.Spelling
import Turnstile.Proofs.Text.Case
import Turnstile.Proofs.Text.Split
import Turnstile.Settings.Source

/-! Files that set one text. Quoted, every text can be written in either format, and it is read as
it was written. -/

namespace Turnstile

variable {c : Char} {cs rest : List Char} {group name v : String}

/-! ## Names and strings of TOML -/

namespace Toml

/-- A string with escapes, on one line. -/
def escapeChar (c : Char) : List Char :=
  if c = '"' ∨ c = '\\' then ['\\', c]
  else if isPlain c then [c]
  else ['\\', 'u', '0', '0', Text.lowerHexDigit (c.toNat / 16), Text.lowerHexDigit (c.toNat % 16)]

theorem hexValue?_lowerHexDigit : ∀ n, n < 16 → hexValue? (Text.lowerHexDigit n) = some n := by
  decide

theorem readNumbered_control (h : c.toNat < 0x80) :
    readNumbered 4 ('0' :: '0' :: Text.lowerHexDigit (c.toNat / 16) ::
      Text.lowerHexDigit (c.toNat % 16) :: rest) = some (c, rest) := by
  have hzero : hexValue? '0' = some 0 := by decide
  have hhigh := hexValue?_lowerHexDigit (c.toNat / 16) (by omega)
  have hlow := hexValue?_lowerHexDigit (c.toNat % 16) (by omega)
  have hvalue : c.toNat / 16 * 16 + c.toNat % 16 = c.toNat := by omega
  have hvalid : c.toNat.isValidChar := c.valid
  simp [readNumbered, hzero, hhigh, hlow, hvalue, hvalid, Char.ofNat_toNat]

theorem readBasic_escapeChar (seen : List Char) (steps : Nat) :
    readBasic (steps + 1) seen (escapeChar c ++ rest) = readBasic steps (c :: seen) rest := by
  unfold escapeChar
  split
  · rename_i hmark
    rcases hmark with rfl | rfl <;> rfl
  · rename_i hmark
    split
    · rename_i hplain
      have hquote : c ≠ '"' := fun h => hmark (.inl h)
      have hslash : c ≠ '\\' := fun h => hmark (.inr h)
      rw [List.singleton_append, readBasic, if_pos hplain]
      · exact hquote
      · exact hslash
    · rename_i hplain
      have hlow : c.toNat < 0x80 := by
        simp [isPlain] at hplain
        omega
      simp only [List.cons_append, List.nil_append, readBasic, readEscape,
        readNumbered_control hlow, Option.bind_eq_bind, Option.bind_some]

theorem readBasic_escaped (seen : List Char) {steps : Nat} (h : cs.length < steps) :
    readBasic steps seen (cs.flatMap escapeChar ++ '"' :: rest) =
      some (String.ofList (seen.reverse ++ cs), rest) := by
  induction cs generalizing seen steps with
  | nil =>
    obtain ⟨steps, rfl⟩ : ∃ k, steps = k + 1 := ⟨steps - 1, by omega⟩
    simp [readBasic]
  | cons c cs ih =>
    rw [List.length_cons] at h
    obtain ⟨steps, rfl⟩ : ∃ k, steps = k + 1 := ⟨steps - 1, by omega⟩
    rw [List.flatMap_cons, List.append_assoc, readBasic_escapeChar, ih _ (by omega),
      List.reverse_cons, List.append_assoc]
    rfl

theorem isBare_ne {d : Char} (h : isBare c = true) (hd : isBare d = false) : c ≠ d := by
  rintro rfl
  rw [h] at hd
  cases hd

theorem isSpace_of_isBare (h : isBare c = true) : isSpace c = false := by
  simp [isSpace, isBare_ne h (d := ' ') (by decide), isBare_ne h (d := '\t') (by decide)]

/-- A name that stands for itself. -/
def Bare (name : String) : Prop := name ≠ "" ∧ name.toList.all isBare = true

theorem Bare.exists_cons (h : Bare name) :
    ∃ c cs, name.toList = c :: cs ∧ isBare c = true := by
  obtain ⟨c, cs, hcs⟩ := List.exists_cons_of_ne_nil (mt String.toList_eq_nil_iff.mp h.1)
  exact ⟨c, cs, hcs, List.all_eq_true.mp h.2 c (by rw [hcs]; exact List.mem_cons_self)⟩

theorem dropSpaces_cons (h : isSpace c = false) : dropSpaces (c :: cs) = c :: cs := by
  rw [dropSpaces, List.dropWhile_cons_of_neg (by simp [h])]

theorem Bare.dropSpaces_append (h : Bare name) :
    dropSpaces (name.toList ++ rest) = name.toList ++ rest := by
  obtain ⟨c, cs, hcs, hc⟩ := h.exists_cons
  rw [hcs, List.cons_append, dropSpaces_cons (isSpace_of_isBare hc)]

theorem Bare.readName_append (h : Bare name) (hc : isBare c = false) :
    readName (name.toList ++ c :: rest) = some (name, c :: rest) := by
  have htake : (name.toList ++ c :: rest).takeWhile isBare = name.toList := by
    rw [List.takeWhile_append_of_pos (List.all_eq_true.mp h.2),
      List.takeWhile_cons_of_neg (by simp [hc]),
      List.append_nil]
  obtain ⟨d, ds, hds, hd⟩ := h.exists_cons
  unfold readName
  split
  · rename_i heq
    rw [hds] at heq
    exact absurd (List.head_eq_of_cons_eq heq) (isBare_ne hd (by decide))
  · rename_i heq
    rw [hds] at heq
    exact absurd (List.head_eq_of_cons_eq heq) (isBare_ne hd (by decide))
  · simp only [htake, List.drop_left, String.ofList_toList]
    rw [if_neg]
    simpa using h.1

theorem readNamesUpTo_last (h : Bare name) (more : Nat) :
    readNamesUpTo (more + 1) (name.toList ++ '=' :: rest) = some ([name], '=' :: rest) := by
  rw [readNamesUpTo, h.dropSpaces_append, h.readName_append (by decide), Option.bind_eq_bind,
    Option.bind_some]
  rfl

theorem readNamesUpTo_first (h : Bare name) (more : Nat) :
    readNamesUpTo (more + 1) (name.toList ++ '.' :: rest) =
      (readNamesUpTo more rest).map fun read => (name :: read.1, read.2) := by
  rw [readNamesUpTo, h.dropSpaces_append, h.readName_append (by decide), Option.bind_eq_bind,
    Option.bind_some]
  simp only [dropSpaces_cons (c := '.') (by decide)]
  cases readNamesUpTo more rest <;> rfl

theorem not_quote_of_escaped (cs : List Char) {d : Char} {ds : List Char}
    (h : cs.flatMap escapeChar ++ ['"'] = '"' :: d :: ds) : False := by
  cases cs with
  | nil => cases h
  | cons c cs =>
    rw [List.flatMap_cons, escapeChar] at h
    split at h
    · cases h
    · rename_i hmark
      split at h
      · exact hmark (.inl (List.head_eq_of_cons_eq h))
      · cases h

theorem length_le_escaped (cs : List Char) : cs.length ≤ (cs.flatMap escapeChar).length := by
  induction cs with
  | nil => exact Nat.le_refl _
  | cons c cs ih =>
    have hpos : 0 < (escapeChar c).length := by
      unfold escapeChar
      split_ifs <;> exact Nat.zero_lt_succ _
    rw [List.flatMap_cons, List.length_append, List.length_cons]
    omega

theorem readString_quoted (cs : List Char) :
    readString ('"' :: (cs.flatMap escapeChar ++ ['"'])) = some (String.ofList cs, []) := by
  have hlength := length_le_escaped cs
  rw [readString, readBasic_escaped]
  · rfl
  · rw [List.length_append, List.length_singleton]
    omega
  · intro rest heq
    exact not_quote_of_escaped cs heq

/-- The text under the name in the group. -/
def write (group name : String) (v : String) : String :=
  String.ofList (group.toList ++ '.' :: (name.toList ++ '=' :: '"' ::
    (v.toList.flatMap escapeChar ++ ['"'])))

theorem exists_write (hgroup : Bare group) (name v : String) :
    ∃ c cs, (write group name v).toList = c :: cs ∧ isBare c = true := by
  obtain ⟨c, cs, hcs, hc⟩ := hgroup.exists_cons
  exact ⟨c, _, by rw [write, String.toList_ofList, hcs, List.cons_append], hc⟩

theorem readNames_write (hgroup : Bare group) (hname : Bare name) :
    readNames (write group name v).toList = some ([group, name],
      '=' :: '"' :: (v.toList.flatMap escapeChar ++ ['"'])) := by
  have hbound : nestingBound - 1 = 77 + 1 + 1 := rfl
  rw [write, String.toList_ofList, readNames, hbound, readNamesUpTo_first hgroup,
    readNamesUpTo_last hname]
  rfl

theorem readValue_quoted (levels steps : Nat) (v : String) :
    readValue levels (steps + 1) ('"' :: (v.toList.flatMap escapeChar ++ ['"'])) =
      some (.text v, []) := by
  rw [readValue, readString_quoted, String.ofList_toList]
  rfl

theorem readStatement_write (hgroup : Bare group) (hname : Bare name) :
    readStatement (write group name v).toList = some (.assign [group, name] (.text v), []) := by
  have hnames := readNames_write (v := v) hgroup hname
  obtain ⟨c, cs, hcs, hc⟩ := exists_write hgroup name v
  have hbracket := isBare_ne hc (d := '[') (by decide)
  rw [hcs] at hnames ⊢
  rw [readStatement, hnames, Option.bind_eq_bind, Option.bind_some]
  · have hsteps : 2 * (c :: cs).length = 2 * cs.length + 1 + 1 := by
      rw [List.length_cons]
      omega
    simp only [mark?, if_true, Option.bind_eq_bind, Option.bind_some,
      dropSpaces_cons (c := '"') (by decide), hsteps, readValue_quoted]
    rfl
  · intro rest heq
    exact hbracket (List.head_eq_of_cons_eq heq)
  · intro rest heq
    exact hbracket (List.head_eq_of_cons_eq heq)

theorem dropGaps_bare (hc : isBare c = true) (steps : Nat) :
    dropGaps (steps + 1) (c :: cs) = some (c :: cs) := by
  have hend : lineEnd? (c :: cs) = none := by
    unfold lineEnd?
    split
    · rename_i heq
      exact absurd (List.head_eq_of_cons_eq heq) (isBare_ne hc (by decide))
    · rename_i heq
      exact absurd (List.head_eq_of_cons_eq heq) (isBare_ne hc (by decide))
    · rfl
  rw [dropGaps, dropSpaces_cons (isSpace_of_isBare hc)]
  split
  · rename_i heq
    exact absurd (List.head_eq_of_cons_eq heq) (isBare_ne hc (by decide))
  · rw [hend]

theorem readStatements_write (hgroup : Bare group) (hname : Bare name) (steps : Nat) :
    readStatements (steps + 1 + 1) (write group name v).toList =
      some [.assign [group, name] (.text v)] := by
  have hstatement := readStatement_write (v := v) hgroup hname
  obtain ⟨c, cs, hcs, hc⟩ := exists_write hgroup name v
  rw [hcs] at hstatement ⊢
  rw [readStatements, List.length_cons, dropGaps_bare hc]
  simp only [Option.bind_eq_bind, Option.bind_some, hstatement]
  rfl

theorem parse?_write (hgroup : Bare group) (hname : Bare name) (v : String) :
    parse? (write group name v) = some [(group, .table [(name, .text v)])] := by
  obtain ⟨c, cs, hcs, -⟩ := exists_write hgroup name v
  have hsteps : (write group name v).toList.length + 1 = cs.length + 1 + 1 := by
    rw [hcs, List.length_cons]
  rw [parse?, hsteps, readStatements_write hgroup hname]
  rfl

end Toml

namespace Setting

/-! ## Files -/

/-- A file that sets a text and nothing else. -/
def Format.write (f : Format) (group name v : String) : String :=
  match f with
  | toml => Toml.write group name v
  | json => (Json.Value.obj [(group, .obj [(name, .str v)])]).pretty

theorem Format.parse?_write (f : Format) (hgroup : Toml.Bare group) (hname : Toml.Bare name)
    (v : String) : f.parse? (f.write group name v) = some [(group, .table [(name, .text v)])] := by
  cases f with
  | toml => exact Toml.parse?_write hgroup hname v
  | json =>
    have hcounted : (Json.Value.obj [(group, .obj [(name, .str v)])]).Counted :=
      ⟨⟨trivial, trivial⟩, trivial⟩
    rw [Format.parse?, Json.Value.read?, Format.write, Json.Token.ofBytes_pretty hcounted]
    rfl

/-- A text that starts with a character of ASCII starts with no byte order mark. -/
theorem textOf_encode {s : String} (hs : s.toList = c :: cs) (hascii : c.toNat < 0x80) :
    textOf (Utf8.encode s) = s := by
  have hdecode := Utf8.decodeLossy_encode s
  have hfirst : Utf8.encode s = c.toNat.toUInt8 :: Utf8.encodeList cs := by
    rw [Utf8.encode, hs, Utf8.encodeList_cons, Json.Token.encodeChar_ascii hascii]
    rfl
  rw [hfirst] at hdecode ⊢
  unfold textOf
  split
  · rename_i heq
    have hmark : c.toNat.toUInt8 = 0xEF := List.head_eq_of_cons_eq heq
    have hnat : c.toNat = 0xEF := by
      rw [← Utf8.toNat_toUInt8 (n := c.toNat) (by omega), hmark]
      rfl
    omega
  · exact hdecode

theorem toNat_lt_of_isBare (h : Toml.isBare c = true) : c.toNat < 0x80 := by
  simp only [Toml.isBare, Char.isAlphanum, Bool.or_eq_true, beq_iff_eq] at h
  rcases h with ((halpha | hdigit) | rfl) | rfl
  · exact Text.toNat_lt_of_isAlpha halpha
  · have hbounds : 48 ≤ c.toNat ∧ c.toNat ≤ 57 := Char.isDigit_iff_toNat.mp hdigit
    omega
  · decide
  · decide

theorem Format.textOf_write (f : Format) (hgroup : Toml.Bare group) (name v : String) :
    textOf (Utf8.encode (f.write group name v)) = f.write group name v := by
  cases f with
  | toml =>
    obtain ⟨c, cs, hcs, hc⟩ := Toml.exists_write hgroup name v
    exact textOf_encode hcs (toNat_lt_of_isBare hc)
  | json =>
    have hbrace : ∃ cs, (Format.json.write group name v).toList = '\x7b' :: cs := by
      rw [Format.write, Json.Value.pretty, String.toList_ofList]
      exact ⟨_, rfl⟩
    obtain ⟨cs, hcs⟩ := hbrace
    exact textOf_encode hcs (by decide)

theorem ofFile_write {files : FileTree} {place path : String} {f : Format} (required : Bool)
    (hgroup : Toml.Bare group) (hname : Toml.Bare name)
    (hlocate : locateFile? files place = some (path, f))
    (hcontents : files.contents path = .ok (Utf8.encode (f.write group name v))) :
    ofFile files required place = some [(group, .table [(name, .text v)])] := by
  rw [ofFile, hlocate]
  simp only [hcontents, f.textOf_write hgroup, f.parse?_write hgroup hname]

end Setting

end Turnstile
