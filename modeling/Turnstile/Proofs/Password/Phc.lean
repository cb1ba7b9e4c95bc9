import Turnstile.Password.Argon2Hasher
import Turnstile.Proofs.Text.Base64
import Turnstile.Proofs.Text.Decimal
import Turnstile.Proofs.Text.Split
import Mathlib.Data.Nat.Digits.Defs

/-! The written form of a password hash read back. A hash without further data, whose cost fits
into words of 32 bits and whose salt and digest have the sizes that the form allows, is read as it
was written, for every variant and version. -/

namespace Turnstile

namespace Argon2

theorem Variant.ofName?_name (v : Variant) : Variant.ofName? v.name = some v := by
  cases v <;> decide

theorem Version.ofNumber?_number (v : Version) : Version.ofNumber? v.number = some v := by
  cases v <;> rfl

/-- The numbers of a cost are words of 32 bits. -/
structure Cost.Fits (c : Cost) : Prop where
  memory : c.memory < UInt32.size
  passes : c.passes < UInt32.size
  lanes : c.lanes < UInt32.size

end Argon2

namespace PasswordHash

variable {n : Nat} {c : Char} {cost : Argon2.Cost} {h : PasswordHash}

/-! ## Numbers -/

theorem not_mem_decimal (hc : c.isDigit = false) (n : Nat) : c ∉ decimal n := by
  intro hmem
  rw [Decimal.isDigit_toDigits hmem] at hc
  cases hc

theorem natural?_decimal (n : Nat) : Decimal.natural? (decimal n) = some n := by
  have hsome : (decimal n).isEmpty = false := by simp [decimal, Nat.toDigits_ne_nil]
  have hall : (decimal n).all Char.isDigit = true :=
    List.all_eq_true.mpr fun c => Decimal.isDigit_toDigits
  have hvalue : Decimal.value (decimal n) = n := Decimal.value_zeros_toDigits (k := 0)
  simp [Decimal.natural?, hsome, hall, hvalue]

theorem decimal?_decimal (hn : n < UInt32.size) : decimal? (decimal n) = some n := by
  have hzero : ¬ ((decimal n).head? == some '0' && decide (1 < (decimal n).length)) = true := by
    rcases Nat.eq_zero_or_pos n with rfl | hpos
    · decide
    · simp [decimal, Decimal.head?_toDigits hpos]
  rw [decimal?, if_neg hzero, natural?_decimal]
  simpa using hn

theorem length_decimal_le (hn : n < UInt32.size) : (decimal n).length ≤ 10 :=
  Nat.toDigits_length 10 n 10 (by decide) (hn.trans (by decide))

/-! ## Parameters -/

/-- A parameter as it stands in the list. -/
def parameter (name : Char) (value : Nat) : List Char := name :: '=' :: decimal value

def parameters (cost : Argon2.Cost) : List (List Char) :=
  [parameter 'm' cost.memory, parameter 't' cost.passes, parameter 'p' cost.lanes]

theorem splitOn_parameter {name : Char} (hname : name ≠ '=') (value : Nat) :
    Text.splitOn '=' (parameter name value) = [[name], decimal value] := by
  rw [parameter, Text.splitOn, if_neg hname, Text.splitOn, if_pos rfl,
    Text.splitOn_of_not_mem (not_mem_decimal (by decide) value)]

/-- What the parameters of a cost set. -/
def Settings.ofCost (cost : Argon2.Cost) : Settings :=
  { memory := some cost.memory, passes := some cost.passes, lanes := some cost.lanes }

theorem set_parameters (hfits : cost.Fits) :
    (parameters cost).foldlM Settings.set {} = some (.ofCost cost) := by
  have hmemory := decimal?_decimal hfits.memory
  have hpasses := decimal?_decimal hfits.passes
  have hlanes := decimal?_decimal hfits.lanes
  simp [parameters, Settings.set, Settings.ofCost, splitOn_parameter, hmemory, hpasses, hlanes]

theorem not_mem_parameter {name : Char} (hname : c ≠ name) (hequals : c ≠ '=')
    (hc : c.isDigit = false) (value : Nat) : c ∉ parameter name value := by
  rw [parameter, List.mem_cons, List.mem_cons, not_or, not_or]
  exact ⟨hname, hequals, not_mem_decimal hc value⟩

/-- The parameters between commas. -/
def parameterField (cost : Argon2.Cost) : List Char := [','].intercalate (parameters cost)

theorem parameterField_eq (cost : Argon2.Cost) :
    parameterField cost = parameter 'm' cost.memory ++ ',' :: (parameter 't' cost.passes ++
      ',' :: parameter 'p' cost.lanes) := by
  simp [parameterField, parameters, List.intercalate, List.intersperse]

theorem splitOn_parameterField (cost : Argon2.Cost) :
    Text.splitOn ',' (parameterField cost) = parameters cost := by
  refine Text.splitOn_intercalate ?_ (by simp [parameters])
  simp only [parameters, List.forall_mem_cons]
  exact ⟨not_mem_parameter (by decide) (by decide) (by decide) _,
    not_mem_parameter (by decide) (by decide) (by decide) _,
    not_mem_parameter (by decide) (by decide) (by decide) _, nofun⟩

theorem parse?_parameterField (hfits : cost.Fits) :
    Settings.parse? (parameterField cost) = some (.ofCost cost) := by
  have hmemory := length_decimal_le hfits.memory
  have hpasses := length_decimal_le hfits.passes
  have hlanes := length_decimal_le hfits.lanes
  have hshort : ¬ Settings.bound < (parameterField cost).length := by
    simp only [parameterField_eq, parameter, List.length_append, List.length_cons, Settings.bound]
    omega
  rw [Settings.parse?, if_neg hshort, splitOn_parameterField, set_parameters hfits]

/-! ## Whole hashes -/

/-- What is between the dollar signs. -/
def fields (h : PasswordHash) : List (List Char) :=
  [[], h.variant.name.toList, parameter 'v' h.version.number, parameterField h.cost,
    Base64.encode h.salt, Base64.encode h.digest]

theorem toList_render (h : PasswordHash) : h.render.toList = ['$'].intercalate h.fields := by
  -- the equation of the definition is slow to make
  delta render
  simp [fields, parameterField_eq, parameter, List.intercalate, List.intersperse]

theorem splitOn_render (h : PasswordHash) : Text.splitOn '$' h.render.toList = h.fields := by
  have hname : ∀ v : Argon2.Variant, '$' ∉ v.name.toList := by
    intro v
    cases v <;> decide
  have hparameter (name : Char) (hne : '$' ≠ name) (value : Nat) : '$' ∉ parameter name value :=
    not_mem_parameter hne (by decide) (by decide) value
  have hlist : '$' ∉ parameterField h.cost := by
    simp only [parameterField_eq, List.mem_append, List.mem_cons, not_or]
    exact ⟨hparameter 'm' (by decide) _, by decide, hparameter 't' (by decide) _, by decide,
      hparameter 'p' (by decide) _⟩
  have hbytes (bs : List UInt8) : '$' ∉ Base64.encode bs := Base64.not_mem_encode (by decide) bs
  rw [toList_render]
  refine Text.splitOn_intercalate ?_ (by simp [fields])
  simp only [fields, List.forall_mem_cons]
  exact ⟨nofun, hname _, hparameter 'v' (by decide) _, hlist, hbytes _, hbytes _, nofun⟩

/-- The hash has no further data, and its parts have the sizes that the form allows. -/
structure Writable (h : PasswordHash) : Prop where
  cost : h.cost.Fits
  data : h.data = []
  salt : 3 ≤ h.salt.length ∧ h.salt.length ≤ 48
  digest : 10 ≤ h.digest.length ∧ h.digest.length ≤ 64

theorem takeVersion_parameter (v : Argon2.Version) (rest : List (List Char)) :
    takeVersion (parameter 'v' v.number :: rest) = some (v, rest) := by
  have hcomma : (decimal v.number).contains ',' = false := by
    simpa using not_mem_decimal (by decide) v.number
  have hsmall : v.number < UInt32.size := by cases v <;> decide
  simp only [parameter, takeVersion, hcomma, decimal?_decimal hsmall, Option.bind_some,
    Argon2.Version.ofNumber?_number, Option.map_some, Bool.false_eq_true, if_false]

theorem takeSettings_parameterField (hfits : cost.Fits) (rest : List (List Char)) :
    takeSettings (parameterField cost :: rest) = some (.ofCost cost, rest) := by
  have hequals : (parameterField cost).contains '=' = true := by
    simp [parameterField_eq, parameter]
  rw [takeSettings, if_pos hequals, parse?_parameterField hfits, Option.map_some]

theorem salt?_encode {salt : List UInt8} (h : 3 ≤ salt.length ∧ salt.length ≤ 48) :
    salt? (Base64.encode salt) = some salt := by
  have hlength := Base64.length_encode salt
  rw [salt?, if_pos (by omega), Base64.decode?_encode]

theorem digest?_encode {digest : List UInt8} (h : 10 ≤ digest.length ∧ digest.length ≤ 64) :
    digest? (Base64.encode digest) = some digest := by
  rw [digest?, Base64.decode?_encode, Option.filter_some, if_pos (by simpa using h)]

/-- A hash is read as it was written. -/
theorem parse?_render (hw : h.Writable) : parse? h.render = some h := by
  obtain ⟨variant, version, cost, data, salt, digest⟩ := h
  have hdata : data = [] := hw.data
  subst hdata
  rw [parse?, splitOn_render]
  simp only [fields, String.ofList_toList, Argon2.Variant.ofName?_name, takeVersion_parameter,
    takeSettings_parameterField hw.cost, salt?_encode hw.salt, digest?_encode hw.digest,
    Option.bind_eq_bind, Option.bind_some]
  rfl

end PasswordHash
end Turnstile
