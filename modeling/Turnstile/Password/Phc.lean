import Turnstile.Password.Argon2
import Turnstile.Text.Base64
import Turnstile.Text.Decimal
import Turnstile.Text.Split

/-! The written form of a password hash: variant, version, cost, salt and digest between dollar
signs. A version that is left out is the late one, and a cost that is left out has a default. -/

namespace Turnstile

/-- A password hash and all that is needed to make it again. -/
structure PasswordHash where
  variant : Argon2.Variant
  version : Argon2.Version
  cost : Argon2.Cost
  data : List UInt8
  salt : List UInt8
  digest : List UInt8
deriving DecidableEq

namespace Argon2.Cost

/-- The cost when none is set. -/
def default : Cost := ⟨19456, 2, 1⟩

end Argon2.Cost

namespace PasswordHash

/-! ## Writing -/

def decimal (n : Nat) : List Char := Nat.toDigits 10 n

/-- Without further data, which new hashes do not have. -/
def render (h : PasswordHash) : String :=
  "$" ++ h.variant.name ++ "$v=" ++ String.ofList (decimal h.version.number) ++
    "$m=" ++ String.ofList (decimal h.cost.memory) ++
    ",t=" ++ String.ofList (decimal h.cost.passes) ++
    ",p=" ++ String.ofList (decimal h.cost.lanes) ++
    "$" ++ String.ofList (Base64.encode h.salt) ++ "$" ++ String.ofList (Base64.encode h.digest)

/-! ## Reading -/

/-- Digits without a leading zero, below `2 ^ 32`. -/
def decimal? (cs : List Char) : Option Nat :=
  if cs.head? == some '0' && 1 < cs.length then none
  else (Decimal.natural? cs).filter (· < UInt32.size)

/-- What a parameter list can set. -/
structure Settings where
  memory : Option Nat := none
  passes : Option Nat := none
  lanes : Option Nat := none
  keyId : Option (List UInt8) := none
  data : Option (List UInt8) := none

namespace Settings

/-- Bytes in base64, at most so many. -/
def bytes? (most : Nat) (cs : List Char) : Option (List UInt8) :=
  (Base64.decode? cs).filter (·.length ≤ most)

/-- One parameter; none may be given twice. -/
def set (s : Settings) (pair : List Char) : Option Settings :=
  match Text.splitOn '=' pair with
  | [name, value] =>
    match String.ofList name with
    | "m" => if s.memory.isSome then none else (decimal? value).map ({ s with memory := some · })
    | "t" => if s.passes.isSome then none else (decimal? value).map ({ s with passes := some · })
    | "p" => if s.lanes.isSome then none else (decimal? value).map ({ s with lanes := some · })
    | "keyid" => if s.keyId.isSome then none else (bytes? 8 value).map ({ s with keyId := some · })
    | "data" => if s.data.isSome then none else (bytes? 32 value).map ({ s with data := some · })
    | _ => none
  | _ => none

def bound : Nat := 127

def parse? (field : List Char) : Option Settings :=
  if bound < field.length then none else (Text.splitOn ',' field).foldlM set {}

def cost (s : Settings) : Argon2.Cost :=
  ⟨s.memory.getD Argon2.Cost.default.memory, s.passes.getD Argon2.Cost.default.passes,
    s.lanes.getD Argon2.Cost.default.lanes⟩

end Settings

/-- A version field comes first, if there is one. -/
def takeVersion (fields : List (List Char)) : Option (Argon2.Version × List (List Char)) :=
  match fields with
  | ('v' :: '=' :: value) :: rest =>
    if value.contains ',' then some (.late, fields)
    else ((decimal? value).bind Argon2.Version.ofNumber?).map (·, rest)
  | _ => some (.late, fields)

/-- A parameter field has an equals sign. -/
def takeSettings (fields : List (List Char)) : Option (Settings × List (List Char)) :=
  match fields with
  | field :: rest =>
    if field.contains '=' then (Settings.parse? field).map (·, rest) else some ({}, fields)
  | [] => some ({}, [])

/-- The texts of salts have four to sixty-four digits. -/
def salt? (cs : List Char) : Option (List UInt8) :=
  if 4 ≤ cs.length ∧ cs.length ≤ 64 then Base64.decode? cs else none

/-- Digests have ten to sixty-four bytes. -/
def digest? (cs : List Char) : Option (List UInt8) :=
  (Base64.decode? cs).filter fun bs => 10 ≤ bs.length ∧ bs.length ≤ 64

def parse? (s : String) : Option PasswordHash :=
  match Text.splitOn '$' s.toList with
  | [] :: variant :: fields => do
    let variant ← Argon2.Variant.ofName? (String.ofList variant)
    let (version, fields) ← takeVersion fields
    let (settings, fields) ← takeSettings fields
    match fields with
    | [salt, digest] =>
      return ⟨variant, version, settings.cost, settings.data.getD [], ← salt? salt,
        ← digest? digest⟩
    | _ => none
  | _ => none

end PasswordHash

end Turnstile
