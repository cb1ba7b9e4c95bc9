import Turnstile.Proofs.Password.Digest
import Turnstile.Proofs.Password.Phc
import Turnstile.Proofs.Text.Blank

/-! A change of the hashing cost. A hash holds the cost that it was made at, and checking a password
asks the hash for it, so what was hashed at one cost is accepted at every other one. Blanks around
the password make no difference, and a blank password has no hash at any cost. -/

namespace Turnstile

namespace Argon2

/-- A cost as it is configured, in words of 32 bits. -/
def Cost.ofWords (memory passes lanes : UInt32) : Cost :=
  ⟨memory.toNat, passes.toNat, lanes.toNat⟩

theorem Cost.fits_ofWords (memory passes lanes : UInt32) : (ofWords memory passes lanes).Fits :=
  ⟨memory.toNat_lt, passes.toNat_lt, lanes.toNat_lt⟩

/-- A salt. Its text has from four to sixty-four digits. -/
structure Salt where
  bytes : List UInt8
  size : 3 ≤ bytes.length ∧ bytes.length ≤ 48

end Argon2

namespace PasswordHash

variable {cost : Argon2.Cost} {salt : List UInt8} {password given : String}

theorem length_digestOf (h : PasswordHash) {size : Nat} (hsize : size ≤ 64) (password : String) :
    (h.digestOf size password).length = size := by
  rw [digestOf, Argon2.length_tag hsize]

/-- A new hash without its digest. -/
def bare (cost : Argon2.Cost) (salt : List UInt8) : PasswordHash :=
  ⟨.id, .late, cost, [], salt, []⟩

/-- The hash that is made of a password. -/
def made (cost : Argon2.Cost) (salt : List UInt8) (password : String) : PasswordHash :=
  { bare cost salt with digest := (bare cost salt).digestOf Argon2.digestBytes password }

theorem length_digest_made (cost : Argon2.Cost) (salt : List UInt8) (password : String) :
    (made cost salt password).digest.length = Argon2.digestBytes := by
  rw [made, length_digestOf (bare cost salt) (by decide)]

theorem writable_made (hfits : cost.Fits) (hsalt : 3 ≤ salt.length ∧ salt.length ≤ 48)
    (password : String) : (made cost salt password).Writable where
  cost := hfits
  data := rfl
  salt := hsalt
  digest := by
    rw [length_digest_made]
    decide

theorem usable_bare_iff (hcost : cost.check = .ok ()) :
    (bare cost salt).usable = true ↔ Argon2.saltBound ≤ salt.length := by
  rw [usable, bare, hcost, Except.toOption, Option.isSome_some, Bool.true_and]
  exact decide_eq_true_iff

/-- The blanks around a password do not go into its hash. -/
theorem made_congr (cost : Argon2.Cost) (salt : List UInt8)
    (hgiven : Text.trim given = Text.trim password) :
    made cost salt given = made cost salt password := by
  rw [made, made, digestOf, digestOf, hgiven]

/-- A hash accepts the passwords that have the same hash at its own cost and with its own salt. -/
theorem accepts_made_iff (husable : (bare cost salt).usable = true) (password given : String) :
    (made cost salt password).accepts given = true ↔
      made cost salt given = made cost salt password := by
  have hsame : (made cost salt password).usable = (bare cost salt).usable := rfl
  have hdigest : (made cost salt password).digestOf Argon2.digestBytes given =
      (made cost salt given).digest := rfl
  rw [accepts, hsame, husable, length_digest_made, hdigest, Bool.true_and, beq_iff_eq]
  constructor
  · intro hequal
    rw [made, made] at hequal ⊢
    exact congrArg (fun digest => { bare cost salt with digest }) hequal
  · exact congrArg PasswordHash.digest

end PasswordHash

namespace Hasher

open PasswordHash (bare made)

variable {cost : Argon2.Cost} {salt : List UInt8} {password text : String} {hasher hasher' : Hasher}
  {memory passes lanes memory' passes' lanes' : UInt32}

theorem of_argon2 (h : argon2 cost = .ok hasher) :
    cost.check = .ok () ∧ hasher.hash = argon2Hash cost ∧ hasher.verify = argon2Verify := by
  unfold argon2 at h
  split at h
  · rename_i hcheck
    rw [← Except.ok.inj h]
    -- a plain `rfl` would unfold the hash function instead of the structure
    exact ⟨hcheck, by dsimp only, by dsimp only⟩
  · cases h

theorem argon2Hash_of_blank (h : Text.blank password = true) :
    argon2Hash cost salt password = .error (.validation "Password cannot be empty") := by
  have hempty : Text.trim password = "" := Text.trim_of_blank h
  simp only [argon2Hash, checkPassword, hempty]
  rfl

theorem argon2Hash_eq_ok_iff (hcost : cost.check = .ok ()) (h : Text.blank password = false) :
    argon2Hash cost salt password = .ok text ↔
      Argon2.saltBound ≤ salt.length ∧ text = (made cost salt password).render := by
  have hempty : (Text.trim password).isEmpty = false := (Text.isEmpty_trim password).trans h
  have husable : (bare cost salt).usable = true ↔ Argon2.saltBound ≤ salt.length :=
    PasswordHash.usable_bare_iff hcost
  simp only [argon2Hash, checkPassword, hempty, Bool.false_eq_true, if_false]
  split
  · rename_i hroom
    rw [Except.ok.injEq, eq_comm]
    exact (and_iff_right (husable.mp hroom)).symm
  · rename_i hshort
    simp only [reduceCtorEq, false_iff, not_and]
    exact fun hroom => absurd (husable.mpr hroom) hshort

/-- What is hashed at one cost is accepted at every other one. -/
theorem verify_hash_across_costs (ha : argon2 (.ofWords memory passes lanes) = .ok hasher)
    (hb : argon2 (.ofWords memory' passes' lanes') = .ok hasher') :
    (∀ password salt, Text.blank password = true →
      hasher.hash salt password = .error (.validation "Password cannot be empty")) ∧
    ∀ (password : String) (salt : Argon2.Salt), Text.blank password = false →
      ((∃ text, hasher.hash salt.bytes password = .ok text) ↔
        Argon2.saltBound ≤ salt.bytes.length) ∧
      ∀ text, hasher.hash salt.bytes password = .ok text →
        PasswordHash.parse? text =
          some (made (.ofWords memory passes lanes) salt.bytes password) ∧
        (∀ given, hasher'.verify given text = true ↔
          made (.ofWords memory passes lanes) salt.bytes given =
            made (.ofWords memory passes lanes) salt.bytes password) ∧
        ∀ given, Text.trim given = Text.trim password → hasher'.verify given text = true := by
  obtain ⟨hcost, hhash, -⟩ := of_argon2 ha
  obtain ⟨-, -, hverify⟩ := of_argon2 hb
  rw [hhash, hverify]
  refine ⟨fun password salt => argon2Hash_of_blank, ?_⟩
  intro password salt hfilled
  refine ⟨?_, ?_⟩
  · simp only [argon2Hash_eq_ok_iff hcost hfilled, exists_and_left, exists_eq, and_true]
  · intro text htext
    obtain ⟨hroom, rfl⟩ := (argon2Hash_eq_ok_iff hcost hfilled).mp htext
    have hread := PasswordHash.parse?_render (PasswordHash.writable_made
      (Argon2.Cost.fits_ofWords memory passes lanes) salt.size password)
    have hverdict := PasswordHash.accepts_made_iff ((PasswordHash.usable_bare_iff hcost).mpr hroom)
      password
    refine ⟨hread, ?_⟩
    simp only [argon2Verify, hread, Option.any_some]
    exact ⟨hverdict, fun given hgiven => (hverdict given).mpr (PasswordHash.made_congr _ _ hgiven)⟩

def cheap : Hasher := ⟨argon2Hash (.ofWords 8 1 1), argon2Verify⟩

def dear : Hasher := ⟨argon2Hash (.ofWords 19456 2 1), argon2Verify⟩

def sevens : Argon2.Salt := ⟨List.replicate 16 7, by decide⟩

/-- The cost is raised after a password was hashed. -/
theorem verify_hash_across_costs_raised :
    argon2 (.ofWords 8 1 1) = .ok cheap ∧ argon2 (.ofWords 19456 2 1) = .ok dear ∧
      cheap.hash sevens.bytes " \t" = .error (.validation "Password cannot be empty") ∧
      ∃ text, cheap.hash sevens.bytes "word " = .ok text ∧
        PasswordHash.parse? text = some (made (.ofWords 8 1 1) sevens.bytes "word ") ∧
        dear.verify " word" text = true := by
  have hcheap : argon2 (.ofWords 8 1 1) = .ok cheap := by
    have hcheck : (Argon2.Cost.ofWords 8 1 1).check = .ok () := by decide
    simp only [argon2, hcheck, cheap]
  have hdear : argon2 (.ofWords 19456 2 1) = .ok dear := by
    have hcheck : (Argon2.Cost.ofWords 19456 2 1).check = .ok () := by decide
    simp only [argon2, hcheck, dear]
  obtain ⟨hblank, hfilled⟩ := verify_hash_across_costs hcheap hdear
  obtain ⟨hmade, hread⟩ := hfilled "word " sevens (by decide)
  obtain ⟨text, htext⟩ := hmade.mpr (by decide)
  obtain ⟨hform, -, haccepted⟩ := hread text htext
  exact ⟨hcheap, hdear, hblank _ _ (by decide), text, htext, hform, haccepted _ (by decide)⟩

end Hasher
end Turnstile
