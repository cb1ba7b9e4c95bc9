import Turnstile.Json.Decoder
import Turnstile.Json.Value
import Turnstile.Record.RecordSet
import Turnstile.Time.Reader

/-! The stored form of records: pretty JSON, fields in a fixed order, moments in universal time.
Reading fills fields that are missing, skips fields that it does not know, and takes a version of
zero as the first. -/

namespace Turnstile

open Json (Value Decoder)

/-! ## Writing -/

namespace User

def toJson (u : User) : Value :=
  .obj [("id", .str u.id), ("username", .str u.username), ("password_hash", .str u.passwordHash),
    ("role", .str u.role.label), ("disabled", .bool u.disabled),
    ("created_at", .str u.createdAt.toUniversal)]

end User

namespace ApiKey

def toJson (k : ApiKey) : Value :=
  .obj [("id", .str k.id), ("key", .str k.credential), ("label", .str k.label),
    ("user_id", .str k.userId), ("enabled", .bool k.enabled),
    ("total_limit", .nat k.totalLimit.toNat), ("used_count", .nat k.usedCount.toNat),
    ("concurrency_limit", .nat k.concurrencyLimit.toNat),
    ("compatibility_mode", .bool k.compatibilityMode),
    ("created_at", .str k.createdAt.toUniversal)]

end ApiKey

namespace RecordSet

def toJson (r : RecordSet) : Value :=
  .obj [("version", .nat r.version.toNat), ("updated_at", .str r.updatedAt.toUniversal),
    ("users", .arr (r.users.map User.toJson)), ("api_keys", .arr (r.apiKeys.map ApiKey.toJson))]

def toText (r : RecordSet) : String := r.toJson.pretty

end RecordSet

/-! ## Reading -/

namespace User

structure Draft where
  id : Option String := none
  username : Option String := none
  passwordHash : Option String := none
  role : Option Role := none
  disabled : Option Bool := none
  createdAt : Option Moment := none

def fields : List (Decoder.Field Draft) :=
  [.of "id" Decoder.text (·.id) (fun d a => { d with id := some a }) true,
   .of "username" Decoder.text (·.username) (fun d a => { d with username := some a }) false,
   .of "password_hash" Decoder.text (·.passwordHash)
     (fun d a => { d with passwordHash := some a }) true,
   .of "role" (Decoder.constant Role.ofLabel?) (·.role) (fun d a => { d with role := some a }) true,
   .of "disabled" Decoder.bool (·.disabled) (fun d a => { d with disabled := some a }) true,
   .of "created_at" (Decoder.parsed Moment.read?) (·.createdAt)
     (fun d a => { d with createdAt := some a }) true]

/-- Only the name has to be there. -/
def Draft.finish (d : Draft) : Option User :=
  d.username.map fun username =>
    { id := d.id.getD "", username, passwordHash := d.passwordHash.getD "",
      role := d.role.getD .user, disabled := d.disabled.getD false,
      createdAt := d.createdAt.getD .epoch }

def decoder : Decoder User := Decoder.record fields {} Draft.finish

end User

namespace ApiKey

structure Draft where
  id : Option String := none
  credential : Option String := none
  label : Option String := none
  userId : Option String := none
  enabled : Option Bool := none
  totalLimit : Option UInt64 := none
  usedCount : Option UInt64 := none
  concurrencyLimit : Option UInt32 := none
  compatibilityMode : Option Bool := none
  createdAt : Option Moment := none

def fields : List (Decoder.Field Draft) :=
  [.of "id" Decoder.text (·.id) (fun d a => { d with id := some a }) true,
   .of "key" Decoder.text (·.credential) (fun d a => { d with credential := some a }) false,
   .of "label" Decoder.text (·.label) (fun d a => { d with label := some a }) true,
   .of "user_id" Decoder.text (·.userId) (fun d a => { d with userId := some a }) true,
   .of "enabled" Decoder.bool (·.enabled) (fun d a => { d with enabled := some a }) true,
   .of "total_limit" Decoder.count64 (·.totalLimit)
     (fun d a => { d with totalLimit := some a }) true,
   .of "used_count" Decoder.count64 (·.usedCount) (fun d a => { d with usedCount := some a }) true,
   .of "concurrency_limit" Decoder.count32 (·.concurrencyLimit)
     (fun d a => { d with concurrencyLimit := some a }) true,
   .of "compatibility_mode" Decoder.bool (·.compatibilityMode)
     (fun d a => { d with compatibilityMode := some a }) true,
   .of "created_at" (Decoder.parsed Moment.read?) (·.createdAt)
     (fun d a => { d with createdAt := some a }) true]

/-- Only the credential has to be there. -/
def Draft.finish (d : Draft) : Option ApiKey :=
  d.credential.map fun credential =>
    { id := d.id.getD "", credential, label := d.label.getD "", userId := d.userId.getD "",
      enabled := d.enabled.getD false, totalLimit := d.totalLimit.getD 0,
      usedCount := d.usedCount.getD 0, concurrencyLimit := d.concurrencyLimit.getD 0,
      compatibilityMode := d.compatibilityMode.getD false,
      createdAt := d.createdAt.getD .epoch }

def decoder : Decoder ApiKey := Decoder.record fields {} Draft.finish

end ApiKey

namespace RecordSet

structure Draft where
  version : Option UInt32 := none
  updatedAt : Option Moment := none
  users : Option (List User) := none
  apiKeys : Option (List ApiKey) := none

def fields : List (Decoder.Field Draft) :=
  [.of "version" Decoder.count32 (·.version) (fun d a => { d with version := some a }) true,
   .of "updated_at" (Decoder.parsed Moment.read?) (·.updatedAt)
     (fun d a => { d with updatedAt := some a }) true,
   .of "users" (Decoder.list User.decoder) (·.users) (fun d a => { d with users := some a }) true,
   .of "api_keys" (Decoder.list ApiKey.decoder) (·.apiKeys)
     (fun d a => { d with apiKeys := some a }) true]

/-- Every field may be missing; the moment is then that of the reading. -/
def Draft.finish (now : Moment) (d : Draft) : Option RecordSet :=
  let version := d.version.getD 0
  some { version := if version = 0 then currentVersion else version,
         updatedAt := d.updatedAt.getD now, users := d.users.getD [], apiKeys := d.apiKeys.getD [] }

def decoder (now : Moment) : Decoder RecordSet := Decoder.record fields {} (Draft.finish now)

def read? (now : Moment) (bytes : List UInt8) : Option RecordSet :=
  ((decoder now).run bytes).toOption

end RecordSet

end Turnstile
