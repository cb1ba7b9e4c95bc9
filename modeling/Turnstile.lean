import Turnstile.Access.Extraction
import Turnstile.Access.Grant
import Turnstile.Access.Source
import Turnstile.Command.Grammar
import Turnstile.Command.Line
import Turnstile.Command.Run
import Turnstile.Command.Wording
import Turnstile.Files.Path
import Turnstile.Files.Replace
import Turnstile.Files.Tree
import Turnstile.Http.MediaType
import Turnstile.Http.Message
import Turnstile.Http.Problem
import Turnstile.Http.Query
import Turnstile.Http.Uri
import Turnstile.Json.Decoder
import Turnstile.Json.Number
import Turnstile.Json.Token
import Turnstile.Json.Tree
import Turnstile.Json.Value
import Turnstile.Main
import Turnstile.Password.Argon2
import Turnstile.Password.Argon2Hasher
import Turnstile.Password.Blake2b
import Turnstile.Password.Hasher
import Turnstile.Password.Phc
import Turnstile.Password.Row
import Turnstile.Proofs.Admission.Ceiling
import Turnstile.Proofs.Admission.Leak
import Turnstile.Proofs.Admission.Ownership
import Turnstile.Proofs.Admission.Traffic
import Turnstile.Proofs.Gate.Gateway
import Turnstile.Proofs.Gate.Usage
import Turnstile.Proofs.Run
import Turnstile.Proofs.Store.InFlight
import Turnstile.Proofs.Store.Keys
import Turnstile.Proofs.Store.Operation
import Turnstile.Proofs.Store.Usage
import Turnstile.Record.ApiKey
import Turnstile.Record.Format
import Turnstile.Record.Identity
import Turnstile.Record.RecordSet
import Turnstile.Record.Rule
import Turnstile.Record.User
import Turnstile.Service.Access
import Turnstile.Service.Admin
import Turnstile.Service.Caller
import Turnstile.Service.Gate
import Turnstile.Service.Health
import Turnstile.Service.JsonBody
import Turnstile.Service.Log
import Turnstile.Service.Portal
import Turnstile.Service.Router
import Turnstile.Service.View
import Turnstile.Service.World
import Turnstile.Settings.Binary64
import Turnstile.Settings.Config
import Turnstile.Settings.Host
import Turnstile.Settings.Layers
import Turnstile.Settings.Source
import Turnstile.Settings.Toml.Document
import Turnstile.Settings.Toml.Scalar
import Turnstile.Settings.Value
import Turnstile.Store.Admission
import Turnstile.Store.Basic
import Turnstile.Store.Error
import Turnstile.Store.File
import Turnstile.Store.InFlight
import Turnstile.Store.Keys
import Turnstile.Store.Login
import Turnstile.Store.Users
import Turnstile.Text.Base64
import Turnstile.Text.Blank
import Turnstile.Text.Case
import Turnstile.Text.Case.Table
import Turnstile.Text.Decimal
import Turnstile.Text.Percent
import Turnstile.Text.Split
import Turnstile.Text.Utf8
import Turnstile.Time.Date
import Turnstile.Time.Epoch
import Turnstile.Time.Moment
import Turnstile.Time.Reader
import Turnstile.Time.Timestamp
import Turnstile.Proofs.Admission.Quota
import Turnstile.Proofs.Store.Soundness
import Turnstile.Proofs.Files.Path
import Turnstile.Proofs.Files.Descent
import Turnstile.Proofs.Files.Replacement
import Turnstile.Proofs.Files.Target
import Turnstile.Proofs.Json.Scalar
import Turnstile.Proofs.Json.Spelling
import Turnstile.Proofs.Json.Decoding
import Turnstile.Proofs.Time.RoundTrip
import Turnstile.Proofs.Record.RoundTrip
import Turnstile.Proofs.Store.Saving
import Turnstile.Proofs.Store.Failure
import Turnstile.Proofs.Store.Credential
import Turnstile.Proofs.Access.Extraction
import Turnstile.Proofs.Access.Check
import Turnstile.Proofs.Service.Plan
import Turnstile.Proofs.Service.Handler
import Turnstile.Proofs.Service.Action
import Turnstile.Proofs.Service.Route
import Turnstile.Proofs.Service.Authorization
import Turnstile.Proofs.Service.Course
import Turnstile.Proofs.Service.Workplace
import Turnstile.Proofs.Service.Upkeep
import Turnstile.Proofs.Service.Durability
import Turnstile.Proofs.Service.Alone
import Turnstile.Proofs.Store.Holder
import Turnstile.Proofs.Gate.Admittance
import Turnstile.Proofs.Service.Redaction
import Turnstile.Proofs.Files.Outline
import Turnstile.Proofs.Store.Hashes
import Turnstile.Proofs.Service.Secrecy
import Turnstile.Proofs.Service.Refusal
import Turnstile.Proofs.Store.Lane
import Turnstile.Proofs.Admission.Isolation
import Turnstile.Proofs.Store.Users
import Turnstile.Proofs.Service.Portal
import Turnstile.Proofs.Store.Contents
import Turnstile.Proofs.Command.Addition
import Turnstile.Proofs.Text.Case
import Turnstile.Proofs.Store.Account
import Turnstile.Proofs.Service.Kept
import Turnstile.Proofs.Service.Membership
import Turnstile.Proofs.Service.Enrolment
import Turnstile.Proofs.Service.Presentation
import Turnstile.Proofs.Store.Retrieval
import Turnstile.Proofs.Store.Naming
import Turnstile.Proofs.Service.KeyPaths
import Turnstile.Proofs.Store.Writers
import Turnstile.Proofs.Service.Patching
import Turnstile.Proofs.Text.Split
import Turnstile.Proofs.Access.Precedence
import Turnstile.Proofs.Access.Padding
import Turnstile.Proofs.Record.Rule
import Turnstile.Proofs.Service.Rekeying
import Turnstile.Proofs.Store.Login
import Turnstile.Proofs.Text.Base64
import Turnstile.Proofs.Password.Digest
import Turnstile.Proofs.Password.Phc
import Turnstile.Proofs.Password.CostChange
import Turnstile.Proofs.Admission.Forecast
import Turnstile.Proofs.Service.UsageReport
import Turnstile.Proofs.Settings.DataFile
import Turnstile.Proofs.Settings.Overlay
import Turnstile.Proofs.Settings.Layering
import Turnstile.Proofs.Settings.Guess
import Turnstile.Proofs.Settings.Insertion
import Turnstile.Proofs.Settings.TextFile
import Turnstile.Proofs.Settings.TextSetting
import Turnstile.Proofs.Store.Username
import Turnstile.Proofs.Command.Owner
import Turnstile.Proofs.Store.Resolution
