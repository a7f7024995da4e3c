import SigningKeys.Main
import SigningKeys.Proofs.Rotation.History
import SigningKeys.Proofs.Rotation.Staleness
import SigningKeys.Proofs.Base64
import SigningKeys.Proofs.Number.BigEndian
import SigningKeys.Proofs.Der
import SigningKeys.Proofs.Key.PublicText
import SigningKeys.Proofs.Record.Publication
import SigningKeys.Proofs.Rotation.KeySet
import SigningKeys.Proofs.Number.Modular
import SigningKeys.Proofs.Key.PrivateText
import SigningKeys.Proofs.Jwk.Build
import SigningKeys.Proofs.Rsa.Key
import SigningKeys.Proofs.Pem
import SigningKeys.Proofs.Key.Length
import SigningKeys.Proofs.Key.Canonical
import SigningKeys.Proofs.Record.Disclosure
import SigningKeys.Proofs.Record.ReadBack
import SigningKeys.Proofs.Time.Instant
import SigningKeys.Proofs.Rotation.Course
import SigningKeys.Proofs.Rotation.Renewal
import SigningKeys.Proofs.Rotation.Failure
import SigningKeys.Proofs.Rotation.Period
import SigningKeys.Proofs.Key.Armour
import SigningKeys.Proofs.Record.PublicPart
import SigningKeys.Proofs.Jwk.Soundness
import SigningKeys.Proofs.Text.Decimal
import SigningKeys.Proofs.Time.Calendar
import SigningKeys.Proofs.Time.Text
import SigningKeys.Proofs.Json.Reading
import SigningKeys.Proofs.Json.Order
import SigningKeys.Proofs.Record.Storage
import SigningKeys.Proofs.Run
import SigningKeys.Proofs.Json.Token
import SigningKeys.Proofs.Settings.Assembly
import SigningKeys.Proofs.Rsa.Arithmetic
import SigningKeys.Proofs.Key.Detection
import SigningKeys.Proofs.Jwk.Refusal
import SigningKeys.Proofs.Key.Alteration
import SigningKeys.Proofs.Jwk.Reading
import SigningKeys.Proofs.Jwk.Distinct
import SigningKeys.Proofs.Jwk.Set
import SigningKeys.Proofs.Registry
import SigningKeys.Proofs.Toml.Text
import SigningKeys.Proofs.Toml.Token
import SigningKeys.Proofs.Toml.Document
import SigningKeys.Proofs.Settings.Sources
import SigningKeys.Proofs.Settings.ConfigFile
import SigningKeys.Proofs.Jwk.Coefficient
import SigningKeys.Proofs.Time.Addition
import SigningKeys.Proofs.Rotation.Timing
