import SigningKeys.Algorithm

/-!
# Errors

What can go wrong with a key, a record or a configuration. An error is a cause; its wording is in
`Error.message` and its number in `Error.code`. Two errors count as equal when their codes agree
(`Error.sameCode`), whatever they say.
-/

namespace SigningKeys

/-- The stage at which a key text stops being a key. -/
inductive KeyPart where
  /-- The text is not base64. -/
  | text
  /-- The text opens like an armoured key and is none. -/
  | armour
  /-- The bytes are not laid out as a key. -/
  | layout
  /-- The numbers or the point are those of no key. -/
  | numbers
  deriving DecidableEq

/-- Why a key text or a key is not acceptable. -/
inductive KeyFault where
  | emptyText
  | notAPair
  | foreignExponent
  | identityPoint
  | malformed (part : KeyPart)
  | described (reason : String)
  deriving DecidableEq

/-- The wording of a key fault. -/
def KeyFault.message : KeyFault → String
  | .emptyText => "empty key"
  | .notAPair => "public and private key are not a pair"
  | .foreignExponent => "public exponent must be 65537"
  | .identityPoint => "public key is the identity point"
  | .malformed .text => "not base64 text"
  | .malformed .armour => "not an armoured key"
  | .malformed .layout => "not the structure of a key"
  | .malformed .numbers => "not the numbers of a key"
  | .described reason => reason

/-- Why a configuration, or a time computed under it, is not acceptable. -/
inductive SettingFault where
  | noDefaultGenerator
  | severalDefaultGenerators (marked : List Algorithm)
  | generatorRegisteredTwice (algorithm : Algorithm)
  | modulusSize (bits : Nat)
  | rotationPeriod (seconds : Int)
  | rotationTime (keyId : String)
  | described (text : String)
  deriving DecidableEq

/-- The smallest modulus, in bits, that a signing key is generated with. -/
def minModulusBits : Nat := 2048

/-- The largest modulus, in bits, that a signing key is generated with or a public key is read
with. -/
def maxModulusBits : Nat := 4096

/-- The longest rotation period: one hundred years of 365 days, in seconds. -/
def maxRotationPeriod : Nat := 100 * 365 * 24 * 60 * 60

/-- The wording of a setting fault. -/
def SettingFault.message : SettingFault → String
  | .noDefaultGenerator => "no key pair generator marked default"
  | .severalDefaultGenerators marked =>
      "more than one key pair generator marked default: [" ++
        ", ".intercalate (marked.map Algorithm.label) ++ "]"
  | .generatorRegisteredTwice algorithm =>
      "key pair generator for " ++ algorithm.tag ++ " registered twice"
  | .modulusSize bits =>
      "rsa modulus of " ++ toString bits ++ " bits not in range " ++ toString minModulusBits ++
        "-" ++ toString maxModulusBits
  | .rotationPeriod seconds =>
      "rotation frequency of " ++ toString seconds ++ " seconds not in range 1-" ++
        toString maxRotationPeriod
  | .rotationTime keyId => "next rotation of key " ++ keyId ++ " is out of range"
  | .described text => text

/-- A failure that belongs to none of the named kinds. -/
inductive GeneralFault where
  | severalActiveKeys
  | primesShareFactor
  | publicLengthOverflow
  | privateLengthOverflow
  | described (text : String)
  deriving DecidableEq

/-- The wording of a general fault. -/
def GeneralFault.message : GeneralFault → String
  | .severalActiveKeys => "more than one active signing key"
  | .primesShareFactor => "PKCS#8 cryptographic key data malformed"
  | .publicLengthOverflow => "ASN.1 error: integer overflow"
  | .privateLengthOverflow => "PKCS#8 ASN.1 error: integer overflow"
  | .described text => text

/-- An error. Algorithms are carried as the texts that name them, since an error may also name an
algorithm that no key here has. -/
inductive Error where
  | general (fault : GeneralFault)
  | generationUnavailable (algorithm reason : String)
  | invalidKey (algorithm : String) (fault : KeyFault)
  | unsupportedAlgorithm (tag : String)
  | typeMismatch (expected actual : String)
  | configuration (fault : SettingFault)
  deriving DecidableEq

namespace Error

/-- The number of the kind of error. -/
def code : Error → String
  | .general _ => "1020001"
  | .generationUnavailable .. => "1020002"
  | .invalidKey .. => "1020003"
  | .unsupportedAlgorithm _ => "1020004"
  | .typeMismatch .. => "1020005"
  | .configuration _ => "1020006"

/-- The wording of an error. -/
def message : Error → String
  | .general fault => fault.message
  | .generationUnavailable algorithm reason =>
      "Key generation unavailable for " ++ algorithm ++ ". " ++ reason
  | .invalidKey algorithm fault => "Invalid " ++ algorithm ++ " key encoding. " ++ fault.message
  | .unsupportedAlgorithm tag => "Unsupported key algorithm " ++ tag
  | .typeMismatch expected actual =>
      "Key type mismatch, expected " ++ expected ++ " but got " ++ actual
  | .configuration fault => "Invalid configuration. " ++ fault.message

/-- Errors are told apart by their codes alone. -/
def sameCode (left right : Error) : Bool := left.code == right.code

/-- What a report of the error lists: the error, then the cause that it carries, which words it
the same way. -/
def causes (error : Error) : List String := [error.message, error.message]

/-- The error of a key of the given kind that is not acceptable. -/
def ofKey (algorithm : Algorithm) (fault : KeyFault) : Error := .invalidKey algorithm.tag fault

end Error

/-- The kind of key that a tag names, or the error that names the tag as it was written. -/
def Algorithm.ofTag (text : String) : Except Error Algorithm :=
  match Algorithm.ofTag? text with
  | some algorithm => .ok algorithm
  | none => .error (.unsupportedAlgorithm text)

end SigningKeys
