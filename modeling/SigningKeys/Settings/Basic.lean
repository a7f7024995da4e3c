import SigningKeys.Number.Word
import SigningKeys.Text.Decimal

/-!
# Settings

What a run can be told: in a document, by arguments, or by variables of the environment. Each
setting has one name, from which those of its option and its variable are made.
-/

namespace SigningKeys

/-- A setting. -/
inductive Setting where
  | configFile
  | logFilter
  | defaultAlgorithm
  | modulusBits
  | rotationPeriod
  | recordFile
  deriving DecidableEq

namespace Setting

/-- Every setting. -/
def all : List Setting :=
  [.configFile, .logFilter, .defaultAlgorithm, .modulusBits, .rotationPeriod, .recordFile]

/-- The name of a setting in documents. -/
def name : Setting → String
  | .configFile => "config"
  | .logFilter => "rust_log"
  | .defaultAlgorithm => "default_algorithm"
  | .modulusBits => "rsa_bits"
  | .rotationPeriod => "rotation_frequency"
  | .recordFile => "record_out"

/-- The name of the option for a setting, with hyphens in place of underscores. -/
def option (setting : Setting) : List Char :=
  setting.name.toList.map fun c ↦ if c = '_' then '-' else c

/-- The variable for a setting, in capital letters; no variable names a document. -/
def environmentName? (setting : Setting) : Option String :=
  if setting = .configFile then none
  else some (.ofList (setting.name.toList.map Char.toUpper))

end Setting

/-- The values of the settings. -/
structure Settings where
  configFile : Option String
  logFilter : String
  defaultAlgorithm : String
  modulusBits : Nat
  rotationPeriod : Int
  recordFile : Option String
  deriving DecidableEq

namespace Settings

/-- The values of settings that are not given, as a document leaves them. -/
def default : Settings where
  configFile := none
  logFilter := "cim_jwks=info,jwks=info"
  defaultAlgorithm := "EC"
  modulusBits := 2048
  rotationPeriod := 6 * 60 * 60
  recordFile := none

/-- Gives a number of bits, which must fit into 64 bits. -/
def withModulusBits? (settings : Settings) (bits : Nat) : Option Settings :=
  if Word.isUnsigned bits then some { settings with modulusBits := bits } else none

/-- Gives a rotation period, which must fit into 64 bits. -/
def withRotationPeriod? (settings : Settings) (seconds : Int) : Option Settings :=
  if Word.isSigned seconds then some { settings with rotationPeriod := seconds } else none

/-- Gives a setting the value that a text is; numbers are decimal. -/
def assign? (settings : Settings) (setting : Setting) (text : String) : Option Settings :=
  match setting with
  | .configFile => some { settings with configFile := some text }
  | .logFilter => some { settings with logFilter := text }
  | .defaultAlgorithm => some { settings with defaultAlgorithm := text }
  | .modulusBits => (Decimal.natOfText? text.toList).bind settings.withModulusBits?
  | .rotationPeriod => (Decimal.intOfText? text.toList).bind settings.withRotationPeriod?
  | .recordFile => some { settings with recordFile := some text }

end Settings

end SigningKeys
