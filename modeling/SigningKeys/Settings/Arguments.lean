import SigningKeys.Settings.Basic

/-!
# Settings on the command line

Options are written `--name value` or `--name=value`, and the one that names a document also
`-c value`, `-cvalue` or `-c=value`. Each may be given once, and there are no other arguments. A
value that begins with a hyphen must be attached, except for a hyphen alone. A value is looked at
when the next option or the end shows that it is complete. Settings that no option gives are taken
from the environment.
-/

namespace SigningKeys

/-- What is wrong with the arguments. -/
inductive ArgumentFault where
  /-- The argument is no option, or none that is known. -/
  | unknown
  /-- The option comes without a value. -/
  | missingValue
  /-- The option comes with a value and takes none. -/
  | surplusValue
  /-- The value does not suit the setting. -/
  | unsuitableValue
  /-- The option is given again. -/
  | repeated
  deriving DecidableEq

/-- Why the arguments give no settings. -/
inductive Halt where
  | help
  | version
  | fault (fault : ArgumentFault)
  deriving DecidableEq

/-- An option. -/
inductive OptionName where
  | setting (setting : Setting)
  | help
  | version
  deriving DecidableEq

namespace OptionName

/-- The option with a long name. -/
def ofLong? (name : List Char) : Option OptionName :=
  if name = "help".toList then some .help
  else if name = "version".toList then some .version
  else (Setting.all.find? (·.option == name)).map .setting

/-- The option with a short name. -/
def ofShort? (c : Char) : Option OptionName :=
  if c = 'c' then some (.setting .configFile)
  else if c = 'h' then some .help
  else if c = 'V' then some .version
  else none

end OptionName

/-- What an argument is by its form alone. -/
inductive Argument where
  /-- Two hyphens, a name, and perhaps an attached value. -/
  | long (name : List Char) (attached : Option String)
  /-- A hyphen, the first short name, and what follows it. -/
  | short (c : Char) (rest : List Char)
  /-- Two hyphens alone, after which there are no options. -/
  | divider
  | value (text : String)

/-- What an argument is. -/
def Argument.ofText (text : String) : Argument :=
  match text.toList with
  | ['-', '-'] => .divider
  | '-' :: '-' :: rest =>
      .long (rest.takeWhile (· != '='))
        (match rest.dropWhile (· != '=') with
          | _ :: attached => some (.ofList attached)
          | [] => none)
  | '-' :: c :: rest => .short c rest
  | _ => .value text

/-- The value that is attached to a short name. -/
def attachedToShort : List Char → Option String
  | [] => none
  | '=' :: attached => some (.ofList attached)
  | attached => some (.ofList attached)

namespace Settings

/-- How far the arguments are read: the settings so far and which of them were given, and an option
whose value is missing or not yet looked at. -/
structure Progress where
  settings : Settings
  given : List Setting
  pending : Option (Setting × Option String)

namespace Progress

/-- Gives a setting its value, once. -/
def give (progress : Progress) (setting : Setting) (text : String) : Except Halt Progress :=
  if setting ∈ progress.given then .error (.fault .repeated)
  else
    match progress.settings.assign? setting text with
    | some settings =>
        .ok { progress with settings := settings, given := setting :: progress.given }
    | none => .error (.fault .unsuitableValue)

/-- Gives the setting of the pending option its value. -/
def settle (progress : Progress) : Except Halt Progress :=
  match progress.pending with
  | none => .ok progress
  | some (_, none) => .error (.fault .missingValue)
  | some (setting, some text) => give { progress with pending := none } setting text

/-- Takes an option, whose value may be attached. -/
def takeOption (progress : Progress) (option : OptionName) (attached : Option String) :
    Except Halt Progress := do
  let progress ← progress.settle
  match option, attached with
  | .help, _ => .error .help
  | .version, _ => .error .version
  | .setting setting, some text => progress.give setting text
  | .setting setting, none => pure { progress with pending := some (setting, none) }

/-- Takes an argument that is not the divider. -/
def take (progress : Progress) : Argument → Except Halt Progress
  | .long name attached =>
      match OptionName.ofLong? name, attached with
      | none, _ => .error (.fault .unknown)
      | some (.setting setting), attached => progress.takeOption (.setting setting) attached
      | some _, some _ => .error (.fault .surplusValue)
      | some option, none => progress.takeOption option none
  | .short c rest =>
      match OptionName.ofShort? c with
      | none => .error (.fault .unknown)
      | some option => progress.takeOption option (attachedToShort rest)
  | .value text =>
      match progress.pending with
      | some (setting, none) => .ok { progress with pending := some (setting, some text) }
      | _ => .error (.fault .unknown)
  | .divider => .ok progress

end Progress

/-- Takes arguments one by one; there must be none after the divider. -/
def takeAll : List String → Progress → Except Halt Progress
  | [], progress => progress.settle
  | text :: rest, progress =>
      match Argument.ofText text, rest with
      | .divider, [] => progress.settle
      | .divider, _ => .error (.fault .unknown)
      | argument, rest => do
          let progress ← progress.take argument
          takeAll rest progress

/-- Gives a setting the value of its variable, if it has one and no option gives it. -/
def assignVariable (environment : String → Option String) (given : List Setting)
    (settings : Settings) (setting : Setting) : Except Halt Settings :=
  match if setting ∈ given then none else setting.environmentName?.bind environment with
  | none => .ok settings
  | some text =>
      match settings.assign? setting text with
      | some settings => .ok settings
      | none => .error (.fault .unsuitableValue)

/-- The values of settings that neither an option nor a variable gives. -/
def argumentDefaults : Settings where
  configFile := none
  logFilter := "cim_jwks=info,jwks=info"
  defaultAlgorithm := "EC"
  modulusBits := 2048
  rotationPeriod := 6 * 60 * 60
  recordFile := none

/-- They are the values that a document leaves. -/
theorem argumentDefaults_eq_default : argumentDefaults = default := rfl

/-- The settings that arguments and the environment give. -/
def ofArguments (arguments : List String) (environment : String → Option String) :
    Except Halt Settings := do
  let progress ← takeAll arguments ⟨argumentDefaults, [], none⟩
  Setting.all.foldlM (assignVariable environment progress.given) progress.settings

end Settings

end SigningKeys
