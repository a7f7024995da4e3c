import SigningKeys.Run

/-!
# What the program says

The texts for those who call the program: how it is called, its version, and reports of failures.
-/

namespace SigningKeys

/-- The name and the version of the program. -/
def versionText : String := "jwks 0.1.0"

/-- How the program is called. Not every option has a description. -/
def usageText : String :=
  "Usage: jwks [OPTIONS]\n\n" ++
  "Options:\n" ++
  "  -c, --config <CONFIG>\n" ++
  "      --rust-log <RUST_LOG>\n" ++
  "          [env: RUST_LOG=] [default: cim_jwks=info,jwks=info]\n" ++
  "      --default-algorithm <DEFAULT_ALGORITHM>\n" ++
  "          Key algorithm new signing keys are generated with, EC or RSA\n" ++
  "          [env: DEFAULT_ALGORITHM=] [default: EC]\n" ++
  "      --rsa-bits <RSA_BITS>\n" ++
  "          [env: RSA_BITS=] [default: 2048]\n" ++
  "      --rotation-frequency <ROTATION_FREQUENCY>\n" ++
  "          Seconds an active signing key is used before it is rotated\n" ++
  "          [env: ROTATION_FREQUENCY=] [default: 21600]\n" ++
  "      --record-out <RECORD_OUT>\n" ++
  "          File the generated key record is written to. The record holds the private key.\n" ++
  "          Without this option it is printed to stdout together with the public key set\n" ++
  "          [env: RECORD_OUT=]\n" ++
  "  -h, --help\n" ++
  "          Print help\n" ++
  "  -V, --version\n" ++
  "          Print version"

/-- The wording of a fault in the arguments. -/
def ArgumentFault.message : ArgumentFault → String
  | .unknown => "unexpected argument"
  | .missingValue => "a value is required for an option but none was supplied"
  | .surplusValue => "unexpected value for an option that takes none"
  | .unsuitableValue => "invalid value for an option"
  | .repeated => "an option cannot be used multiple times"

/-- The causes of a failure in numbered lines. -/
def numberedCauses (number : Nat) : List String → String
  | [] => ""
  | cause :: causes =>
      "    " ++ toString number ++ ": " ++ cause ++ "\n" ++ numberedCauses (number + 1) causes

/-- The report of a failure: what the run was about to do, and the causes. -/
def Failure.report : Failure → String
  | .arguments fault => "error: " ++ fault.message ++ "\n\n" ++ usageText ++ "\n"
  | failure =>
      match failure.messages with
      | [] => ""
      | [message] => "Error: " ++ message ++ "\n"
      | message :: causes =>
          "Error: " ++ message ++ "\n\nCaused by:\n" ++ numberedCauses 0 causes

end SigningKeys
