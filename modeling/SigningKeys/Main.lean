import SigningKeys.Usage

/-!
# The program

Reads the arguments, the environment, the clock and the source of chance, lets `Run` decide, and
writes and prints what it hands back.
-/

namespace SigningKeys

/-- Midnight before the first of January 1970, from which the system counts seconds. -/
def systemEpoch : Int := (Date.mk 1970 1 1).dayNumber * secondsPerDay

/-- The current time, which a file has that is made for this. -/
def currentTime : IO Instant := do
  let (_, path) ← IO.FS.createTempFile
  let metadata ← path.metadata
  IO.FS.removeFile path
  let time := metadata.modified
  match Instant.ofTotalSeconds? (systemEpoch + time.sec) time.nsec.toNat with
  | some now => pure now
  | none => throw (IO.userError "the clock is out of range")

/-- What chance and the clock contribute to the record of this run. -/
def drawNow : IO Draw := do
  let bytes ← IO.getRandomBytes (USize.ofNat Draw.byteCount)
  pure (Draw.ofBytes bytes.toList (← currentTime))

/-- The values of the variables that settings have. -/
def readEnvironment : IO (List (String × String)) :=
  (Setting.all.filterMap Setting.environmentName?).filterMapM fun name ↦ do
    pure ((← IO.getEnv name).map fun value ↦ (name, value))

/-- The content of a file, if it can be read as a text. -/
def readText? (path : String) : IO (Option String) := do
  try pure (some (← IO.FS.readFile path)) catch _ => pure none

/-- Writes a file and tells whether that was possible. -/
def tryWrite (path content : String) : IO Bool := do
  try
    IO.FS.writeFile path content
    pure true
  catch _ => pure false

/-- Reports a failure and gives its exit code. -/
def fail (failure : Failure) : IO UInt32 := do
  IO.eprint failure.report
  pure (UInt32.ofNat failure.exitCode)

/-- A run under the given settings. -/
def runWith (settings : Settings) : IO UInt32 := do
  match prepare settings (← drawNow) with
  | .error failure => fail failure
  | .ok delivery => do
      let couldWrite ← match delivery.file with
        | some (path, content) => tryWrite path content
        | none => pure true
      match delivery.printed couldWrite with
      | .ok output => do
          IO.println output
          pure 0
      | .error failure => fail failure

end SigningKeys

open SigningKeys in
/-- Takes the settings from where the arguments say and performs a run. -/
def main (arguments : List String) : IO UInt32 := do
  let request := Request.ofArguments arguments
  let content ← match request with
    | .document path => readText? path
    | .arguments _ => pure none
  let environment ← readEnvironment
  match request.settings (List.lookup · environment) (fun _ ↦ content) with
  | .ok settings => runWith settings
  | .error .help => do
      IO.println usageText
      pure 0
  | .error .version => do
      IO.println versionText
      pure 0
  | .error (.failure failure) => fail failure
