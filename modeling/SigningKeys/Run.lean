import SigningKeys.Json.Order
import SigningKeys.Jwk.Json
import SigningKeys.Record.Issue
import SigningKeys.Record.Publication
import SigningKeys.Rotation.Strategy
import SigningKeys.Settings.Arguments
import SigningKeys.Settings.Document

/-!
# A run of the program

A run takes its settings from a document or from the arguments and the environment, issues one
record, and delivers it: the printed object has the public key set and the time of the next
rotation, and the record itself goes to a file or, without one, into the printed object. What is
read, drawn and written is passed in and handed back, so that a run is a function.
-/

namespace SigningKeys

/-- Why a run fails. -/
inductive Failure where
  | arguments (fault : ArgumentFault)
  | unreadableDocument
  | unparsableDocument
  | generators (cause : Error)
  | rotationPeriod (cause : Error)
  | generation (cause : Error)
  | publication (cause : Error)
  | schedule (cause : Error)
  | unwritableRecord (path : String)
  deriving DecidableEq

namespace Failure

/-- The exit code of a run that fails. -/
def exitCode : Failure → Nat
  | .arguments _ => 2
  | _ => 1

/-- What a run was about to do when it failed, and the causes. -/
def messages : Failure → List String
  | .arguments _ => []
  | .unreadableDocument => ["could not read config file"]
  | .unparsableDocument => ["could not parse config file"]
  | .generators cause => "could not assemble the key pair generators" :: cause.causes
  | .rotationPeriod cause => "invalid rotation frequency" :: cause.causes
  | .generation cause => "could not generate the initial signing key" :: cause.causes
  | .publication cause => "could not build the public key set" :: cause.causes
  | .schedule cause => "could not schedule the next rotation" :: cause.causes
  | .unwritableRecord path => ["could not write " ++ path]

end Failure

/-- What a run is asked for. -/
inductive Request where
  /-- Take the settings from a document. -/
  | document (path : String)
  /-- Take the settings from the arguments and the environment. -/
  | arguments (texts : List String)

/-- What the arguments of a run ask for: a document is read when they name one and nothing else. -/
def Request.ofArguments : List String → Request
  | [option, path] =>
      if option = "-c" ∨ option = "--config" then .document path
      else .arguments [option, path]
  | texts => .arguments texts

/-- The settings in a document with the given content; there is none if it could not be read. -/
def Settings.load (content : Option String) : Except Failure Settings :=
  match content with
  | none => .error .unreadableDocument
  | some content =>
      match Settings.ofText? content with
      | some settings => .ok settings
      | none => .error .unparsableDocument

/-- Why a run has no settings. -/
inductive Stop where
  | help
  | version
  | failure (failure : Failure)
  deriving DecidableEq

/-- Why a run has no settings when the arguments give none. -/
def Stop.ofHalt : Halt → Stop
  | .help => .help
  | .version => .version
  | .fault fault => .failure (.arguments fault)

/-- The settings of a run, where `read` gives the contents of the files that can be read. -/
def Request.settings (request : Request) (environment read : String → Option String) :
    Except Stop Settings :=
  match request with
  | .document path => (Settings.load (read path)).mapError .failure
  | .arguments texts => (Settings.ofArguments texts environment).mapError Stop.ofHalt

/-- The registry of a generator for each kind of key. The size of RSA keys has to be right even when
they are not the default. -/
def Settings.registry (settings : Settings) : Except Error Registry := do
  let default ← Algorithm.ofTag settings.defaultAlgorithm
  let rsa ← Generator.rsa settings.modulusBits
  Registry.build [⟨Generator.ec, default = .ec⟩, ⟨rsa, default = .rsa⟩]

/-- The strategy with the rotation period. -/
def Settings.strategy (settings : Settings) : Except Error Strategy :=
  Strategy.ofSeconds settings.rotationPeriod

/-- What a run delivers when all goes well. -/
structure Delivery where
  record : Record
  /-- The path and the content of the file that takes the record. -/
  file : Option (String × String)
  output : String

/-- What a run has left in its file and what it has printed. -/
structure Outcome where
  /-- The path of the file that was opened, and the bytes that are in it. -/
  written : Option (String × List UInt8)
  printed : Except Failure String

/-- The object that a run prints. -/
def printedObject (record : Record) (next : Instant) (keySet : JwkSet) (withRecord : Bool) :
    Json.Value :=
  .ofMembers
    ([("keyId", .text record.keyId), ("nextRotation", .text next.text), ("jwks", keySet.toJson)] ++
      if withRecord then [("record", record.toJson)] else [])

/-- Issues a record under the given settings and prepares what is delivered. -/
def prepare (settings : Settings) (draw : Draw) : Except Failure Delivery := do
  let registry ← settings.registry.mapError .generators
  let strategy ← settings.strategy.mapError .rotationPeriod
  let record ← (registry.issue draw).mapError .generation
  let keySet ← (JwkSet.ofRecords [record]).mapError .publication
  let next ← (strategy.nextRotation record).mapError .schedule
  let object := printedObject record next keySet settings.recordFile.isNone
  pure
    { record := record
      file := settings.recordFile.map fun path ↦ (path, record.toJson.pretty)
      output := object.sorted.pretty }

/-- The bytes of a text in a file. -/
def fileBytes (content : String) : List UInt8 := content.toUTF8.toList

/-- What is printed of a delivery, given whether its file could be written: nothing if it could
not. -/
def Delivery.printed (delivery : Delivery) (couldWrite : Bool) : Except Failure String :=
  match delivery.file with
  | none => .ok delivery.output
  | some (path, _) =>
      if couldWrite then .ok delivery.output else .error (.unwritableRecord path)

/-- What becomes of a delivery, where `taken` says how many bytes of a content a file takes, if it
can be opened. A file that does not take all of them is left with the first ones. -/
def Delivery.outcome (delivery : Delivery) (taken : String → List UInt8 → Option Nat) : Outcome :=
  match delivery.file with
  | none => ⟨none, delivery.printed true⟩
  | some (path, content) =>
      let bytes := fileBytes content
      match taken path bytes with
      | none => ⟨none, delivery.printed false⟩
      | some count => ⟨some (path, bytes.take count), delivery.printed (bytes.length ≤ count)⟩

/-- A run under the given settings, where `taken` says how many bytes of a content a file takes, if
it can be opened. -/
def run (settings : Settings) (draw : Draw) (taken : String → List UInt8 → Option Nat) : Outcome :=
  match prepare settings draw with
  | .error failure => ⟨none, .error failure⟩
  | .ok delivery => delivery.outcome taken

end SigningKeys
