import SigningKeys.Settings.Basic
import SigningKeys.Toml.Reader

/-!
# Settings in documents

A document gives settings by their names. Entries of other names are skipped; a setting of the wrong
type spoils the document.
-/

namespace SigningKeys.Settings

open Toml

/-- Gives a setting a value of a document: a text, or an integer for a number. -/
def assignValue? (settings : Settings) : Setting → Value → Option Settings
  | .modulusBits, .integer n => if 0 ≤ n then settings.withModulusBits? n.toNat else none
  | .modulusBits, _ => none
  | .rotationPeriod, .integer n => settings.withRotationPeriod? n
  | .rotationPeriod, _ => none
  | setting, .text s => settings.assign? setting s
  | _, _ => none

/-- Gives a setting its value in a document, if it has one there. -/
def assignFrom? (entries : Entries) (settings : Settings) (setting : Setting) : Option Settings :=
  match entries.find? setting.name with
  | some value => settings.assignValue? setting value
  | none => some settings

/-- The settings that the entries of a document give. -/
def ofEntries? (entries : Entries) : Option Settings :=
  Setting.all.foldlM (assignFrom? entries) default

/-- The settings that a document gives. -/
def ofText? (document : String) : Option Settings := (Toml.parse document).bind ofEntries?

end SigningKeys.Settings
