import SigningKeys.Base64
import SigningKeys.Text.Lead
import SigningKeys.Text.Lines

/-!
# Armoured bytes

Bytes between a line `-----BEGIN label-----` and a line `-----END label-----`, as base64 in lines of
64 symbols of which only the last may be shorter or filled with `=`. Lines of other text may come
before the first; nothing may come after the last, and between the symbols and the last line one
empty line is let pass.
-/

namespace SigningKeys.Pem

open Text

/-- What every armoured text begins with. -/
def mark : List Char := "-----BEGIN".toList

/-- The beginning of the first line. -/
def opening : List Char := "-----BEGIN ".toList

/-- The beginning of the last line. -/
def closing : List Char := "-----END ".toList

/-- The end of the first and of the last line. -/
def dashes : List Char := "-----".toList

/-- The length of a full line of symbols. -/
def width : Nat := 64

/-- The text from the first line that begins as an opening line does. The lines before it end with
line feeds and have no null character. -/
def fromOpening? (text : List Char) : Option (List Char) :=
  if (dropLead? opening text).isSome then some text else afterLine text
where
  /-- The text from the first opening after a line feed. -/
  afterLine : List Char → Option (List Char)
    | [] => none
    | c :: rest =>
        if c = '\n' ∧ (dropLead? opening rest).isSome then some rest
        else if c.toNat = 0 then none
        else afterLine rest

/-- A printable ASCII character other than a blank or a hyphen. -/
def isLabelChar (c : Char) : Bool := '!' ≤ c && c ≤ '~' && c != '-'

/-- The characters are the rest of a label, in which a blank may come next if `blankNext`. -/
def isLabelRest (blankNext : Bool) : List Char → Bool
  | [] => true
  | c :: rest =>
      if isLabelChar c then isLabelRest true rest
      else blankNext && (c == ' ' || c == '\t') && isLabelRest false rest

/-- A label: printable characters with single blanks between them or at the end, or nothing. -/
def isLabel (label : List Char) : Bool := isLabelRest false label

/-- The label that a first line names. -/
def label? (line : List Char) : Option (List Char) := do
  let rest ← dropLead? opening line
  let label := rest.takeWhile (· != '-')
  if isLabel label && rest.dropWhile (· != '-') == dashes then some label else none

/-- The symbols of the lines between the first and the last. A line with another one after it is
full and not filled with `=`, unless that other one is the last and empty. -/
def joinLines : List (List Char) → Option (List Char)
  | [] => none
  | [last] => if last.length ≤ width then some last else none
  | [last, []] => if last.length ≤ width then some last else none
  | line :: rest =>
      if line.length = width ∧ '=' ∉ line then (joinLines rest).map (line ++ ·) else none

/-- The bytes of an armoured text. -/
def decode (text : List Char) : Option (List UInt8) := do
  let text ← fromOpening? text
  match lines text with
  | [] => none
  | first :: rest =>
      let label ← label? first
      let last ← rest.getLast?
      if last = closing ++ label ++ dashes then
        let symbols ← joinLines rest.dropLast
        Base64.decode symbols
      else none

/-- The symbols in lines of the full length, the last one perhaps shorter. -/
def wrap (symbols : List Char) : List (List Char) :=
  if symbols.length ≤ width then [symbols]
  else symbols.take width :: wrap (symbols.drop width)
termination_by symbols.length
decreasing_by simp [width] at *; omega

/-- The armoured text of bytes. -/
def encode (label : List Char) (newline : Newline) (bytes : List UInt8) : List Char :=
  opening ++ label ++ dashes ++ newline.chars ++
    (wrap (Base64.encode bytes)).flatMap (· ++ newline.chars) ++
    closing ++ label ++ dashes

end SigningKeys.Pem
