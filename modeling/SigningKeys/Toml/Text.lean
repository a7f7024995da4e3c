import SigningKeys.Text.Hexadecimal

/-!
# TOML strings

Strings in single or double quotation marks, on one line or in three marks over several. Between
double quotation marks a backslash begins an escape; a backslash at the end of a line takes the
newline and all blanks after it away, but not within an escape. A string is read in two steps: what
stands between the marks is split off, then its escapes are resolved.
-/

namespace SigningKeys.Toml

open Text

/-- A blank within a line. -/
def isBlank (c : Char) : Bool := c == ' ' || c == '\t'

/-- The character may stand in strings and comments: it is a tab or no control character. -/
def isPrintable (c : Char) : Bool := c == '\t' || (' ' ≤ c && c != '\x7f')

/-- The character may stand in strings over several lines. -/
def isPrintableOrNewline (c : Char) : Bool := isPrintable c || c == '\n'

/-- Every newline as a single line feed. -/
def unifyNewlines : List Char → List Char
  | [] => []
  | '\r' :: '\n' :: rest => '\n' :: unifyNewlines rest
  | c :: rest => c :: unifyNewlines rest

/-- The character that a letter stands for after a backslash. -/
def unescapeLetter? (c : Char) : Option Char :=
  if c = '"' ∨ c = '\\' then some c
  else if c = 'b' then some '\x08'
  else if c = 't' then some '\t'
  else if c = 'n' then some '\n'
  else if c = 'f' then some '\x0c'
  else if c = 'r' then some '\r'
  else none

/-- The text goes on in the next line: only blanks stand before a line feed. -/
def endsLine (text : List Char) : Bool := (text.dropWhile isBlank).head? == some '\n'

/-- Resolves the escapes of a string. While `joining`, that is after a backslash at the end of a
line, blanks and newlines are taken away. -/
def unescape? (joining : Bool) : List Char → Option (List Char)
  | [] => some []
  | '\\' :: 'u' :: a :: b :: c :: d :: rest => do
      let escaped ← charOfHex? [a, b, c, d]
      (unescape? false rest).map (escaped :: ·)
  | '\\' :: 'U' :: a :: b :: c :: d :: e :: f :: g :: h :: rest => do
      let escaped ← charOfHex? [a, b, c, d, e, f, g, h]
      (unescape? false rest).map (escaped :: ·)
  | '\\' :: c :: rest =>
      if endsLine (c :: rest) then unescape? true (c :: rest)
      else do
        let escaped ← unescapeLetter? c
        (unescape? false rest).map (escaped :: ·)
  | c :: rest =>
      if c = '\\' then none
      else if joining && (isBlank c || c == '\n') then unescape? true rest
      else (unescape? false rest).map (c :: ·)

/-- Splits a text at the first mark that no backslash precedes. -/
def splitBasic : List Char → Option (List Char × List Char)
  | [] => none
  | '"' :: rest => some ([], rest)
  | '\\' :: c :: rest => (splitBasic rest).map fun (raw, rest) ↦ ('\\' :: c :: raw, rest)
  | c :: rest => (splitBasic rest).map fun (raw, rest) ↦ (c :: raw, rest)

/-- How many of the marks before three marks belong to the string: at most two. -/
def surplusMarks (mark : Char) (text : List Char) : List Char :=
  (text.takeWhile (· == mark)).take 2

/-- Splits a text at the last of the first three marks in a row that no backslash precedes. -/
def splitLongBasic : List Char → Option (List Char × List Char)
  | [] => none
  | '"' :: '"' :: '"' :: rest =>
      let surplus := surplusMarks '"' rest
      some (surplus, rest.drop surplus.length)
  | '\\' :: c :: rest => (splitLongBasic rest).map fun (raw, rest) ↦ ('\\' :: c :: raw, rest)
  | c :: rest => (splitLongBasic rest).map fun (raw, rest) ↦ (c :: raw, rest)

/-- Splits a text at the first three marks in a row. -/
def splitLongLiteral : List Char → Option (List Char × List Char)
  | [] => none
  | '\'' :: '\'' :: '\'' :: rest =>
      let surplus := surplusMarks '\'' rest
      some (surplus, rest.drop surplus.length)
  | c :: rest => (splitLongLiteral rest).map fun (raw, rest) ↦ (c :: raw, rest)

/-- The content without the newline that it may begin with. -/
def dropFirstNewline : List Char → List Char
  | '\n' :: rest => rest
  | content => content

/-- Reads a string after its opening mark `"`. -/
def readBasic (text : List Char) : Option (String × List Char) := do
  let (raw, rest) ← splitBasic text
  let content ← unescape? false raw
  if raw.all isPrintable then some (.ofList content, rest) else none

/-- Reads a string after its opening mark `'`. -/
def readLiteral (text : List Char) : Option (String × List Char) :=
  let raw := text.takeWhile (· != '\'')
  match text.dropWhile (· != '\'') with
  | _ :: rest => if raw.all isPrintable then some (.ofList raw, rest) else none
  | [] => none

/-- Reads a string after its opening marks `"""`. -/
def readLongBasic (text : List Char) : Option (String × List Char) := do
  let (raw, rest) ← splitLongBasic text
  let raw := unifyNewlines raw
  let content ← unescape? false (dropFirstNewline raw)
  if raw.all isPrintableOrNewline then some (.ofList content, rest) else none

/-- Reads a string after its opening marks `'''`. -/
def readLongLiteral (text : List Char) : Option (String × List Char) := do
  let (raw, rest) ← splitLongLiteral text
  let raw := unifyNewlines raw
  if raw.all isPrintableOrNewline then some (.ofList (dropFirstNewline raw), rest) else none

end SigningKeys.Toml
