import SigningKeys.Text.Lead
import SigningKeys.Toml.Text
import SigningKeys.Toml.Token

/-!
# Reading TOML

The entries of a configuration document. A document is read line by line; a value may take several
lines. Reading takes what it can from the front of the text and gives back the rest. The recursion
is bounded by a number computed from the length of the text, which no text exceeds, and the nesting
of values and the parts of a key by `maxNesting`.
-/

namespace SigningKeys.Toml

open Text

/-- The text from its first character that is no blank within a line. -/
def skipBlanks (text : List Char) : List Char := text.dropWhile isBlank

/-- What follows a newline at the beginning of a text. -/
def afterNewline? : List Char → Option (List Char)
  | '\n' :: rest => some rest
  | '\r' :: '\n' :: rest => some rest
  | _ => none

/-- The text from its first character that is no blank, newline or part of a comment. A comment goes
on while `inComment`. -/
def skipBreaks (inComment : Bool) : List Char → Option (List Char)
  | [] => some []
  | '\n' :: rest => skipBreaks false rest
  | '\r' :: '\n' :: rest => skipBreaks false rest
  | c :: rest =>
      if inComment then (if isPrintable c then skipBreaks true rest else none)
      else if isBlank c then skipBreaks false rest
      else if c = '#' then skipBreaks true rest
      else some (c :: rest)

/-- Reads the rest of a line, which holds at most a comment, and the newline if there is one. -/
def readLineEnd (text : List Char) : Option (List Char) :=
  match skipBlanks text with
  | [] => some []
  | '#' :: rest =>
      match rest.dropWhile isPrintable with
      | [] => some []
      | rest => afterNewline? rest
  | rest => afterNewline? rest

/-! ## Keys -/

/-- The most values that may be nested in each other, and the most parts of a key. -/
def maxNesting : Nat := 79

/-- The character may stand in a key without quotation marks. -/
def isKeyChar (c : Char) : Bool := c.isAlphanum || c == '_' || c == '-'

/-- Reads one part of a key. -/
def readKeyPart : List Char → Option (String × List Char)
  | '"' :: rest => readBasic rest
  | '\'' :: rest => readLiteral rest
  | text =>
      let name := text.takeWhile isKeyChar
      if name = [] then none else some (.ofList name, text.dropWhile isKeyChar)

/-- Reads a key of at most the given number of parts, with blanks around each. -/
def readKey : Nat → List Char → Option (List String × List Char)
  | 0, _ => none
  | parts + 1, text => do
      let (part, rest) ← readKeyPart (skipBlanks text)
      match skipBlanks rest with
      | '.' :: rest => (readKey parts rest).map fun (key, rest) ↦ (part :: key, rest)
      | rest => some ([part], rest)

/-! ## Values -/

/-- The character may stand in a number, a word, a date or a time. -/
def isTokenChar (c : Char) : Bool :=
  c.isAlphanum || c == '+' || c == '-' || c == '_' || c == '.' || c == ':'

/-- Reads a value without marks. A date and a time may have a blank between them. -/
def readToken (text : List Char) : Option (Value × List Char) :=
  let token := text.takeWhile isTokenChar
  let rest := text.dropWhile isTokenChar
  let time := (rest.drop 1).takeWhile isTokenChar
  if isDate token ∧ rest.head? = some ' ' ∧ isTimeWithOffset time then
    some (.moment (.ofList (token ++ ' ' :: time)), (rest.drop 1).dropWhile isTokenChar)
  else (valueOfToken? token).map fun value ↦ (value, rest)

mutual

/-- Reads a value with at most `levels` values nested in each other. -/
def readValue : Nat → Nat → List Char → Option (Value × List Char)
  | 0, _, _ => none
  | fuel + 1, levels, text =>
      match text with
      | '"' :: '"' :: '"' :: rest => (readLongBasic rest).map fun (s, rest) ↦ (.text s, rest)
      | '"' :: rest => (readBasic rest).map fun (s, rest) ↦ (.text s, rest)
      | '\'' :: '\'' :: '\'' :: rest =>
          (readLongLiteral rest).map fun (s, rest) ↦ (.text s, rest)
      | '\'' :: rest => (readLiteral rest).map fun (s, rest) ↦ (.text s, rest)
      | '[' :: rest =>
          if levels = 0 then none
          else (readItems fuel (levels - 1) rest).map fun (items, rest) ↦ (.array items, rest)
      | '\x7b' :: rest =>
          if levels = 0 then none
          else
            match skipBlanks rest with
            | '\x7d' :: rest => some (.table .braces [], rest)
            | rest =>
                (readPairs fuel (levels - 1) [] rest).map fun (entries, rest) ↦
                  (.table .braces entries, rest)
      | _ => readToken text

/-- Reads the items of an array, perhaps with a comma after the last one, and its closing
bracket. -/
def readItems : Nat → Nat → List Char → Option (List Value × List Char)
  | 0, _, _ => none
  | fuel + 1, levels, text => do
      match ← skipBreaks false text with
      | ']' :: rest => some ([], rest)
      | text => do
          let (item, rest) ← readValue fuel levels text
          match ← skipBreaks false rest with
          | ',' :: rest =>
              (readItems fuel levels rest).map fun (items, rest) ↦ (item :: items, rest)
          | ']' :: rest => some ([item], rest)
          | _ => none

/-- Reads the entries of a table in braces, at least one, and its closing brace. -/
def readPairs : Nat → Nat → Entries → List Char → Option (Entries × List Char)
  | 0, _, _, _ => none
  | fuel + 1, levels, entries, text => do
      let (key, rest) ← readKey maxNesting text
      let rest ← dropLead? ['='] rest
      let (value, rest) ← readValue fuel levels (skipBlanks rest)
      let entries ← entries.insert value key
      match skipBlanks rest with
      | ',' :: rest => readPairs fuel levels entries rest
      | '\x7d' :: rest => some (entries, rest)
      | _ => none

end

/-! ## Documents -/

/-- Reads a header after its opening brackets, by means of its closing ones. -/
def readHeader (closing : List Char) (text : List Char) : Option (List String × List Char) := do
  let (key, rest) ← readKey maxNesting text
  let rest ← dropLead? closing rest
  let rest ← readLineEnd rest
  some (key, rest)

/-- Reads an entry and the rest of its line. -/
def readEntry (text : List Char) : Option (List String × Value × List Char) := do
  let (key, rest) ← readKey maxNesting text
  let rest ← dropLead? ['='] rest
  let (value, rest) ← readValue (2 * text.length + 2) maxNesting (skipBlanks rest)
  let rest ← readLineEnd rest
  some (key, value, rest)

/-- Reads the lines of a document into its entries, where `header` is the path of the table that is
open. -/
def readLines : Nat → List String → Entries → List Char → Option Entries
  | 0, _, _, _ => none
  | fuel + 1, header, entries, text =>
      match skipBlanks text with
      | [] => some entries
      | '[' :: '[' :: rest => do
          let (key, rest) ← readHeader [']', ']'] rest
          let entries ← entries.openAt Entries.openElement key
          readLines fuel key entries rest
      | '[' :: rest => do
          let (key, rest) ← readHeader [']'] rest
          let entries ← entries.openAt Entries.openTable key
          readLines fuel key entries rest
      | c :: rest =>
          if c = '#' ∨ c = '\n' ∨ c = '\r' then do
            let rest ← readLineEnd (c :: rest)
            readLines fuel header entries rest
          else do
            let (key, value, rest) ← readEntry (c :: rest)
            let entries ← entries.within (Entries.insert value key) header
            readLines fuel header entries rest

/-- The mark that may stand at the beginning of a document. -/
def byteOrderMark : Char := '\uFEFF'

/-- The text of a document without the mark at its beginning. -/
def dropByteOrderMark : List Char → List Char
  | c :: rest => if c = byteOrderMark then rest else c :: rest
  | [] => []

/-- The entries of a document. -/
def parse (text : String) : Option Entries :=
  readLines (text.length + 1) [] [] (dropByteOrderMark text.toList)

end SigningKeys.Toml
