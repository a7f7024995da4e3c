import SigningKeys.Json.Basic
import SigningKeys.Text.Decimal

/-!
# Writing JSON

Values as text, on one line or indented by two blanks per level. Strings keep all characters but the
quotation mark, the backslash and the control characters.
-/

namespace SigningKeys.Json

/-- The lowercase hexadecimal digit of a number below sixteen. -/
def hexDigit (n : Nat) : Char :=
  if n < 10 then Char.ofNat ('0'.toNat + n) else Char.ofNat ('a'.toNat + (n - 10))

/-- A character of a string as it is written. -/
def escape (c : Char) : List Char :=
  if c = '"' then ['\\', '"']
  else if c = '\\' then ['\\', '\\']
  else if c = '\n' then ['\\', 'n']
  else if c = '\r' then ['\\', 'r']
  else if c = '\t' then ['\\', 't']
  else if c = '\x08' then ['\\', 'b']
  else if c = '\x0c' then ['\\', 'f']
  else if c.toNat < 32 then
    ['\\', 'u', '0', '0', hexDigit (c.toNat / 16), hexDigit (c.toNat % 16)]
  else [c]

/-- A string with its quotation marks; a string that is no text is written as the escaped half of a
surrogate pair. -/
def printString : Option String → List Char
  | some s => '"' :: (s.toList.flatMap escape ++ ['"'])
  | none => "\"\\ud800\"".toList

/-- The text of a number. -/
def Numeral.print (n : Numeral) : List Char :=
  (if n.negative then ['-'] else []) ++ n.whole ++
    (if n.places = 0 then [] else '.' :: n.fraction) ++
    (match n.exponent with
      | none => []
      | some exponent => 'e' :: Decimal.signedDigits exponent)

/-- The text of a truth value. -/
def printBool (value : Bool) : List Char := if value then "true".toList else "false".toList

namespace Value

mutual

/-- The value on one line. -/
def print : Value → List Char
  | .null => "null".toList
  | .bool value => printBool value
  | .number n => n.print
  | .string s => printString s
  | .array items => '[' :: printItems items ++ [']']
  | .object members => '\x7b' :: printMembers members ++ ['\x7d']

/-- The items of an array, with commas between them. -/
def printItems : List Value → List Char
  | [] => []
  | [item] => item.print
  | item :: items => item.print ++ ',' :: printItems items

/-- The members of an object, with commas between them. -/
def printMembers : List (Option String × Value) → List Char
  | [] => []
  | [(name, value)] => printString name ++ ':' :: value.print
  | (name, value) :: members =>
      printString name ++ ':' :: value.print ++ ',' :: printMembers members

end

/-- A new line at the given level. -/
def indentation (level : Nat) : List Char := '\n' :: List.replicate (2 * level) ' '

mutual

/-- The value on a line of its own per item and member, where the value is at the given level. -/
def printIndented (level : Nat) : Value → List Char
  | .null => "null".toList
  | .bool value => printBool value
  | .number n => n.print
  | .string s => printString s
  | .array [] => ['[', ']']
  | .array items => '[' :: printIndentedItems (level + 1) items ++ indentation level ++ [']']
  | .object [] => ['\x7b', '\x7d']
  | .object members =>
      '\x7b' :: printIndentedMembers (level + 1) members ++ indentation level ++ ['\x7d']

/-- The items of an array, each on a line of its own. -/
def printIndentedItems (level : Nat) : List Value → List Char
  | [] => []
  | [item] => indentation level ++ printIndented level item
  | item :: items =>
      indentation level ++ printIndented level item ++ ',' :: printIndentedItems level items

/-- The members of an object, each on a line of its own. -/
def printIndentedMembers (level : Nat) : List (Option String × Value) → List Char
  | [] => []
  | [(name, value)] =>
      indentation level ++ printString name ++ ':' :: ' ' :: printIndented level value
  | (name, value) :: members =>
      indentation level ++ printString name ++ ':' :: ' ' :: printIndented level value ++
        ',' :: printIndentedMembers level members

end

/-- The text of a value on one line. -/
def compact (value : Value) : String := .ofList value.print

/-- The text of a value, indented. -/
def pretty (value : Value) : String := .ofList (value.printIndented 0)

end Value

end SigningKeys.Json
