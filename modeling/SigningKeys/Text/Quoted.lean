import SigningKeys.Text.ExtendingMark
import SigningKeys.Text.Unprintable

/-!
# Quoted descriptions

Texts in quotation marks, as descriptions of values show them: on one line and with every character
that could not be seen or told apart written as an escape.
-/

namespace SigningKeys.Text

/-- The lowercase hexadecimal digits of a number, without leading zeros. -/
def hexDigits (n : Nat) : List Char :=
  let digit (n : Nat) : Char :=
    if n < 10 then Char.ofNat ('0'.toNat + n) else Char.ofNat ('a'.toNat + (n - 10))
  if n < 16 then [digit n] else hexDigits (n / 16) ++ [digit (n % 16)]

/-- The character by its code point. -/
def codeEscape (c : Char) : List Char := ['\\', 'u', '\x7b'] ++ hexDigits c.toNat ++ ['\x7d']

/-- A character within quotation marks. -/
def quotedChar (c : Char) : List Char :=
  if c = '"' then ['\\', '"']
  else if c = '\\' then ['\\', '\\']
  else if c = '\n' then ['\\', 'n']
  else if c = '\r' then ['\\', 'r']
  else if c = '\t' then ['\\', 't']
  else if c.toNat = 0 then ['\\', '0']
  else if isExtendingMark c || isUnprintable c then codeEscape c
  else [c]

/-- A text in quotation marks. -/
def quoted (text : String) : String :=
  .ofList ('"' :: (text.toList.flatMap quotedChar ++ ['"']))

end SigningKeys.Text
