import SigningKeys.Text.Blank
import SigningKeys.Text.Decimal
import SigningKeys.Text.Lead
import SigningKeys.Time.Instant

/-!
# Instants as texts

Instants in the form of RFC 3339: date, `T`, time, and an offset from universal time. They are
written in universal time with the fewest groups of three digits for the fraction, and years of more
than four digits or before year 0 with a sign. They are read more loosely: blanks around numbers and
before the offset, other separators, single digits, fractions of any length, and any offset below 24
hours.
-/

namespace SigningKeys.Instant

open Text

/-! ## Writing -/

/-- The text of a year: four digits, or a sign and at least four digits. -/
def yearChars (year : Int) : List Char :=
  if 0 ≤ year ∧ year ≤ 9999 then Decimal.padded 4 year.toNat
  else (if year < 0 then '-' else '+') :: Decimal.padded 4 year.natAbs

/-- The text of a fraction of a second: nothing, or a point and 3, 6 or 9 digits. -/
def fractionChars (nano : Nat) : List Char :=
  if nano = 0 then []
  else if nano % 1000000 = 0 then '.' :: Decimal.padded 3 (nano / 1000000)
  else if nano % 1000 = 0 then '.' :: Decimal.padded 6 (nano / 1000)
  else '.' :: Decimal.padded 9 nano

/-- The text of a date. -/
def dateChars (date : Date) : List Char :=
  yearChars date.year ++ '-' :: Decimal.padded 2 date.month ++ '-' :: Decimal.padded 2 date.day

/-- The text of a time of day, where a leap second is the second 60. -/
def timeChars (second nano : Nat) : List Char :=
  Decimal.padded 2 (second / 3600) ++ ':' :: Decimal.padded 2 (second / 60 % 60) ++ ':' ::
    Decimal.padded 2 (second % 60 + nano / nanosPerSecond) ++ fractionChars (nano % nanosPerSecond)

/-- The characters of an instant. -/
def chars (t : Instant) : List Char :=
  dateChars (Date.ofDayNumber t.day) ++ 'T' :: timeChars t.second t.nano ++ ['Z']

/-- The text of an instant. -/
def text (t : Instant) : String := .ofList t.chars

/-! ## Reading -/

/-- Reads digits, at least one and at most as many as given, and their number. -/
def readDigits (most : Nat) (text : List Char) : Option (Nat × List Char) :=
  let digits := (text.take most).takeWhile Decimal.isDigit
  if digits = [] then none else some (Decimal.value digits, text.drop digits.length)

/-- Reads a number of one or two digits, with blanks before it. -/
def readPart (text : List Char) : Option (Nat × List Char) := readDigits 2 (trimStart text)

/-- Reads a year, with blanks before it: one to four digits, or a sign and any digits. -/
def readYear (text : List Char) : Option (Int × List Char) :=
  match trimStart text with
  | '-' :: rest => (readDigits rest.length rest).map fun (n, rest) ↦ (-(n : Int), rest)
  | '+' :: rest => (readDigits rest.length rest).map fun (n, rest) ↦ ((n : Int), rest)
  | rest => (readDigits 4 rest).map fun (n, rest) ↦ ((n : Int), rest)

/-- Reads a separator, with blanks before it. -/
def readMark (mark : Char) (text : List Char) : Option (List Char) :=
  dropLead? [mark] (trimStart text)

/-- Reads a date. -/
def readDate (text : List Char) : Option (Date × List Char) := do
  let (year, rest) ← readYear text
  let rest ← readMark '-' rest
  let (month, rest) ← readPart rest
  let rest ← readMark '-' rest
  let (day, rest) ← readPart rest
  some (⟨year, month, day⟩, rest)

/-- Reads the fraction of a second in nanoseconds, if there is one; digits after the ninth do not
count. -/
def readFraction : List Char → Option (Nat × List Char)
  | '.' :: rest =>
      let digits := rest.takeWhile Decimal.isDigit
      if digits = [] then none
      else
        let kept := digits.take 9
        some (Decimal.value (kept ++ List.replicate (9 - kept.length) '0'),
          rest.dropWhile Decimal.isDigit)
  | rest => some (0, rest)

/-- A time of day: the second of the day and the nanoseconds. -/
structure TimeOfDay where
  second : Nat
  nano : Nat

/-- Reads a time of day; the second 60 is a leap second. -/
def readTime (text : List Char) : Option (TimeOfDay × List Char) := do
  let (hour, rest) ← readPart text
  let rest ← readMark ':' rest
  let (minute, rest) ← readPart rest
  let rest ← readMark ':' rest
  let (second, rest) ← readPart rest
  let (nano, rest) ← readFraction rest
  if hour ≤ 23 ∧ minute ≤ 59 ∧ second ≤ 60 then
    let minutes := hour * 60 + minute
    if second = 60 then some (⟨minutes * 60 + 59, nanosPerSecond + nano⟩, rest)
    else some (⟨minutes * 60 + second, nano⟩, rest)
  else none

/-- Reads the sign of an offset; the result tells whether it is negative. -/
def readSign : List Char → Option (Bool × List Char)
  | '+' :: rest => some (false, rest)
  | '-' :: rest => some (true, rest)
  | '\u2212' :: rest => some (true, rest)
  | _ => none

/-- Reads a number of exactly two digits. -/
def readTwo : List Char → Option (Nat × List Char)
  | a :: b :: rest =>
      if Decimal.isDigit a && Decimal.isDigit b then some (Decimal.value [a, b], rest) else none
  | _ => none

/-- Reads an offset from universal time, in seconds. -/
def readOffset (text : List Char) : Option (Int × List Char) :=
  match text with
  | 'Z' :: rest => some (0, rest)
  | 'z' :: rest => some (0, rest)
  | _ =>
      if (text.take 3).map Char.toUpper = "UTC".toList then some (0, text.drop 3)
      else do
        let (negative, rest) ← readSign text
        let (hours, rest) ← readTwo rest
        let (minutes, rest) ← readTwo (rest.dropWhile fun c ↦ c == ':' || isBlank c)
        if hours ≤ 23 ∧ minutes ≤ 59 then
          let seconds : Int := (hours * 60 + minutes) * 60
          some (if negative then -seconds else seconds, rest)
        else none

/-- Reads the sign between date and time. -/
def readSeparator : List Char → Option (List Char)
  | c :: rest => if c = 'T' ∨ c = 't' ∨ c = ' ' then some rest else none
  | [] => none

/-- The instant that a text stands for. Its date must lie in the range of instants both as it is
written and in universal time. -/
def ofChars? (text : List Char) : Option Instant := do
  let (date, rest) ← readDate text
  let rest ← readSeparator rest
  let (time, rest) ← readTime rest
  let (offset, rest) ← readOffset (trimStart rest)
  if date.IsValid ∧ trimStart rest = [] then
    let written ← ofParts? date.dayNumber time.second time.nano
    ofTotalSeconds? (written.totalSeconds - offset) time.nano
  else none

/-- The instant that a text stands for. -/
def ofText? (text : String) : Option Instant := ofChars? text.toList

end SigningKeys.Instant
