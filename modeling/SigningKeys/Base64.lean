/-!
# Base64

Bytes as base64 text in the standard alphabet, where `=` fills the last group, and in the alphabet
for URLs, written without filling. Reading refuses bits that stand for no byte unless they are
zero, so a byte string has exactly one text in the standard alphabet.
-/

namespace SigningKeys.Base64

/-- The alphabets differ in their last two symbols. -/
inductive Alphabet where
  | standard
  | url
  deriving DecidableEq

/-- The symbols for 62 and 63. -/
def Alphabet.last : Alphabet → Char × Char
  | .standard => ('+', '/')
  | .url => ('-', '_')

/-- The symbol for a number below 64. -/
def Alphabet.symbol (alphabet : Alphabet) (value : Nat) : Char :=
  if value < 26 then Char.ofNat ('A'.toNat + value)
  else if value < 52 then Char.ofNat ('a'.toNat + (value - 26))
  else if value < 62 then Char.ofNat ('0'.toNat + (value - 52))
  else if value = 62 then alphabet.last.1
  else alphabet.last.2

/-- The number that a symbol stands for. -/
def Alphabet.value? (alphabet : Alphabet) (c : Char) : Option Nat :=
  if 'A' ≤ c ∧ c ≤ 'Z' then some (c.toNat - 'A'.toNat)
  else if 'a' ≤ c ∧ c ≤ 'z' then some (c.toNat - 'a'.toNat + 26)
  else if '0' ≤ c ∧ c ≤ '9' then some (c.toNat - '0'.toNat + 52)
  else if c = alphabet.last.1 then some 62
  else if c = alphabet.last.2 then some 63
  else none

/-- The four symbols of three bytes. -/
def quad (alphabet : Alphabet) (a b c : UInt8) : List Char :=
  let n := a.toNat * 65536 + b.toNat * 256 + c.toNat
  [alphabet.symbol (n / 262144), alphabet.symbol (n / 4096 % 64), alphabet.symbol (n / 64 % 64),
    alphabet.symbol (n % 64)]

/-- The three symbols of the last two bytes. -/
def triple (alphabet : Alphabet) (a b : UInt8) : List Char :=
  let n := a.toNat * 256 + b.toNat
  [alphabet.symbol (n / 1024), alphabet.symbol (n / 16 % 64), alphabet.symbol (n % 16 * 4)]

/-- The two symbols of a last single byte. -/
def pair (alphabet : Alphabet) (a : UInt8) : List Char :=
  [alphabet.symbol (a.toNat / 4), alphabet.symbol (a.toNat % 4 * 16)]

/-- The text of bytes in the standard alphabet, its last group filled with `=`. -/
def encode : List UInt8 → List Char
  | [] => []
  | [a] => pair .standard a ++ ['=', '=']
  | [a, b] => triple .standard a b ++ ['=']
  | a :: b :: c :: rest => quad .standard a b c ++ encode rest

/-- The text of bytes in the alphabet for URLs, not filled. -/
def encodeUrl : List UInt8 → List Char
  | [] => []
  | [a] => pair .url a
  | [a, b] => triple .url a b
  | a :: b :: c :: rest => quad .url a b c ++ encodeUrl rest

/-- The three bytes of four symbols. -/
def readQuad (alphabet : Alphabet) (w x y z : Char) : Option (List UInt8) := do
  let w ← alphabet.value? w
  let x ← alphabet.value? x
  let y ← alphabet.value? y
  let z ← alphabet.value? z
  let n := w * 262144 + x * 4096 + y * 64 + z
  pure [UInt8.ofNat (n / 65536), UInt8.ofNat (n / 256 % 256), UInt8.ofNat (n % 256)]

/-- The two bytes of a last group of three symbols, whose last two bits are zero. -/
def readTriple (alphabet : Alphabet) (w x y : Char) : Option (List UInt8) := do
  let w ← alphabet.value? w
  let x ← alphabet.value? x
  let y ← alphabet.value? y
  let n := w * 4096 + x * 64 + y
  if n % 4 = 0 then pure [UInt8.ofNat (n / 1024), UInt8.ofNat (n / 4 % 256)] else none

/-- The byte of a last group of two symbols, whose last four bits are zero. -/
def readPair (alphabet : Alphabet) (w x : Char) : Option (List UInt8) := do
  let w ← alphabet.value? w
  let x ← alphabet.value? x
  let n := w * 64 + x
  if n % 16 = 0 then pure [UInt8.ofNat (n / 16)] else none

/-- The bytes of a text in the standard alphabet, whose last group must be filled. -/
def decode : List Char → Option (List UInt8)
  | [] => some []
  | [w, x, '=', '='] => readPair .standard w x
  | [w, x, y, '='] => readTriple .standard w x y
  | w :: x :: y :: z :: rest => do
      let group ← readQuad .standard w x y z
      let others ← decode rest
      pure (group ++ others)
  | _ => none

/-- The bytes of a text in the alphabet for URLs, whose last group may be filled. -/
def decodeUrl : List Char → Option (List UInt8)
  | [] => some []
  | [w, x] => readPair .url w x
  | [w, x, '='] => readPair .url w x
  | [w, x, '=', '='] => readPair .url w x
  | [w, x, y] => readTriple .url w x y
  | [w, x, y, '='] => readTriple .url w x y
  | w :: x :: y :: z :: rest => do
      let group ← readQuad .url w x y z
      let others ← decodeUrl rest
      pure (group ++ others)
  | _ => none

end SigningKeys.Base64
