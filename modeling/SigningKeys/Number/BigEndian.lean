/-!
# Big-endian bytes

Natural numbers as bytes, most significant first: the fewest bytes (`shortest`), the fewest bytes
of the two's complement form (`signed`), and exactly as many as a width (`padded`).
-/

namespace SigningKeys.BigEndian

/-- The number with the given bytes, most significant first. -/
def toNat (bytes : List UInt8) : Nat := bytes.foldl (fun high byte ↦ high * 256 + byte.toNat) 0

/-- The fewest bytes of a number: no leading zero byte, except that zero is one zero byte. -/
def shortest (n : Nat) : List UInt8 :=
  if n < 256 then [UInt8.ofNat n] else shortest (n / 256) ++ [UInt8.ofNat (n % 256)]

/-- The fewest bytes of a number in two's complement: a zero byte is put before the unsigned form
when its first bit would read as a minus sign. -/
def signed (n : Nat) : List UInt8 :=
  match shortest n with
  | [] => []
  | first :: rest => if first < 128 then first :: rest else 0 :: first :: rest

/-- The bytes without a leading zero byte, unless it is the only byte. -/
def dropSign : List UInt8 → List UInt8
  | 0 :: byte :: rest => byte :: rest
  | bytes => bytes

/-- The last `width` bytes of a number, leading zeros kept. -/
def padded : Nat → Nat → List UInt8
  | 0, _ => []
  | width + 1, n => padded width (n / 256) ++ [UInt8.ofNat (n % 256)]

/-- How many bits a number has; zero has none. -/
def bitLength (n : Nat) : Nat := if n = 0 then 0 else n.log2 + 1

end SigningKeys.BigEndian
