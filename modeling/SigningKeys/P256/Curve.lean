import SigningKeys.Entropy
import SigningKeys.Number.Modular

/-!
# The curve P-256

Points of the curve `y² = x³ - 3x + b` over the field of `prime` elements, their sums by the chord
and the tangent, and multiples of the base point. Sums are computed on coordinates, where `none`
stands for the neutral element; a `Point` is never the neutral element and carries the proof that
it lies on the curve. Secret keys are read from bytes or drawn.
-/

namespace SigningKeys.P256

/-- The number of elements of the field. -/
def prime : Nat := 0xffffffff00000001000000000000000000000000ffffffffffffffffffffffff

/-- The number of multiples of the base point. -/
def order : Nat := 0xffffffff00000000ffffffffffffffffbce6faada7179e84f3b9cac2fc632551

/-- The constant term of the curve. -/
def constant : Nat := 0x5ac635d8aa3a93e7b3ebbd55769886bc651d06b0cc53b0f63bce3c3e27d2604b

/-- How many bytes a coordinate or a scalar takes. -/
def byteCount : Nat := 32

/-- How many bits a scalar has at most. -/
def bitCount : Nat := 256

/-- What the square of `y` has to be at `x`. -/
def square (x : Nat) : Nat := (x * x * x + (prime - 3) * x + constant) % prime

/-- The coordinates are residues and satisfy the equation of the curve. -/
def IsOnCurve (x y : Nat) : Prop := x < prime ∧ y < prime ∧ y * y % prime = square x

/-- Lying on the curve is decided by computing both sides of its equation. -/
instance (x y : Nat) : Decidable (IsOnCurve x y) := inferInstanceAs (Decidable (_ ∧ _))

/-- A point of the curve other than the neutral element. -/
structure Point where
  x : Nat
  y : Nat
  onCurve : IsOnCurve x y
  deriving DecidableEq

/-- Coordinates of a sum of points; `none` is the neutral element. -/
abbrev Coordinates := Option (Nat × Nat)

/-- The base point. -/
def base : Point where
  x := 0x6b17d1f2e12c4247f8bce6e563a440f277037d812deb33a0f4a13945d898c296
  y := 0x4fe342e2fe1a7f9b8ee7eb4a7c0f9e162bce33576b315ececbb6406837bf51f5
  onCurve := by decide +kernel

/-- The coordinates of a point. -/
def Point.coordinates (point : Point) : Coordinates := some (point.x, point.y)

/-- The third point on the line of the given slope through `(x, y)` and a point at `other`,
reflected. -/
def reflectedThird (slope x y other : Nat) : Nat × Nat :=
  let third := Modular.sub (slope * slope % prime) (x + other) prime
  (third, Modular.sub (slope * Modular.sub x third prime % prime) y prime)

/-- Twice a point, by the tangent. -/
def double : Coordinates → Coordinates
  | none => none
  | some (x, y) => do
      let reciprocal ← Modular.inverse? (2 * y) prime
      let slope := (3 * x * x + (prime - 3)) % prime * reciprocal % prime
      some (reflectedThird slope x y x)

/-- The sum of two points, by the chord, or by the tangent when they are the same. -/
def add : Coordinates → Coordinates → Coordinates
  | none, right => right
  | left, none => left
  | some (x, y), some (u, v) =>
      if x = u then (if y = v then double (some (x, y)) else none)
      else do
        let reciprocal ← Modular.inverse? (Modular.sub u x prime) prime
        let slope := Modular.sub v y prime * reciprocal % prime
        some (reflectedThird slope x y u)

/-- The multiple of a point by the lowest `bits` bits of a scalar, doubling the point from bit to
bit. -/
def multiple : Nat → Nat → Coordinates → Coordinates
  | 0, _, _ => none
  | bits + 1, scalar, point =>
      let rest := multiple bits (scalar / 2) (double point)
      if scalar % 2 = 1 then add point rest else rest

/-- The multiple of the base point by a scalar. -/
def multipleOfBase (scalar : Nat) : Coordinates := multiple bitCount scalar base.coordinates

/-- The point with the given coordinates, if they lie on the curve. -/
def Point.ofCoordinates? (x y : Nat) : Option Point :=
  if onCurve : IsOnCurve x y then some ⟨x, y, onCurve⟩ else none

/-- The square root that squaring confirms; the field has roots by a power, since its size leaves
the remainder 3 modulo 4. -/
def root (n : Nat) : Nat := Modular.power n ((prime + 1) / 4) prime

/-- The point at `x` whose second coordinate satisfies `choose`, out of a root and its negative. -/
def Point.atX? (x : Nat) (choose : Nat → Bool) : Option Point :=
  let y := root (square x)
  Point.ofCoordinates? x (if choose y then y else prime - y)

/-- The bytes of a point, both coordinates in full. -/
def Point.bytes (point : Point) : List UInt8 :=
  4 :: (BigEndian.padded byteCount point.x ++ BigEndian.padded byteCount point.y)

/-- The bytes of a point of which only the first coordinate is given in full. -/
def Point.compressed (point : Point) : List UInt8 :=
  (if point.y % 2 = 1 then 3 else 2) :: BigEndian.padded byteCount point.x

/-- The point that bytes stand for: both coordinates after the byte 4; the first coordinate after
the byte 2 or 3 for an even or odd second one; or the first coordinate after the byte 5, where the
smaller of the two second coordinates is meant. -/
def Point.ofBytes? : List UInt8 → Option Point
  | [] => none
  | form :: rest =>
      let x := BigEndian.toNat (rest.take byteCount)
      if form = 4 then
        if rest.length = 2 * byteCount then
          Point.ofCoordinates? x (BigEndian.toNat (rest.drop byteCount))
        else none
      else if rest.length = byteCount then
        if form = 2 then Point.atX? x (· % 2 = 0)
        else if form = 3 then Point.atX? x (· % 2 = 1)
        else if form = 5 then Point.atX? x fun y ↦ y ≤ prime - y
        else none
      else none

/-- A secret scalar together with its multiple of the base point. -/
structure SecretKey where
  scalar : Nat
  point : Point
  scalar_pos : 0 < scalar
  scalar_lt : scalar < order
  multiple_eq : multipleOfBase scalar = point.coordinates
  deriving DecidableEq

/-- The point whose coordinates a computation gave. -/
def Point.ofResult? :
    (result : Coordinates) → Option { point : Point // result = point.coordinates }
  | none => none
  | some (x, y) =>
      if onCurve : IsOnCurve x y then some ⟨⟨x, y, onCurve⟩, rfl⟩ else none

/-- The secret key of a scalar between zero and the order. -/
def SecretKey.ofScalar? (scalar : Nat) : Option SecretKey :=
  if range : 0 < scalar ∧ scalar < order then do
    let ⟨point, multiple_eq⟩ ← Point.ofResult? (multipleOfBase scalar)
    some ⟨scalar, point, range.1, range.2, multiple_eq⟩
  else none

/-- The fewest bytes that a secret scalar may be given in. -/
def minScalarBytes : Nat := 24

/-- The secret key that bytes stand for: 32 bytes, or 24 and more with leading zeros left out. -/
def SecretKey.ofBytes? (bytes : List UInt8) : Option SecretKey :=
  if minScalarBytes ≤ bytes.length ∧ bytes.length ≤ byteCount then
    SecretKey.ofScalar? (BigEndian.toNat bytes)
  else none

/-- The 32 bytes of a secret scalar. -/
def SecretKey.bytes (secret : SecretKey) : List UInt8 := BigEndian.padded byteCount secret.scalar

/-- The secret key that random bytes give, with every scalar equally likely. -/
def SecretKey.draw? (entropy : Entropy) : Option SecretKey :=
  SecretKey.ofScalar? ((entropy.below (order - 1) byteCount).1 + 1)

end SigningKeys.P256
