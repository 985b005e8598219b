/-!
# The curve secp256k1

Private keys are numbers below the order of a group of points on the curve `y² = x³ + 7` over a
prime field; the public key is that multiple of a fixed point. Points are kept by their two
coordinates, with the neutral element apart, and a multiple is computed by doubling.
-/

namespace ContractDeploy.Secp256k1

/-- The number of elements of the field. -/
def fieldOrder : Nat := 0xFFFFFFFFFFFFFFFFFFFFFFFFFFFFFFFFFFFFFFFFFFFFFFFFFFFFFFFEFFFFFC2F

/-- The number of points of the group. -/
def groupOrder : Nat := 0xFFFFFFFFFFFFFFFFFFFFFFFFFFFFFFFEBAAEDCE6AF48A03BBFD25E8CD0364141

/-- A point of the group. -/
inductive Point where
  /-- The neutral element. -/
  | neutral
  /-- A point of the curve, by its coordinates. -/
  | affine (x y : Nat)
deriving DecidableEq

/-- The fixed point that public keys are multiples of. -/
def generator : Point :=
  .affine 0x79BE667EF9DCBBAC55A06295CE870B07029BFCDB2DCE28D959F2815B16F81798
    0x483ADA7726A3C4655DA4FBFC0E1108A8FD17B448A68554199C47D08FFB10D4B8

/-- A power in the field, by squaring. -/
def power (base : Nat) (exponent : Nat) : Nat :=
  if exponent = 0 then 1
  else
    let half := power (base * base % fieldOrder) (exponent / 2)
    if exponent % 2 = 0 then half else base * half % fieldOrder
termination_by exponent
decreasing_by omega

/-- The inverse of a field element other than zero. The field has `fieldOrder - 1` units, so the
power one below that number is the inverse. -/
def inverse (a : Nat) : Nat := power a (fieldOrder - 2)

/-- The difference of two field elements. -/
def minus (a b : Nat) : Nat := (a + (fieldOrder - b)) % fieldOrder

/-- The third point on the line of this slope through a point and another one of abscissa `x₂`,
reflected. -/
def Point.alongSlope (slope x₁ y₁ x₂ : Nat) : Point :=
  let x := minus (minus (slope * slope % fieldOrder) x₁) x₂
  .affine x (minus (slope * minus x₁ x % fieldOrder) y₁)

/-- Twice a point. No point of the group has the ordinate zero. -/
def Point.double : Point → Point
  | neutral => neutral
  | affine x y => alongSlope (3 * x * x * inverse (2 * y) % fieldOrder) x y x

/-- The sum of two points. -/
def Point.add : Point → Point → Point
  | neutral, q => q
  | p, neutral => p
  | affine x₁ y₁, affine x₂ y₂ =>
    if x₁ = x₂ then if y₁ = y₂ then double (affine x₁ y₁) else neutral
    else alongSlope (minus y₂ y₁ * inverse (minus x₂ x₁) % fieldOrder) x₁ y₁ x₂

/-- A multiple of a point, by doubling. -/
def Point.multiple (point : Point) (n : Nat) : Point :=
  if n = 0 then neutral
  else
    let rest := multiple point.double (n / 2)
    if n % 2 = 0 then rest else point.add rest
termination_by n
decreasing_by omega

end ContractDeploy.Secp256k1
