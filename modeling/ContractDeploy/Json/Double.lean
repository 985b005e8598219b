import ContractDeploy.Json.Reader

/-!
# Numbers in double precision

Where a number is kept without it being known what for, it is kept in double precision, and one
that overflows is refused. The digits of the number that fit 64 bits, taken from the left, are
rounded to a double and multiplied by the double nearest to the power of ten that places them; the
number overflows if the double nearest to the product is infinite. All of it is arithmetic on
natural numbers here, since a number that overflows is no fraction.
-/

namespace ContractDeploy.Json

/-- The value of a digit behind a number that ends before it. -/
def pushDigit (n : Nat) (digit : Char) : Nat := n * 10 + (digit.toNat - '0'.toNat)

/-- The value of a run of decimal digits. -/
def natOfDigits (digits : List Char) : Nat := digits.foldl pushDigit 0

/-- The number that the digits from the left make together with the number before them, as far as
it fits 64 bits, and how many digits are left over. -/
def leadingDigits : (before : Nat) → List Char → Nat × Nat
  | before, [] => (before, 0)
  | before, digit :: rest =>
    let next := pushDigit before digit
    if next < Bytes.capacity 8 then leadingDigits next rest else (before, rest.length + 1)

/-- The bits of a double's significand. -/
def significandBits : Nat := 53

/-- The number with its leading 53 bits kept and the others zero that is nearest, and of two that
are equally near the even one. -/
def roundToDouble (n : Nat) : Nat :=
  -- A number that fits the significand has the unit one, and loses nothing.
  let unit := Nat.pow 2 (n.log2 + 1 - significandBits)
  let kept := n / unit
  let lost := n % unit
  let up := unit < 2 * lost || (unit = 2 * lost && kept % 2 = 1)
  (if up then kept + 1 else kept) * unit

/-- The least number to which the nearest double is infinite: half a unit of the greatest double
beyond it. -/
def doubleOverflow : Nat := Nat.pow 2 1024 - Nat.pow 2 970

/-- The greatest power of ten that is kept as a double. -/
def greatestPowerOfTen : Nat := 308

/-- The number of an exponent, from its letter on; zero if there is none. -/
def exponentOf : List Char → Int
  | [] => 0
  | _ :: '-' :: digits => -(natOfDigits digits : Int)
  | _ :: '+' :: digits => (natOfDigits digits : Int)
  | _ :: digits => (natOfDigits digits : Int)

/-- Whether a number with these digits before and behind the point and with this exponent does not
overflow. -/
def isFiniteScaled (integer fraction : List Char) (exponent : Int) : Bool :=
  let (significand, left) := leadingDigits 0 (integer ++ fraction)
  let scale := exponent + left - fraction.length
  significand = 0 || scale ≤ 0 || (scale ≤ greatestPowerOfTen &&
    roundToDouble significand * roundToDouble (Nat.pow 10 scale.toNat) < doubleOverflow)

/-- Whether a number, as its characters, does not overflow. -/
def isFinite (literal : List Char) : Bool :=
  let text := literal.dropWhile (· = '-')
  let integer := text.takeWhile isDigit
  match text.dropWhile isDigit with
  | '.' :: rest => isFiniteScaled integer (rest.takeWhile isDigit)
      (exponentOf (rest.dropWhile isDigit))
  | rest => isFiniteScaled integer [] (exponentOf rest)

end ContractDeploy.Json
