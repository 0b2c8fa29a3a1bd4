/-!
# Doubles and exact fractions

A finite double is a significand below `2 ^ 53` times a power of two. The exponent is at least
`-1074`, and the significand reaches `2 ^ 52` above the least exponent.
-/

set_option autoImplicit false

namespace Schemata.Double

/-- Multiply two powers into a fraction: `scaled base exponent` is `base ^ exponent` over one. -/
def scaled (base : Nat) (exponent : Int) : Nat × Nat :=
  if exponent < 0 then (1, base.pow exponent.natAbs) else (base.pow exponent.natAbs, 1)

/-- Round a fraction to the nearest natural number, a half to the even neighbour. -/
def roundEven (numerator denominator : Nat) : Nat :=
  let floor := numerator / denominator
  let rest := 2 * (numerator % denominator)
  if rest < denominator then floor
  else if denominator < rest then floor + 1
  else floor + floor % 2

/-- The exponent of two of the significand's last place for a positive fraction. -/
def lastPlace (numerator denominator : Nat) : Int :=
  let guess : Int := (numerator.log2 : Int) - denominator.log2
  let (up, down) := scaled 2 guess
  let magnitude := if numerator * down < denominator * up then guess - 1 else guess
  max (-1074) (magnitude - 52)

/-- The bits of the double nearest to a fraction. Beyond the largest double stands infinity. -/
def nearestBits (numerator denominator : Nat) : Nat :=
  if numerator = 0 ∨ denominator = 0 then 0
  else
    let exponent := lastPlace numerator denominator
    let (up, down) := scaled 2 exponent
    let significand := roundEven (numerator * down) (denominator * up)
    let bits := (exponent + 1074).toNat * Nat.pow 2 52 + significand
    min bits (0x7FF * Nat.pow 2 52)

def nearest (numerator denominator : Nat) : Float :=
  Float.ofBits (nearestBits numerator denominator).toUInt64

/-- The double nearest to `digits * 10 ^ exponent`. -/
def ofDecimal (digits : Nat) (exponent : Int) : Float :=
  let (up, down) := scaled 10 exponent
  nearest (digits * up) down

def ofInt (value : Int) : Float :=
  if value < 0 then -(nearest value.natAbs 1) else nearest value.natAbs 1

/-- The significand and the exponent of two of the magnitude of a finite double. -/
def decode (value : Float) : Nat × Int :=
  let bits := value.toBits.toNat
  let fraction := bits % Nat.pow 2 52
  let exponent : Nat := bits / Nat.pow 2 52 % 2048
  if exponent = 0 then (fraction, -1074) else (Nat.pow 2 52 + fraction, Int.ofNat exponent - 1075)

def isNegative (value : Float) : Bool :=
  Nat.pow 2 63 ≤ value.toBits.toNat

example : nearestBits 3 2 = 0x3ff8000000000000 := by decide
example : nearestBits (Nat.pow 2 53 + 1) 1 = 0x4340000000000000 := by decide
example : nearestBits (10 * (Nat.pow 2 53 + 1) + 1) 10 = 0x4340000000000001 := by decide

end Schemata.Double
