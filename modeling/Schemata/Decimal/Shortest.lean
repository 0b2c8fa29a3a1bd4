import Schemata.Decimal.Double

/-!
# The shortest decimal of a double

The reals that round to a double form an interval around it. Of all decimals in that interval the
ones with the fewest digits are the candidates, and the nearest of them is the text of the double.
-/

set_option autoImplicit false

namespace Schemata.Shortest

/--
Decide whether `digits * 10 ^ exponent` rounds to `significand * 2 ^ power`. The ends of the
interval belong to it if the significand is even.
-/
def roundsTo (significand : Nat) (power : Int) (digits : Nat) (exponent : Int) : Bool :=
  let (up, down) := Double.scaled 10 exponent
  let (raise, lower) := Double.scaled 2 (power - 2)
  let value := digits * up * lower
  let unit := raise * down
  let lowGap := if significand = Nat.pow 2 52 ∧ -1074 < power then 1 else 2
  let low := (4 * significand - lowGap) * unit
  let high := (4 * significand + 2) * unit
  if significand % 2 = 0 then low ≤ value && value ≤ high else low < value && value < high

/--
The natural number below `significand * 2 ^ power / 10 ^ exponent`, and how the rest compares with a
half.
-/
def onGrid (significand : Nat) (power exponent : Int) : Nat × Ordering :=
  let (raise, lower) := Double.scaled 2 power
  let (up, down) := Double.scaled 10 exponent
  let numerator := significand * raise * down
  let denominator := lower * up
  (numerator / denominator, compare (2 * (numerator % denominator)) denominator)

/-- The nearest decimal with the given last place that rounds to the double, if there is one. -/
def candidate? (significand : Nat) (power exponent : Int) : Option Nat :=
  let (below, half) := onGrid significand power exponent
  let first := if half = .gt ∨ (half = .eq ∧ below % 2 = 1) then below + 1 else below
  let second := if first = below then below + 1 else below
  if 0 < first && roundsTo significand power first exponent then some first
  else if 0 < second && roundsTo significand power second exponent then some second
  else none

def search (significand : Nat) (power : Int) : Nat → Int → Nat × Int
  | 0, exponent => (significand, exponent)
  | fuel + 1, exponent =>
      match candidate? significand power exponent with
      | some digits => (digits, exponent)
      | none => search significand power fuel (exponent - 1)

def digitCount (value : Nat) : Nat := (Nat.toDigits 10 value).length

def digits (value : Float) : Nat × Int :=
  let (significand, power) := Double.decode value
  let (raise, lower) := Double.scaled 2 power
  let size : Int := digitCount (significand * raise) - digitCount lower
  let (digits, exponent) := search significand power 24 (size + 1)
  (digits, exponent)

structure Layout where
  /-- The least and the largest position of the point that is written without an exponent. -/
  leastPoint : Int
  largestPoint : Int

def writePower (power : Int) : String :=
  (if power < 0 then "e-" else "e+") ++ toString power.natAbs

def Layout.write (layout : Layout) (digits : Nat) (exponent : Int) : String :=
  let text := Nat.toDigits 10 digits
  let point : Int := text.length + exponent
  if layout.leastPoint ≤ point && point ≤ layout.largestPoint then
    if 0 ≤ exponent then String.ofList (text ++ List.replicate exponent.toNat '0') ++ ".0"
    else if 0 < point then
      String.ofList (text.take point.toNat) ++ "." ++ String.ofList (text.drop point.toNat)
    else "0." ++ String.ofList (List.replicate point.natAbs '0' ++ text)
  else
    let mantissa :=
      match text with
      | [] => ""
      | [only] => String.ofList [only]
      | first :: others => String.ofList (first :: '.' :: others)
    mantissa ++ writePower (point - 1)

def Layout.text (layout : Layout) (value : Float) : String :=
  let sign := if Double.isNegative value then "-" else ""
  if value == 0 then sign ++ "0.0"
  else
    let (digits, exponent) := digits value
    sign ++ layout.write digits exponent

end Schemata.Shortest
