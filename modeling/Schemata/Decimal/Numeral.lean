import Schemata.Decimal.Double

set_option autoImplicit false

namespace Schemata.Numeral

def readDigits (digits : List Char) : Nat :=
  digits.foldl (fun value digit => value * 10 + (digit.toNat - '0'.toNat)) 0

def sign : List Char → Bool × List Char
  | '-' :: rest => (true, rest)
  | '+' :: rest => (false, rest)
  | rest => (false, rest)

def int? (chars : List Char) : Option Int :=
  let (isNegative, digits) := sign chars
  if !digits.isEmpty && digits.all Char.isDigit then
    some (if isNegative then -(readDigits digits : Int) else readDigits digits)
  else none

def fraction : List Char → List Char × List Char
  | '.' :: rest => (rest.takeWhile Char.isDigit, rest.dropWhile Char.isDigit)
  | rest => ([], rest)

def exponent? : List Char → Option Int
  | [] => some 0
  | 'e' :: rest | 'E' :: rest => int? rest
  | _ => none

def float? (chars : List Char) : Option Float :=
  let (isNegative, unsigned) := sign chars
  let (fraction, rest) := fraction (unsigned.dropWhile Char.isDigit)
  let digits := unsigned.takeWhile Char.isDigit ++ fraction
  if digits.isEmpty then none
  else
    (exponent? rest).map fun exponent =>
      let magnitude := Double.ofDecimal (readDigits digits) (exponent - fraction.length)
      if isNegative then -magnitude else magnitude

example : int? "".toList = none ∧ int? "+".toList = none := by decide
example : (float? ".".toList).isNone = true ∧ (float? "1e".toList).isNone = true := by decide

end Schemata.Numeral
