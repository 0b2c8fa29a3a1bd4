import Schemata.Decimal.Double
import Schemata.Json.Basic

/-!
# Reading JSON

A number without a point and an exponent is an integer if it fits 64 bits, signed or unsigned.
Every other number is a double. It is read from the digits that fit 64 bits and one division by, or
multiplication with, a power of ten, so its last bit may differ from the nearest double.
-/

set_option autoImplicit false

namespace Schemata.Json

def isSpace (char : Char) : Bool :=
  char == ' ' || char == '\t' || char == '\n' || char == '\r'

def digitValue (char : Char) : Nat := char.toNat - '0'.toNat

/-- The digits of a number that were used so far, and the power of ten they are short of. -/
structure Scaled where
  significand : Nat
  exponent : Int

/-- Use digits of the whole part. From the first digit that does not fit, none is used. -/
def Scaled.addWhole (full : Bool) (scaled : Scaled) : List Char → Scaled × Bool
  | [] => (scaled, full)
  | digit :: rest =>
      let grown := scaled.significand * 10 + digitValue digit
      if full || Nat.pow 2 64 ≤ grown then
        Scaled.addWhole true { scaled with exponent := scaled.exponent + 1 } rest
      else Scaled.addWhole false { scaled with significand := grown } rest

def Scaled.addFraction (scaled : Scaled) : List Char → Scaled
  | [] => scaled
  | digit :: rest =>
      let grown := scaled.significand * 10 + digitValue digit
      if Nat.pow 2 64 ≤ grown then scaled
      else Scaled.addFraction ⟨grown, scaled.exponent - 1⟩ rest

/-- Scale by powers of ten of at most `10 ^ 308`. A number beyond the doubles is refused. -/
def scaleBy (value : Float) : Nat → Int → Option Float
  | 0, _ => some value
  | fuel + 1, exponent =>
      let power := Double.ofDecimal 1 (min exponent.natAbs 308 : Nat)
      if exponent.natAbs ≤ 308 then
        if 0 ≤ exponent then
          if (value * power).isInf then none else some (value * power)
        else some (value / power)
      else if value == 0 then some value
      else if 0 ≤ exponent then none
      else scaleBy (value / power) fuel (exponent + 308)

/-- The double of a number. Four steps of scaling take every number to zero. -/
def Scaled.toFloat? (scaled : Scaled) : Option Float :=
  scaleBy (Double.nearest scaled.significand 1) 8 scaled.exponent

def largestExponent : Nat := Nat.pow 2 31 - 1

def readExponent (digits : List Char) : Nat :=
  digits.foldl (fun value digit => min (value * 10 + digitValue digit) (largestExponent + 1)) 0

/-- An exponent that is out of all bounds leaves zero, or nothing at all. -/
def withExponent (scaled : Scaled) (negative : Bool) (exponent : Nat) : Option Float :=
  if largestExponent < exponent then
    if scaled.significand = 0 || negative then some 0 else none
  else
    Scaled.toFloat?
      { scaled with exponent := scaled.exponent + if negative then -(exponent : Int) else exponent }

def exponent? (rest : List Char) : Option (Bool × Nat × List Char) :=
  let (negative, rest) :=
    match rest with
    | '-' :: rest => (true, rest)
    | '+' :: rest => (false, rest)
    | rest => (false, rest)
  let digits := rest.takeWhile Char.isDigit
  if digits.isEmpty then none
  else some (negative, readExponent digits, rest.dropWhile Char.isDigit)

def float? (scaled : Scaled) (rest : List Char) : Option (Float × List Char) := do
  let (scaled, rest) ←
    match rest with
    | '.' :: rest =>
        let digits := rest.takeWhile Char.isDigit
        if digits.isEmpty then none
        else some (scaled.addFraction digits, rest.dropWhile Char.isDigit)
    | rest => some (scaled, rest)
  match rest with
  | 'e' :: rest | 'E' :: rest =>
      let (negative, exponent, rest) ← exponent? rest
      let value ← withExponent scaled negative exponent
      some (value, rest)
  | rest =>
      let value ← scaled.toFloat?
      some (value, rest)

def number? (negative : Bool) (chars : List Char) : Option (Json × List Char) :=
  let digits := chars.takeWhile Char.isDigit
  let rest := chars.dropWhile Char.isDigit
  if digits.isEmpty || (digits.head? == some '0' && 1 < digits.length) then none
  else
    let (scaled, overflow) := Scaled.addWhole false ⟨0, 0⟩ digits
    let plain := !(rest.head?.any fun char => char == '.' || char == 'e' || char == 'E')
    let small := if negative then 0 < scaled.significand && scaled.significand ≤ Nat.pow 2 63 else true
    if plain && !overflow && small then
      some (.int (if negative then -(scaled.significand : Int) else scaled.significand), rest)
    else
      (float? scaled rest).map fun (value, rest) =>
        (.float (if negative then -value else value), rest)

def hexValue? (char : Char) : Option Nat :=
  if '0' ≤ char ∧ char ≤ '9' then some (char.toNat - '0'.toNat)
  else if 'a' ≤ char ∧ char ≤ 'f' then some (char.toNat - 'a'.toNat + 10)
  else if 'A' ≤ char ∧ char ≤ 'F' then some (char.toNat - 'A'.toNat + 10)
  else none

def unit? : List Char → Option (Nat × List Char)
  | a :: b :: c :: d :: rest => do
      let a ← hexValue? a
      let b ← hexValue? b
      let c ← hexValue? c
      let d ← hexValue? d
      some (((a * 16 + b) * 16 + c) * 16 + d, rest)
  | _ => none

def codePoint? (chars : List Char) : Option (Char × List Char) := do
  let (first, rest) ← unit? chars
  if 0xD800 ≤ first ∧ first < 0xDC00 then
    match rest with
    | '\\' :: 'u' :: rest =>
        let (second, rest) ← unit? rest
        if 0xDC00 ≤ second ∧ second < 0xE000 then
          some (Char.ofNat (0x10000 + (first - 0xD800) * 0x400 + (second - 0xDC00)), rest)
        else none
    | _ => none
  else if 0xDC00 ≤ first ∧ first < 0xE000 then none
  else some (Char.ofNat first, rest)

def simpleEscape? : Char → Option Char
  | '"' => some '"'
  | '\\' => some '\\'
  | '/' => some '/'
  | 'b' => some '\x08'
  | 'f' => some '\x0c'
  | 'n' => some '\n'
  | 'r' => some '\r'
  | 't' => some '\t'
  | _ => none

/-- Read a text up to its closing quote. `read` holds the characters before, last first. -/
def text? : Nat → List Char → List Char → Option (String × List Char)
  | 0, _, _ => none
  | fuel + 1, read, chars =>
      match chars with
      | [] => none
      | '"' :: rest => some (String.ofList read.reverse, rest)
      | '\\' :: 'u' :: rest =>
          (codePoint? rest).bind fun (char, rest) => text? fuel (char :: read) rest
      | '\\' :: char :: rest =>
          (simpleEscape? char).bind fun char => text? fuel (char :: read) rest
      | char :: rest => if char.toNat < 0x20 then none else text? fuel (char :: read) rest

def word? : List Char → List Char → Option (List Char)
  | [], rest => some rest
  | char :: chars, first :: rest => if char = first then word? chars rest else none
  | _ :: _, [] => none

mutual

/-- Read a value. Every step takes a character, so fuel beyond their number never runs out. -/
def value? : Nat → List Char → Option (Json × List Char)
  | 0, _ => none
  | fuel + 1, chars =>
      match chars.dropWhile isSpace with
      | '\x7b' :: rest =>
          match rest.dropWhile isSpace with
          | '\x7d' :: rest => some (.object [], rest)
          | rest =>
              (members? fuel rest).map fun (members, rest) => (ofMembers members, rest)
      | '[' :: rest =>
          match rest.dropWhile isSpace with
          | ']' :: rest => some (.array [], rest)
          | rest => (items? fuel rest).map fun (items, rest) => (.array items, rest)
      | '"' :: rest => (text? fuel [] rest).map fun (text, rest) => (.string text, rest)
      | '-' :: rest => number? true rest
      | 't' :: rest => (word? ['r', 'u', 'e'] rest).map fun rest => (.bool true, rest)
      | 'f' :: rest => (word? ['a', 'l', 's', 'e'] rest).map fun rest => (.bool false, rest)
      | 'n' :: rest => (word? ['u', 'l', 'l'] rest).map fun rest => (.null, rest)
      | chars => number? false chars

def items? : Nat → List Char → Option (List Json × List Char)
  | 0, _ => none
  | fuel + 1, chars => do
      let (first, rest) ← value? fuel chars
      match rest.dropWhile isSpace with
      | ',' :: rest =>
          let (others, rest) ← items? fuel rest
          some (first :: others, rest)
      | ']' :: rest => some ([first], rest)
      | _ => none

def members? : Nat → List Char → Option (List (String × Json) × List Char)
  | 0, _ => none
  | fuel + 1, chars => do
      let (name, rest) ←
        match chars.dropWhile isSpace with
        | '"' :: rest => text? fuel [] rest
        | _ => none
      let (value, rest) ←
        match rest.dropWhile isSpace with
        | ':' :: rest => value? fuel rest
        | _ => none
      match rest.dropWhile isSpace with
      | ',' :: rest =>
          let (others, rest) ← members? fuel rest
          some ((name, value) :: others, rest)
      | '\x7d' :: rest => some ([(name, value)], rest)
      | _ => none

end

def read? (text : String) : Option Json :=
  let chars := text.toList
  match value? (2 * chars.length + 2) chars with
  | some (value, rest) => if rest.all isSpace then some value else none
  | none => none

end Schemata.Json
