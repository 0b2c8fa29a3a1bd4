import Schemata.Decimal.Shortest
import Schemata.Json.Basic

set_option autoImplicit false

namespace Schemata.Json

/-- Write numbers without an exponent from `1e-5` up to, but not including, `1e16`. -/
def numberLayout : Shortest.Layout := ⟨-4, 16⟩

example : numberLayout.write 1 15 = "1000000000000000.0" := by decide +kernel

example : numberLayout.write 1 16 = "1e+16" := by decide +kernel

example : numberLayout.write 999 (-8) = "9.99e-6" := by decide +kernel

example : numberLayout.write 1 (-5) = "0.00001" := by decide +kernel

def hexDigit (value : Nat) : Char :=
  (Nat.toDigits 16 value).headD '0'

def escapeChar (char : Char) : List Char :=
  match char with
  | '"' => ['\\', '"']
  | '\\' => ['\\', '\\']
  | '\x08' => ['\\', 'b']
  | '\x0c' => ['\\', 'f']
  | '\n' => ['\\', 'n']
  | '\r' => ['\\', 'r']
  | '\t' => ['\\', 't']
  | other =>
      if other.toNat < 0x20 then
        ['\\', 'u', '0', '0', hexDigit (other.toNat / 16), hexDigit (other.toNat % 16)]
      else [other]

def quoteText (text : String) : String :=
  String.ofList ('"' :: text.toList.flatMap escapeChar ++ ['"'])

def floatText (value : Float) : String :=
  if value.isFinite then numberLayout.text value else "null"

def indent (depth : Nat) : String :=
  String.ofList ('\n' :: List.replicate (2 * depth) ' ')

mutual

def printWith (line : Nat → String) (colon : String) (depth : Nat) : Json → String
  | .null => "null"
  | .bool true => "true"
  | .bool false => "false"
  | .int value => toString value
  | .float value => floatText value
  | .string text => quoteText text
  | .array [] => "[]"
  | .array (item :: rest) =>
      "[" ++ line (depth + 1) ++ printWith line colon (depth + 1) item ++
        printItems line colon (depth + 1) rest ++ line depth ++ "]"
  | .object [] => "\x7b\x7d"
  | .object ((name, value) :: rest) =>
      "\x7b" ++ line (depth + 1) ++ quoteText name ++ colon ++
        printWith line colon (depth + 1) value ++
        printMembers line colon (depth + 1) rest ++ line depth ++ "\x7d"

def printItems (line : Nat → String) (colon : String) (depth : Nat) : List Json → String
  | [] => ""
  | item :: rest =>
      "," ++ line depth ++ printWith line colon depth item ++ printItems line colon depth rest

def printMembers (line : Nat → String) (colon : String) (depth : Nat) :
    List (String × Json) → String
  | [] => ""
  | (name, value) :: rest =>
      "," ++ line depth ++ quoteText name ++ colon ++ printWith line colon depth value ++
        printMembers line colon depth rest

end

def compact (value : Json) : String :=
  printWith (fun _ => "") ":" 0 value

def pretty (value : Json) : String :=
  printWith indent ": " 0 value

end Schemata.Json
