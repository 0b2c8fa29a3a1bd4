/-!
# Instants

An instant is read from a date, a time and an offset, as in `2024-02-29T12:30:00.5+01:00`. A leap
second lies between the second before it and the next minute.
-/

set_option autoImplicit false

namespace Schemata

structure Instant where
  /-- Seconds since the start of the year zero, without leap seconds. -/
  seconds : Int
  /-- Nanoseconds since then, more than a second's worth in a leap second. -/
  nanos : Nat
deriving Repr, DecidableEq, Inhabited

namespace Instant

instance instOrd : Ord Instant where
  compare left right :=
    (compare left.seconds right.seconds).then (compare left.nanos right.nanos)

instance transOrd : Std.TransOrd Instant :=
  inferInstanceAs (Std.TransCmp (compareLex (compareOn seconds) (compareOn nanos)))

instance lawfulEqOrd : Std.LawfulEqOrd Instant where
  eq_of_compare {left right} same := by
    obtain ⟨seconds, nanos⟩ := Ordering.then_eq_eq.1 same
    cases left
    cases right
    cases Std.LawfulEqOrd.eq_of_compare seconds
    cases Std.LawfulEqOrd.eq_of_compare nanos
    rfl

def isLeapYear (year : Nat) : Bool :=
  year % 4 == 0 && (year % 100 != 0 || year % 400 == 0)

def daysInMonth (year month : Nat) : Nat :=
  match month with
  | 2 => if isLeapYear year then 29 else 28
  | 4 | 6 | 9 | 11 => 30
  | _ => 31

def daysBeforeYear (year : Nat) : Nat :=
  365 * year + (year + 3) / 4 - (year + 99) / 100 + (year + 399) / 400

def daysBeforeMonth (year month : Nat) : Nat :=
  (List.range (month - 1)).foldl (fun days earlier => days + daysInMonth year (earlier + 1)) 0

def digits? : Nat → List Char → Option (Nat × List Char)
  | 0, chars => some (0, chars)
  | count + 1, char :: rest =>
      if char.isDigit then
        (digits? count rest).map fun (value, rest) =>
          ((char.toNat - '0'.toNat) * Nat.pow 10 count + value, rest)
      else none
  | _ + 1, [] => none

def char? (expected : Char) : List Char → Option (List Char)
  | [] => none
  | char :: rest => if char = expected then some rest else none

def date? (chars : List Char) : Option (Nat × List Char) := do
  let (year, rest) ← digits? 4 chars
  let rest ← char? '-' rest
  let (month, rest) ← digits? 2 rest
  let rest ← char? '-' rest
  let (day, rest) ← digits? 2 rest
  if 1 ≤ month ∧ month ≤ 12 ∧ 1 ≤ day ∧ day ≤ daysInMonth year month then
    some (daysBeforeYear year + daysBeforeMonth year month + (day - 1), rest)
  else none

def separator? : List Char → Option (List Char)
  | 'T' :: rest | 't' :: rest | ' ' :: rest => some rest
  | _ => none

def time? (chars : List Char) : Option ((Nat × Nat) × List Char) := do
  let (hour, rest) ← digits? 2 chars
  let rest ← char? ':' rest
  let (minute, rest) ← digits? 2 rest
  let rest ← char? ':' rest
  let (second, rest) ← digits? 2 rest
  if hour ≤ 23 ∧ minute ≤ 59 ∧ second ≤ 60 then
    let whole := hour * 3600 + minute * 60 + min second 59
    some ((whole, if second = 60 then 1000000000 else 0), rest)
  else none

/-- Read the digits behind the point, of which the first nine count. -/
def fraction? : List Char → Option (Nat × List Char)
  | '.' :: rest =>
      let digits := rest.takeWhile Char.isDigit
      if digits.isEmpty then none
      else
        let value := ((digits ++ List.replicate 9 '0').take 9).foldl
          (fun value digit => value * 10 + (digit.toNat - '0'.toNat)) 0
        some (value, rest.dropWhile Char.isDigit)
  | rest => some (0, rest)

def offsetSize? (chars : List Char) : Option (Nat × List Char) := do
  let (hour, rest) ← digits? 2 chars
  let rest ← char? ':' rest
  let (minute, rest) ← digits? 2 rest
  if hour ≤ 23 ∧ minute ≤ 59 then some (hour * 3600 + minute * 60, rest) else none

def offset? : List Char → Option (Int × List Char)
  | 'Z' :: rest | 'z' :: rest => some (0, rest)
  | '+' :: rest => (offsetSize? rest).map fun (size, rest) => ((size : Int), rest)
  | '-' :: rest | '\u2212' :: rest =>
      (offsetSize? rest).map fun (size, rest) => (-(size : Int), rest)
  | _ => none

def read? (text : String) : Option Instant := do
  let (days, rest) ← date? text.toList
  let rest ← separator? rest
  let ((seconds, leap), rest) ← time? rest
  let (nanos, rest) ← fraction? rest
  let (offset, rest) ← offset? rest
  if rest.isEmpty then some ⟨(days * 86400 + seconds : Nat) - offset, leap + nanos⟩ else none

example : read? "2000-03-01T00:00:00Z" ≠ read? "2000-02-29t23:59:60.0Z" := by
  decide +kernel
example : read? "2000-03-01T00:00:00Z" = read? "2000-02-29 23:30:00.000-00:30" := by
  decide +kernel

end Instant

end Schemata
