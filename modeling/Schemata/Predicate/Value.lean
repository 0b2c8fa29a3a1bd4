import Schemata.Decimal.Double
import Schemata.Json.Basic
import Schemata.Predicate.Basic
import Schemata.Text.Lowercase
import Schemata.Time.Instant

/-!
# Operations on values

Values are JSON values. Integers compare and count exactly as long as they fit 64 bits; doubles take
over otherwise. Two texts that are times compare as times, whatever reads times from texts; in the
program that is `Instant.read?`. Where an operation has no result, its result is null.
-/

set_option autoImplicit false

universe u

namespace Schemata

namespace Json

def toFloat? : Json → Option Float
  | .int value => some (Double.ofInt value)
  | .float value => some value
  | _ => none

def ofFloat (value : Float) : Json := if value.isFinite then .float value else .null

def isSigned64 (value : Int) : Bool :=
  decide (-(Nat.pow 2 63 : Nat) ≤ value ∧ value < (Nat.pow 2 63 : Nat))

def signed? : Json → Option Int
  | .int value => if isSigned64 value then some value else none
  | _ => none

def compareFloats (left right : Float) : Option Ordering :=
  if left < right then some .lt
  else if left == right then some .eq
  else if right < left then some .gt
  else none

section

variable {Time : Type u} [Ord Time] (read? : String → Option Time)

def timeBy? : Json → Option Time
  | .string text => read? text
  | _ => none

def orderBy? (left right : Json) : Option Ordering :=
  match left, right with
  | .int first, .int second => some (compare first second)
  | _, _ =>
      match left.toFloat?, right.toFloat? with
      | some first, some second => compareFloats first second
      | _, _ =>
          match left.timeBy? read?, right.timeBy? read? with
          | some first, some second => some (compare first second)
          | _, _ => none

def equalBy [DecidableEq Time] (left right : Json) : Bool :=
  match left.toFloat?, right.toFloat? with
  | some _, some _ => left.orderBy? read? right == some .eq
  | _, _ =>
      match left.timeBy? read?, right.timeBy? read? with
      | some first, some second => first == second
      | _, _ => left == right

end

def order? (left right : Json) : Option Ordering := left.orderBy? Instant.read? right

def equal (left right : Json) : Bool := left.equalBy Instant.read? right

end Json

namespace Comparison

def holdsBy {Time : Type u} [Ord Time] [DecidableEq Time] (read? : String → Option Time)
    (op : Comparison) (left right : Json) : Bool :=
  let order := left.orderBy? read? right
  match op with
  | .eq => left.equalBy read? right
  | .ne => !left.equalBy read? right
  | .lt => order == some .lt
  | .le => order == some .lt || order == some .eq
  | .gt => order == some .gt
  | .ge => order == some .gt || order == some .eq

def holds (op : Comparison) (left right : Json) : Bool := op.holdsBy Instant.read? left right

theorem holds_eq (op : Comparison) (left right : Json) :
    op.holds left right =
      match op with
      | .eq => left.equal right
      | .ne => !left.equal right
      | .lt => left.order? right == some .lt
      | .le => left.order? right == some .lt || left.order? right == some .eq
      | .gt => left.order? right == some .gt
      | .ge => left.order? right == some .gt || left.order? right == some .eq := by
  cases op <;> rfl

end Comparison

def Arithmetic.applyInts? (op : Arithmetic) (left right : Int) : Option Int :=
  let result? :=
    match op with
    | .add => some (left + right)
    | .sub => some (left - right)
    | .mul => some (left * right)
    | .div => none
  result?.filter Json.isSigned64

def Arithmetic.applyFloats (op : Arithmetic) (left right : Float) : Json :=
  match op with
  | .add => .ofFloat (left + right)
  | .sub => .ofFloat (left - right)
  | .mul => .ofFloat (left * right)
  | .div => if right == 0 then .null else .ofFloat (left / right)

def Arithmetic.apply (op : Arithmetic) (left right : Json) : Json :=
  let whole? := do
    let first ← left.signed?
    let second ← right.signed?
    op.applyInts? first second
  match whole?, left.toFloat?, right.toFloat? with
  | some result, _, _ => .int result
  | none, some first, some second => op.applyFloats first second
  | none, _, _ => .null

namespace Json

/-- Change the sign of a number. The least integer of 64 bits has no counterpart. -/
def negate (value : Json) : Json :=
  match value.signed? with
  | some number => if isSigned64 (-number) then .int (-number) else .null
  | none =>
      match value.toFloat? with
      | some number => ofFloat (-number)
      | none => .null

def walk (value : Json) : List String → Json
  | [] => value
  | name :: path =>
      match value.member? name with
      | some next => next.walk path
      | none => .null

end Json

def hasInfix (needle : List Char) : List Char → Bool
  | [] => needle.isEmpty
  | char :: rest => needle.isPrefixOf (char :: rest) || hasInfix needle rest

inductive ValueFunction
  | contains
  | startsWith
  | endsWith
  | has
  | hasSome
  | hasEvery
  | isEmpty
  | now
deriving Repr, DecidableEq, Inhabited

namespace ValueFunction

def all : List ValueFunction :=
  [.contains, .startsWith, .endsWith, .has, .hasSome, .hasEvery, .isEmpty, .now]

def name : ValueFunction → String
  | .contains => "contains"
  | .startsWith => "startsWith"
  | .endsWith => "endsWith"
  | .has => "has"
  | .hasSome => "hasSome"
  | .hasEvery => "hasEvery"
  | .isEmpty => "isEmpty"
  | .now => "now"

def ofName? (name : String) : Option ValueFunction := all.find? (·.name == name)

/-- Search a text, with both texts in lowercase if the third argument is true. -/
def search (test : List Char → List Char → Bool) : List Json → Bool
  | .string text :: .string needle :: rest =>
      match rest with
      | .bool true :: _ => test (lowercase needle.toList) (lowercase text.toList)
      | _ => test needle.toList text.toList
  | _ => false

def includes (items : List Json) (value : Json) : Bool := items.any fun item => item.equal value

def apply (now : String) (function : ValueFunction) (arguments : List Json) : Json :=
  match function, arguments with
  | .contains, _ => .bool (search hasInfix arguments)
  | .startsWith, _ => .bool (search List.isPrefixOf arguments)
  | .endsWith, _ => .bool (search List.isSuffixOf arguments)
  | .has, .array items :: value :: _ => .bool (includes items value)
  | .hasSome, .array items :: .array values :: _ => .bool (values.any (includes items))
  | .hasEvery, .array items :: .array values :: _ => .bool (values.all (includes items))
  | .isEmpty, .array items :: _ => .bool items.isEmpty
  | .now, _ => .string now
  | _, _ => .bool false

end ValueFunction

end Schemata
