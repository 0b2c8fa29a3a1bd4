import Schemata.NameMap

/-!
# JSON values

Integers and doubles are different values, also where they denote the same number. The members of
an object that was read are sorted by name, so that equal objects have equal member lists.
-/

set_option autoImplicit false

namespace Schemata

inductive Json
  | null
  | bool (value : Bool)
  | int (value : Int)
  | float (value : Float)
  | string (text : String)
  | array (items : List Json)
  | object (members : List (String × Json))

deriving instance Repr for Json

namespace Json

instance : Inhabited Json := ⟨.null⟩

mutual

/-- Compare trees. Doubles compare by value, so that the two zeros are equal. -/
def same : Json → Json → Bool
  | .null, .null => true
  | .bool left, .bool right => left == right
  | .int left, .int right => left == right
  | .float left, .float right => left == right
  | .string left, .string right => left == right
  | .array left, .array right => sameAll left right
  | .object left, .object right => sameMembers left right
  | _, _ => false

def sameAll : List Json → List Json → Bool
  | [], [] => true
  | left :: lefts, right :: rights => same left right && sameAll lefts rights
  | _, _ => false

def sameMembers : List (String × Json) → List (String × Json) → Bool
  | [], [] => true
  | (name, left) :: lefts, (name', right) :: rights =>
      name == name' && same left right && sameMembers lefts rights
  | _, _ => false

end

instance : BEq Json := ⟨same⟩

def bool? : Json → Option Bool
  | .bool value => some value
  | _ => none

def nat? : Json → Option Nat
  | .int (.ofNat value) => some value
  | _ => none

def string? : Json → Option String
  | .string text => some text
  | _ => none

def array? : Json → Option (List Json)
  | .array items => some items
  | _ => none

def object? : Json → Option (List (String × Json))
  | .object members => some members
  | _ => none

def member? (value : Json) (name : String) : Option Json :=
  match value with
  | .object members => members.lookup name
  | _ => none

/-- The object of some members. The last of several members of one name counts. -/
def ofMembers (members : List (String × Json)) : Json :=
  .object (NameMap.ofList members).entries

end Json

end Schemata
