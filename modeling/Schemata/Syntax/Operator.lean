set_option autoImplicit false

namespace Schemata

inductive UnaryOp
  | not
  | negate
deriving Repr, DecidableEq, Inhabited

namespace UnaryOp

def all : List UnaryOp := [.not, .negate]

def symbol : UnaryOp → Char
  | .not => '!'
  | .negate => '-'

def ofSymbol? : Char → Option UnaryOp
  | '!' => some .not
  | '-' => some .negate
  | _ => none

theorem ofSymbol?_symbol (op : UnaryOp) : ofSymbol? op.symbol = some op := by
  cases op <;> rfl

end UnaryOp

inductive BinaryOp
  | mul
  | div
  | add
  | sub
  | lt
  | le
  | gt
  | ge
  | eq
  | ne
  | and
  | or
deriving Repr, DecidableEq, Inhabited

namespace BinaryOp

def all : List BinaryOp := [.mul, .div, .add, .sub, .lt, .le, .gt, .ge, .eq, .ne, .and, .or]

def symbol : BinaryOp → String
  | .mul => "*"
  | .div => "/"
  | .add => "+"
  | .sub => "-"
  | .lt => "<"
  | .le => "<="
  | .gt => ">"
  | .ge => ">="
  | .eq => "=="
  | .ne => "!="
  | .and => "&&"
  | .or => "||"

def precedence : BinaryOp → Nat
  | .or => 1
  | .and => 2
  | .eq | .ne => 3
  | .lt | .le | .gt | .ge => 4
  | .add | .sub => 5
  | .mul | .div => 6

def isLogical : BinaryOp → Bool
  | .and | .or => true
  | _ => false

def isEquality : BinaryOp → Bool
  | .eq | .ne => true
  | _ => false

def isRelational : BinaryOp → Bool
  | .lt | .le | .gt | .ge => true
  | _ => false

def isArithmetic : BinaryOp → Bool
  | .mul | .div | .add | .sub => true
  | _ => false

/--
The operators by precedence, loosest first. Within a level a symbol stands before the symbols
that it starts with, so that the first match is the longest.
-/
def levels : List (List BinaryOp) :=
  [[.or], [.and], [.eq, .ne], [.le, .ge, .lt, .gt], [.add, .sub], [.mul, .div]]

theorem precedence_of_mem_levels (index : Nat) (ops : List BinaryOp) (op : BinaryOp)
    (level : levels[index]? = some ops) (found : op ∈ ops) : op.precedence = index + 1 := by
  match index with
  | 0 | 1 | 2 | 3 | 4 | 5 =>
      obtain rfl : _ = ops := by simpa [levels] using level
      simp at found
      rcases found with rfl | rfl | rfl | rfl <;> rfl
  | index + 6 => simp [levels] at level

end BinaryOp

inductive Quantifier
  | any
  | all
  | none
deriving Repr, DecidableEq, Inhabited

namespace Quantifier

def every : List Quantifier := [.any, .all, .none]

def symbol : Quantifier → Char
  | .any => '?'
  | .all => '!'
  | .none => '^'

def ofSymbol? : Char → Option Quantifier
  | '?' => some .any
  | '!' => some .all
  | '^' => some .none
  | _ => Option.none

theorem ofSymbol?_symbol (quantifier : Quantifier) :
    ofSymbol? quantifier.symbol = some quantifier := by
  cases quantifier <;> rfl

end Quantifier

end Schemata
