import Schemata.Text.Position

set_option autoImplicit false

namespace Schemata

structure Ident where
  name : String
  span : Span
deriving Repr, Inhabited

namespace Ident

instance : BEq Ident := ⟨fun left right => left.name == right.name⟩

def erase (ident : Ident) : Ident := { ident with span := Span.zero }

end Ident

def isIdentStart (char : Char) : Bool := char.isAlpha || char == '_'

def isIdentPart (char : Char) : Bool := char.isAlphanum || char == '_'

theorem isIdentPart_of_isIdentStart (char : Char) (start : isIdentStart char = true) :
    isIdentPart char = true := by
  simp only [isIdentStart, isIdentPart, Char.isAlphanum, Bool.or_eq_true] at start ⊢
  exact start.imp Or.inl id

end Schemata
