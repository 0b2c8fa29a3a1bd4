/-!
# Positions in a text

Offsets count UTF-8 bytes. Lines and columns count from one, and columns count characters.
-/

set_option autoImplicit false

namespace Schemata

def byteLength : List Char → Nat
  | [] => 0
  | char :: rest => char.utf8Size + byteLength rest

@[simp] theorem byteLength_nil : byteLength [] = 0 := rfl

@[simp] theorem byteLength_cons (char : Char) (rest : List Char) :
    byteLength (char :: rest) = char.utf8Size + byteLength rest := rfl

@[simp] theorem byteLength_append (left right : List Char) :
    byteLength (left ++ right) = byteLength left + byteLength right := by
  induction left with
  | nil => simp
  | cons char rest ih => simp [ih, Nat.add_assoc]

structure Position where
  line : Nat
  column : Nat
deriving Repr, DecidableEq, Inhabited

namespace Position

def first : Position := ⟨1, 1⟩

def after (position : Position) (char : Char) : Position :=
  if char = '\n' then ⟨position.line + 1, 1⟩ else ⟨position.line, position.column + 1⟩

def advance (position : Position) : List Char → Nat → Position
  | [], _ => position
  | char :: rest, offset =>
      if char.utf8Size ≤ offset then advance (position.after char) rest (offset - char.utf8Size)
      else position

/-- Locate a byte offset of a text. An offset beyond the end locates the end. -/
def ofOffset (text : String) (offset : Nat) : Position :=
  first.advance text.toList offset

end Position

structure Span where
  start : Nat
  stop : Nat
deriving Repr, DecidableEq, Inhabited

namespace Span

def zero : Span := ⟨0, 0⟩

def cover (left right : Span) : Span :=
  ⟨min left.start right.start, max left.stop right.stop⟩

end Span

end Schemata
