import Schemata.Syntax.Cursor
import Schemata.Syntax.ParseError

set_option autoImplicit false

namespace Schemata

abbrev Reading := Except SyntaxError

namespace Reading

def miss {α : Type} (cursor : Cursor) (what : Expected) : Reading α :=
  .error ⟨.expected what, cursor.offset⟩

def orMiss {α : Type} (read : Option α) (cursor : Cursor) (what : Expected) : Reading α :=
  match read with
  | some value => .ok value
  | none => miss cursor what

def char (comments : Bool) (char : Char) (what : Expected) (cursor : Cursor) : Reading Cursor :=
  let cursor := cursor.skip comments
  orMiss (cursor.char? char) cursor what

/-- Read an identifier, or refuse the text where the search for it starts. -/
def ident (comments : Bool) (what : Expected) (cursor : Cursor) : Reading (Ident × Cursor) :=
  orMiss (cursor.ident? comments) cursor what

def quoted (cursor : Cursor) : Reading (String × Cursor) :=
  match cursor.quoted? with
  | some read => .ok read
  | none => .error ⟨.unterminatedString, cursor.offset⟩

/--
Read items up to `close`, separated by commas, of which one may stand behind the last item.
An item takes at least one character, so `fuel` beyond the number of characters never runs out.
-/
def itemsWith {α : Type} (comments : Bool) (close : Char) (what : Expected)
    (item : Cursor → Reading (α × Cursor)) : Nat → Cursor → Reading (List α × Cursor)
  | 0, cursor => miss cursor what
  | fuel + 1, cursor =>
      let cursor := cursor.skip comments
      match cursor.char? close with
      | some after => .ok ([], after)
      | none => do
          let (value, cursor) ← item cursor
          let cursor := cursor.skip comments
          match cursor.char? ',' with
          | some after =>
              let (values, cursor) ← itemsWith comments close what item fuel after
              .ok (value :: values, cursor)
          | none =>
              match cursor.char? close with
              | some after => .ok ([value], after)
              | none => miss cursor what

def items {α : Type} (comments : Bool) (close : Char) (what : Expected)
    (item : Cursor → Reading (α × Cursor)) (cursor : Cursor) : Reading (List α × Cursor) :=
  itemsWith comments close what item (cursor.rest.length + 1) cursor

end Reading

end Schemata
