import Schemata.Syntax.Ident
import Schemata.Text.Quoted

set_option autoImplicit false

namespace Schemata

structure Cursor where
  offset : Nat
  rest : List Char
deriving Repr, Inhabited

namespace Cursor

def ofText (text : String) : Cursor := ⟨0, text.toList⟩

def takeWhile (cursor : Cursor) (test : Char → Bool) : List Char × Cursor :=
  let taken := cursor.rest.takeWhile test
  (taken, ⟨cursor.offset + byteLength taken, cursor.rest.dropWhile test⟩)

def char? (cursor : Cursor) (char : Char) : Option Cursor :=
  match cursor.rest with
  | [] => none
  | first :: rest => if first = char then some ⟨cursor.offset + char.utf8Size, rest⟩ else none

def chars? (cursor : Cursor) : List Char → Option Cursor
  | [] => some cursor
  | char :: chars => (cursor.char? char).bind fun cursor => cursor.chars? chars

theorem char?_rest {cursor after : Cursor} {char : Char} (read : cursor.char? char = some after) :
    cursor.rest = char :: after.rest := by
  unfold char? at read
  split at read
  · simp at read
  · split at read
    · cases read; simp_all
    · simp at read

theorem chars?_rest {cursor after : Cursor} {chars : List Char}
    (read : cursor.chars? chars = some after) : cursor.rest = chars ++ after.rest := by
  induction chars generalizing cursor with
  | nil => simp_all [chars?]
  | cons char chars ih =>
      obtain ⟨next, first, others⟩ := Option.bind_eq_some_iff.1 read
      simp [char?_rest first, ih others]

def isSkipped (char : Char) : Bool :=
  char == ' ' || char == '\t' || char == '\r' || char == '\n'

/--
Find the end of a line, before its line feed or carriage return and line feed. A carriage return
that stands alone ends no line, and the line is refused.
-/
def lineEnd? (offset : Nat) : List Char → Option Cursor
  | [] => some ⟨offset, []⟩
  | '\n' :: rest => some ⟨offset, '\n' :: rest⟩
  | '\r' :: '\n' :: rest => some ⟨offset, '\r' :: '\n' :: rest⟩
  | '\r' :: _ => none
  | char :: rest => lineEnd? (offset + char.utf8Size) rest

def blockEnd? (offset : Nat) : List Char → Option Cursor
  | [] => none
  | '*' :: '/' :: rest => some ⟨offset + 2, rest⟩
  | char :: rest => blockEnd? (offset + char.utf8Size) rest

/-- Read a comment: `//` up to the end of the line, or `/*` up to the next `*/`. -/
def comment? (cursor : Cursor) : Option Cursor :=
  match cursor.rest with
  | '/' :: '/' :: rest => lineEnd? (cursor.offset + 2) rest
  | '/' :: '*' :: rest => blockEnd? (cursor.offset + 2) rest
  | _ => none

theorem length_lineEnd?_le {offset : Nat} {chars : List Char} {after : Cursor}
    (found : lineEnd? offset chars = some after) : after.rest.length ≤ chars.length := by
  fun_induction lineEnd? offset chars with
  | case1 | case2 | case3 => cases found; simp
  | case4 => simp at found
  | case5 _ _ _ _ _ _ ih => exact Nat.le_succ_of_le (ih found)

theorem length_blockEnd?_le {offset : Nat} {chars : List Char} {after : Cursor}
    (found : blockEnd? offset chars = some after) : after.rest.length ≤ chars.length := by
  fun_induction blockEnd? offset chars with
  | case1 => simp at found
  | case2 => cases found; simp; omega
  | case3 _ _ _ _ ih => exact Nat.le_succ_of_le (ih found)

theorem length_comment?_lt {cursor after : Cursor} (found : cursor.comment? = some after) :
    after.rest.length < cursor.rest.length := by
  unfold comment? at found
  split at found
  · have := length_lineEnd?_le found; simp_all; omega
  · have := length_blockEnd?_le found; simp_all; omega
  · simp at found

def skip (comments : Bool) (cursor : Cursor) : Cursor :=
  match _rest : cursor.rest with
  | [] => cursor
  | char :: rest =>
      if isSkipped char then skip comments ⟨cursor.offset + char.utf8Size, rest⟩
      else if comments then
        match _found : cursor.comment? with
        | some after => skip comments after
        | none => cursor
      else cursor
termination_by cursor.rest.length
decreasing_by
  · simp_all
  · exact length_comment?_lt _found

def identifier? (cursor : Cursor) : Option (String × Cursor) :=
  match cursor.rest with
  | [] => none
  | first :: _ =>
      if isIdentStart first then
        let (name, after) := cursor.takeWhile isIdentPart
        some (String.ofList name, after)
      else none

def ident? (comments : Bool) (cursor : Cursor) : Option (Ident × Cursor) :=
  let cursor := cursor.skip comments
  cursor.identifier?.map fun (name, after) => (⟨name, ⟨cursor.offset, after.offset⟩⟩, after)

def keyword? (cursor : Cursor) (word : String) : Option Cursor :=
  match cursor.chars? word.toList with
  | some after =>
      match after.rest with
      | next :: _ => if isIdentPart next then none else some after
      | [] => some after
  | none => none

def number (cursor : Cursor) : String × Cursor :=
  let (whole, after) := cursor.takeWhile Char.isDigit
  match after.char? '.' with
  | some point =>
      let (fraction, afterFraction) := point.takeWhile Char.isDigit
      if fraction.isEmpty then (String.ofList whole, after)
      else (String.ofList (whole ++ '.' :: fraction), afterFraction)
  | none => (String.ofList whole, after)

def startsQuoted (cursor : Cursor) : Bool :=
  match cursor.rest with
  | char :: _ => char == '"' || char == '\''
  | [] => false

def quoted? (cursor : Cursor) : Option (String × Cursor) :=
  match cursor.rest with
  | delimiter :: body =>
      if delimiter = '"' ∨ delimiter = '\'' then
        (Quoted.decode delimiter false body).map fun (text, rest) =>
          (String.ofList text, ⟨cursor.offset + (byteLength cursor.rest - byteLength rest), rest⟩)
      else none
  | [] => none

end Cursor

end Schemata
