import Schemata.Proofs.Syntax.DocumentForm
import Schemata.Proofs.Syntax.Follow

set_option autoImplicit false

namespace Schemata

namespace Cursor

structure Passes (cursor : Cursor) (chars : List Char) (after : Cursor) : Prop where
  rest : cursor.rest = chars ++ after.rest
  offset : after.offset = cursor.offset + byteLength chars

def Reaches (cursor after : Cursor) : Prop := ∃ chars, cursor.Passes chars after

variable {cursor middle after : Cursor} {chars others : List Char}

theorem Passes.nil (cursor : Cursor) : cursor.Passes [] cursor := ⟨rfl, rfl⟩

theorem Passes.append (first : cursor.Passes chars middle) (second : middle.Passes others after) :
    cursor.Passes (chars ++ others) after where
  rest := by rw [first.rest, second.rest, List.append_assoc]
  offset := by rw [second.offset, first.offset, byteLength_append, Nat.add_assoc]

theorem Passes.cons {offset : Nat} {char : Char} {rest : List Char}
    (passes : Passes ⟨offset + char.utf8Size, rest⟩ chars after) :
    Passes ⟨offset, char :: rest⟩ (char :: chars) after where
  rest := congrArg (char :: ·) passes.rest
  offset := by rw [passes.offset, byteLength_cons, Nat.add_assoc]

theorem Passes.reaches (passes : cursor.Passes chars after) : cursor.Reaches after :=
  ⟨chars, passes⟩

namespace Reaches

theorem refl (cursor : Cursor) : cursor.Reaches cursor := (Passes.nil cursor).reaches

theorem trans (first : cursor.Reaches middle) (second : middle.Reaches after) :
    cursor.Reaches after := by
  obtain ⟨_, first⟩ := first
  obtain ⟨_, second⟩ := second
  exact (first.append second).reaches

theorem cons {offset : Nat} {char : Char} {rest : List Char}
    (reaches : Reaches ⟨offset + char.utf8Size, rest⟩ after) :
    Reaches ⟨offset, char :: rest⟩ after := by
  obtain ⟨_, passes⟩ := reaches
  exact passes.cons.reaches

theorem offset_le (reaches : cursor.Reaches after) : cursor.offset ≤ after.offset := by
  obtain ⟨_, passes⟩ := reaches
  rw [passes.offset]
  exact Nat.le_add_right _ _

end Reaches

theorem passes_char? {char : Char} (read : cursor.char? char = some after) :
    cursor.Passes [char] after := by
  refine ⟨char?_rest read, ?_⟩
  unfold char? at read
  split at read
  next => cases read
  next =>
    split at read <;> cases read
    rfl

theorem passes_chars? (read : cursor.chars? chars = some after) : cursor.Passes chars after := by
  induction chars generalizing cursor with
  | nil =>
    cases read
    exact .nil _
  | cons char chars ih =>
    obtain ⟨next, first, read⟩ := Option.bind_eq_some_iff.1 read
    exact (passes_char? first).append (ih read)

theorem passes_takeWhile (cursor : Cursor) (test : Char → Bool) :
    cursor.Passes (cursor.takeWhile test).1 (cursor.takeWhile test).2 :=
  ⟨List.takeWhile_append_dropWhile.symm, rfl⟩

theorem passes_identifier? {name : String} (read : cursor.identifier? = some (name, after)) :
    cursor.Passes name.toList after := by
  unfold identifier? at read
  split at read
  next => cases read
  next =>
    split at read <;> cases read
    rw [String.toList_ofList]
    exact passes_takeWhile cursor isIdentPart

theorem passes_keyword? {word : String} (read : cursor.keyword? word = some after) :
    cursor.Passes word.toList after := by
  unfold keyword? at read
  split at read
  next behind found =>
    have passes := passes_chars? found
    split at read
    next =>
      split at read <;> cases read
      exact passes
    next =>
      cases read
      exact passes
  next => cases read

theorem passes_number (cursor : Cursor) : cursor.Passes cursor.number.1.toList cursor.number.2 := by
  have whole := passes_takeWhile cursor Char.isDigit
  unfold number
  simp only
  split
  next point found =>
    split
    next => rwa [String.toList_ofList]
    next =>
      rw [String.toList_ofList]
      exact whole.append ((passes_char? found).append (passes_takeWhile point Char.isDigit))
  next => rwa [String.toList_ofList]

theorem exists_append_of_decode {delimiter : Char} {body : List Char} :
    ∀ {escaped text rest}, Quoted.decode delimiter escaped body = some (text, rest) →
      ∃ raw, body = raw ++ rest := by
  induction body with
  | nil =>
    intro escaped text rest decoded
    cases escaped <;> cases decoded
  | cons char body ih =>
    -- Whatever the character stands for, it is passed over.
    have onwards {escaped : Bool} {text rest : List Char}
        (decoded : Quoted.decode delimiter escaped body = some (text, rest)) :
        ∃ raw, char :: body = raw ++ rest := by
      obtain ⟨raw, same⟩ := ih decoded
      exact ⟨char :: raw, congrArg (char :: ·) same⟩
    intro escaped text rest decoded
    cases escaped with
    | true =>
      obtain ⟨⟨inner, _⟩, decoded, same⟩ := Option.map_eq_some_iff.1 decoded
      cases same
      exact onwards decoded
    | false =>
      rw [Quoted.decode] at decoded
      split at decoded
      next =>
        cases decoded
        exact ⟨[char], rfl⟩
      split at decoded
      next => exact onwards decoded
      split at decoded
      next => cases decoded
      next =>
        obtain ⟨⟨inner, _⟩, decoded, same⟩ := Option.map_eq_some_iff.1 decoded
        cases same
        exact onwards decoded

theorem reaches_quoted? {text : String} (read : cursor.quoted? = some (text, after)) :
    cursor.Reaches after := by
  unfold quoted? at read
  split at read
  next delimiter body chars =>
    split at read
    next =>
      obtain ⟨⟨inner, rest⟩, decoded, same⟩ := Option.map_eq_some_iff.1 read
      cases same
      obtain ⟨raw, rfl⟩ := exists_append_of_decode decoded
      refine ⟨delimiter :: raw, chars, ?_⟩
      simp only [chars, byteLength_cons, byteLength_append]
      omega
    next => cases read
  next => cases read

theorem reaches_lineEnd? {offset : Nat} {chars : List Char}
    (found : lineEnd? offset chars = some after) : Reaches ⟨offset, chars⟩ after := by
  fun_induction lineEnd? offset chars with
  | case1 | case2 | case3 =>
    cases found
    exact .refl _
  | case4 => cases found
  | case5 _ _ _ _ _ _ ih => exact (ih found).cons

theorem reaches_blockEnd? {offset : Nat} {chars : List Char}
    (found : blockEnd? offset chars = some after) : Reaches ⟨offset, chars⟩ after := by
  fun_induction blockEnd? offset chars with
  | case1 => cases found
  | case2 =>
    cases found
    exact ⟨['*', '/'], rfl, rfl⟩
  | case3 _ _ _ _ ih => exact (ih found).cons

theorem reaches_comment? (found : cursor.comment? = some after) : cursor.Reaches after := by
  obtain ⟨offset, chars⟩ := cursor
  unfold comment? at found
  split at found
  next rest same =>
    cases same
    have second : Reaches ⟨offset + 1, '/' :: rest⟩ after := (reaches_lineEnd? found).cons
    exact second.cons
  next rest same =>
    cases same
    have second : Reaches ⟨offset + 1, '*' :: rest⟩ after := (reaches_blockEnd? found).cons
    exact second.cons
  next => cases found

theorem reaches_skip (comments : Bool) (cursor : Cursor) :
    cursor.Reaches (cursor.skip comments) := by
  fun_induction skip comments cursor with
  | case1 | case4 | case5 => exact .refl _
  | case2 cursor char rest chars _ ih =>
    obtain ⟨offset, _⟩ := cursor
    cases chars
    exact ih.cons
  | case3 _ _ _ _ _ _ _ found ih => exact (reaches_comment? found).trans ih

end Cursor

namespace Reading

open Cursor (Passes Reaches)

variable {comments : Bool} {cursor after : Cursor}

theorem reaches_char {char : Char} {what : Expected}
    (read : Reading.char comments char what cursor = .ok after) : cursor.Reaches after :=
  (Cursor.reaches_skip comments cursor).trans (Cursor.passes_char? (orMiss_eq_ok.1 read)).reaches

structure ReadsName (cursor : Cursor) (name : Ident) (after start : Cursor) : Prop where
  reaches : cursor.Reaches start
  passes : start.Passes name.name.toList after
  span : name.span = ⟨start.offset, after.offset⟩

theorem readsName_identifier? {name : String} (found : cursor.identifier? = some (name, after)) :
    ReadsName cursor ⟨name, ⟨cursor.offset, after.offset⟩⟩ after cursor :=
  ⟨.refl cursor, Cursor.passes_identifier? found, rfl⟩

theorem readsName_ident? {name : Ident} (read : cursor.ident? comments = some (name, after)) :
    ReadsName cursor name after (cursor.skip comments) := by
  obtain ⟨⟨word, _⟩, found, same⟩ := Option.map_eq_some_iff.1 read
  cases same
  exact { readsName_identifier? found with reaches := Cursor.reaches_skip comments cursor }

theorem readsName_ident {what : Expected} {name : Ident}
    (read : ident comments what cursor = .ok (name, after)) :
    ReadsName cursor name after (cursor.skip comments) :=
  readsName_ident? (orMiss_eq_ok.1 read)

theorem passes_operator? {op : BinaryOp} {ops : List BinaryOp}
    (found : operator? cursor ops = some (op, after)) : cursor.Passes op.symbol.toList after :=
  Cursor.passes_chars? (operator?_eq_some found).2

theorem reaches_quantifier? {quantifier : Quantifier}
    (read : quantifier? comments cursor = some (quantifier, after)) : cursor.Reaches after := by
  obtain ⟨offset, chars⟩ := cursor
  unfold quantifier? at read
  split at read
  next => cases read
  next char rest same =>
    cases same
    split at read
    next => cases read
    next =>
      obtain ⟨_, bracket, same⟩ := Option.map_eq_some_iff.1 read
      cases same
      exact ((Cursor.reaches_skip comments _).trans (Cursor.passes_char? bracket).reaches).cons

theorem reaches_unaryOp? {op : UnaryOp} (read : unaryOp? cursor = some (op, after)) :
    cursor.Reaches after := by
  obtain ⟨offset, chars⟩ := cursor
  unfold unaryOp? at read
  split at read
  next => cases read
  next char rest same =>
    cases same
    obtain ⟨_, _, same⟩ := Option.map_eq_some_iff.1 read
    cases same
    exact Reaches.cons (.refl _)

theorem exists_readsName_label? {name : Ident}
    (read : label? comments cursor = some (name, after)) :
    ∃ colon, ReadsName cursor name colon (cursor.skip comments) ∧ colon.Reaches after := by
  unfold label? at read
  split at read
  next => cases read
  next behind found =>
    obtain ⟨_, sign, same⟩ := Option.map_eq_some_iff.1 read
    cases same
    exact ⟨behind, readsName_ident? found,
      (Cursor.reaches_skip comments behind).trans (Cursor.passes_char? sign).reaches⟩

theorem reaches_quoted {text : String} (read : quoted cursor = .ok (text, after)) :
    cursor.Reaches after := by
  unfold quoted at read
  split at read
  next found =>
    cases read
    exact Cursor.reaches_quoted? found
  next => cases read

end Reading

end Schemata
