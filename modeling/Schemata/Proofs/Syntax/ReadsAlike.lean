import Schemata.Proofs.Syntax.Comments

/-!
# Reading with and without comments

Two readers stand side by side: one skips comments, the other one refuses them. On a text in which
no comment is found they read the same, and what the second one reads holds no comment.
-/

set_option autoImplicit false

namespace Schemata.Reading

open Cursor (Clear clear_skip skip_eq)

/--
From the cursor on, both readers come to the same if no comment is found there. The one that refuses
comments leaves none behind it.
-/
structure ReadsAlike {α : Type} (cursor : Cursor) (skipping refusing : Reading (α × Cursor)) :
    Prop where
  same : Uncommented cursor.rest → skipping = refusing
  clear : ∀ value after, refusing = .ok (value, after) → Clear cursor after

namespace ReadsAlike

variable {α β : Type} {cursor start after : Cursor} {skipping refusing other : Reading (α × Cursor)}

theorem ok (value : α) (clear : Clear cursor after) :
    ReadsAlike cursor (.ok (value, after)) (.ok (value, after)) where
  same _ := rfl
  clear _ _ read := by
    cases read
    exact clear

theorem error (error : SyntaxError) :
    ReadsAlike cursor (.error error : Reading (α × Cursor)) (.error error) where
  same _ := rfl
  clear _ _ read := nomatch read

theorem word {read : Reading (α × Cursor)}
    (clear : ∀ value after, read = .ok (value, after) → Clear cursor after) :
    ReadsAlike cursor read read :=
  ⟨fun _ => rfl, clear⟩

theorem orMiss {read : Option (α × Cursor)} {here : Cursor} {what : Expected}
    (clear : ∀ value after, read = some (value, after) → Clear cursor after) :
    ReadsAlike cursor (Reading.orMiss read here what) (Reading.orMiss read here what) :=
  .word fun value after found => clear value after (orMiss_eq_ok.1 found)

theorem congr (same : Uncommented cursor.rest → skipping = other)
    (alike : ReadsAlike cursor other refusing) : ReadsAlike cursor skipping refusing :=
  ⟨fun uncommented => (same uncommented).trans (alike.same uncommented), alike.clear⟩

theorem behind (clear : Clear cursor start) (alike : ReadsAlike start skipping refusing) :
    ReadsAlike cursor skipping refusing :=
  ⟨fun uncommented => alike.same (clear.1 uncommented),
    fun value after read => clear.trans (alike.clear value after read)⟩

theorem skip (same : cursor.skip true = cursor.skip false → skipping = other)
    (alike : ReadsAlike (cursor.skip false) other refusing) : ReadsAlike cursor skipping refusing :=
  .congr (fun uncommented => same (skip_eq uncommented)) (.behind (clear_skip cursor) alike)

theorem bind {next otherNext : α × Cursor → Reading (β × Cursor)}
    (alike : ReadsAlike cursor skipping refusing)
    (onwards : ∀ value after, ReadsAlike after (next (value, after)) (otherNext (value, after))) :
    ReadsAlike cursor (skipping >>= next) (refusing >>= otherNext) where
  same uncommented := by
    rw [alike.same uncommented]
    cases read : refusing with
    | error => rfl
    | ok result =>
      have clear := alike.clear result.1 result.2 read
      exact (onwards result.1 result.2).same (clear.1 uncommented)
  clear value last read := by
    obtain ⟨⟨first, after⟩, firstRead, read⟩ := Except.bind_eq_ok.1 read
    exact (alike.clear first after firstRead).trans ((onwards first after).clear value last read)

theorem bindWord {read : Reading Cursor} {next otherNext : Cursor → Reading (β × Cursor)}
    (clear : ∀ after, read = .ok after → Clear cursor after)
    (onwards : ∀ after, ReadsAlike after (next after) (otherNext after)) :
    ReadsAlike cursor (read >>= next) (read >>= otherNext) := by
  cases found : read with
  | error fault => exact .error fault
  | ok after => exact .behind (clear after found) (onwards after)

theorem bindChar {char : Char} {what : Expected} {next otherNext : Cursor → Reading (β × Cursor)}
    (ordinary : isOrdinary char = true)
    (onwards : ∀ after, ReadsAlike after (next after) (otherNext after)) :
    ReadsAlike cursor (Reading.char true char what cursor >>= next)
      (Reading.char false char what cursor >>= otherNext) := by
  unfold Reading.char
  refine .skip (fun same => by rw [same]) ?_
  exact .bindWord (fun after sign => Cursor.clear_char? ordinary (orMiss_eq_ok.1 sign)) onwards

end ReadsAlike

theorem ident?_eq {cursor : Cursor} (uncommented : Uncommented cursor.rest) :
    cursor.ident? true = cursor.ident? false := by
  rw [Cursor.ident?, Cursor.ident?, skip_eq uncommented]

theorem clear_ident? {cursor after : Cursor} {name : Ident}
    (read : cursor.ident? false = some (name, after)) : Clear cursor after := by
  obtain ⟨⟨name, _⟩, found, same⟩ := Option.map_eq_some_iff.1 read
  cases same
  exact (clear_skip cursor).trans (Cursor.clear_identifier? found)

theorem ident_alike (what : Expected) (cursor : Cursor) :
    ReadsAlike cursor (ident true what cursor) (ident false what cursor) where
  same uncommented := by rw [ident, ident, ident?_eq uncommented]
  clear _ _ read := clear_ident? (orMiss_eq_ok.1 read)

theorem itemsWith_alike {α : Type} {close : Char} {what : Expected}
    {skipping refusing : Cursor → Reading (α × Cursor)} (closing : isOrdinary close = true)
    (each : ∀ cursor, ReadsAlike cursor (skipping cursor) (refusing cursor)) (fuel : Nat) :
    ∀ cursor, ReadsAlike cursor (itemsWith true close what skipping fuel cursor)
      (itemsWith false close what refusing fuel cursor) := by
  induction fuel with
  | zero => exact fun cursor => .error _
  | succ fuel ih =>
    intro cursor
    rw [itemsWith, itemsWith]
    refine .skip (fun same => by rw [same]) ?_
    cases closed : (cursor.skip false).char? close with
    | some after => exact .ok _ (Cursor.clear_char? closing closed)
    | none =>
      refine (each _).bind fun value after => ?_
      simp only
      refine .skip (fun same => by rw [same]) ?_
      cases comma : (after.skip false).char? ',' with
      | some next =>
        refine .behind (Cursor.clear_char? (by decide) comma) ((ih next).bind fun values last => ?_)
        exact .ok _ (.refl last)
      | none =>
        cases closed : (after.skip false).char? close with
        | some next => exact .ok _ (Cursor.clear_char? closing closed)
        | none => exact .error _

theorem items_alike {α : Type} {close : Char} {what : Expected}
    {skipping refusing : Cursor → Reading (α × Cursor)} (closing : isOrdinary close = true)
    (each : ∀ cursor, ReadsAlike cursor (skipping cursor) (refusing cursor)) (cursor : Cursor) :
    ReadsAlike cursor (items true close what skipping cursor)
      (items false close what refusing cursor) :=
  itemsWith_alike closing each _ cursor

section

variable {cursor after : Cursor}

theorem all_isOrdinary_symbol {op : BinaryOp} (noDivision : op ≠ .div) :
    op.symbol.toList.all isOrdinary = true := by
  cases op with
  | div => exact absurd rfl noDivision
  | _ => rfl

theorem clear_quantifierSign {quantifier : Quantifier} {char : Char} {rest : List Char}
    (chars : cursor.rest = char :: rest) (found : Quantifier.ofSymbol? char = some quantifier)
    (offset : Nat) : Clear cursor ⟨offset, rest⟩ := by
  have ordinary : isOrdinary char = true := by
    unfold Quantifier.ofSymbol? at found
    split at found
    next => rfl
    next => rfl
    next => rfl
    next => cases found
  rw [Clear, chars]
  exact uncommented_cons ordinary

theorem clear_unaryOp? {op : UnaryOp} (read : unaryOp? cursor = some (op, after)) :
    Clear cursor after := by
  unfold unaryOp? at read
  split at read
  next => cases read
  next char rest chars =>
    obtain ⟨_, found, same⟩ := Option.map_eq_some_iff.1 read
    cases same
    have ordinary : isOrdinary char = true := by
      unfold UnaryOp.ofSymbol? at found
      split at found
      next => rfl
      next => rfl
      next => cases found
    rw [Clear, chars]
    exact uncommented_cons ordinary

/--
An operator, and what follows it. The sign of a division is no comment's first one, as what follows
does not start with the second one.
-/
theorem ReadsAlike.operator {α : Type} {skipping refusing : Reading (α × Cursor)}
    {ops : List BinaryOp} {op : BinaryOp} (found : operator? cursor ops = some (op, after))
    (closed : ∀ result, refusing = .ok result → opensComment after.rest = false)
    (alike : ReadsAlike after skipping refusing) : ReadsAlike cursor skipping refusing := by
  have sign := (operator?_eq_some found).2
  -- No other operator has a sign that a comment opens with.
  by_cases isDivision : op = .div
  · subst isDivision
    have chars : cursor.rest = '/' :: after.rest := Cursor.chars?_rest sign
    refine ⟨fun uncommented => alike.same (uncommented_slash.1 (chars ▸ uncommented)).2, ?_⟩
    intro value last read
    rw [Clear, chars, uncommented_slash, and_iff_right (closed _ read)]
    exact alike.clear value last read
  · exact .behind (Cursor.clear_chars? (all_isOrdinary_symbol isDivision) sign) alike

theorem quantifier?_eq (uncommented : Uncommented cursor.rest) :
    quantifier? true cursor = quantifier? false cursor := by
  unfold quantifier?
  split
  next => rfl
  next char rest chars =>
    split
    next => rfl
    next found =>
      have behind :=
        (clear_quantifierSign chars found (cursor.offset + char.utf8Size)).1 uncommented
      simp only
      rw [skip_eq behind]

theorem clear_quantifier? {quantifier : Quantifier}
    (read : quantifier? false cursor = some (quantifier, after)) : Clear cursor after := by
  unfold quantifier? at read
  split at read
  next => cases read
  next char rest chars =>
    split at read
    next => cases read
    next found =>
      obtain ⟨_, bracket, same⟩ := Option.map_eq_some_iff.1 read
      cases same
      exact ((clear_quantifierSign chars found _).trans (clear_skip _)).trans
        (Cursor.clear_char? (by decide) bracket)

theorem label?_eq (uncommented : Uncommented cursor.rest) :
    label? true cursor = label? false cursor := by
  rw [label?, label?, ident?_eq uncommented]
  cases found : cursor.ident? false with
  | none => rfl
  | some read =>
    have behind := (clear_ident? found).1 uncommented
    simp only
    rw [skip_eq behind]

theorem clear_label? {name : Ident} (read : label? false cursor = some (name, after)) :
    Clear cursor after := by
  unfold label? at read
  split at read
  next => cases read
  next found =>
    obtain ⟨_, colon, same⟩ := Option.map_eq_some_iff.1 read
    cases same
    exact ((clear_ident? found).trans (clear_skip _)).trans (Cursor.clear_char? (by decide) colon)

end

section

variable {cursor : Cursor} {fuel : Nat} {result : Expr × Cursor}

theorem noComment_of_unary (read : unaryWith false fuel cursor = .ok result) :
    opensComment cursor.rest = false := by
  obtain ⟨offset, chars⟩ := cursor
  cases opens : opensComment chars with
  | false => rfl
  | true =>
    obtain ⟨char, found, sign⟩ := (Option.any_eq_true _ _).1 opens
    obtain ⟨rest, rfl⟩ := List.head?_eq_some_iff.1 found
    simp only [Bool.or_eq_true, beq_iff_eq] at sign
    cases fuel with
    | zero => cases read
    | succ fuel =>
      have kept : Cursor.skip false ⟨offset, char :: rest⟩ = ⟨offset, char :: rest⟩ := by
        refine Cursor.skip_solid ?_ fun comments => nomatch comments
        rcases sign with rfl | rfl <;> rfl
      have noUnary : unaryOp? ⟨offset, char :: rest⟩ = none := by
        rcases sign with rfl | rfl <;> rfl
      simp only [unaryWith, kept, noUnary] at read
      obtain ⟨_, read, _⟩ := Except.bind_eq_ok.1 read
      cases fuel with
      | zero => cases read
      | succ fuel =>
        rw [primaryWith, kept] at read
        rcases sign with rfl | rfl <;> cases read

theorem noComment_of_binary : ∀ {fuel : Nat} {levels : List (List BinaryOp)}
    {result : Expr × Cursor}, binaryWith false fuel levels cursor = .ok result →
      opensComment cursor.rest = false
  | 0, _, _, read => nomatch read
  | fuel + 1, [], _, read => by
    rw [binaryWith] at read
    exact noComment_of_unary read
  | fuel + 1, ops :: tighter, _, read => by
    rw [binaryWith] at read
    obtain ⟨_, read, _⟩ := Except.bind_eq_ok.1 read
    exact noComment_of_binary read

end

structure AlikeWith (fuel : Nat) : Prop where
  expression : ∀ cursor,
    ReadsAlike cursor (expressionWith true fuel cursor) (expressionWith false fuel cursor)
  binary : ∀ levels cursor,
    ReadsAlike cursor (binaryWith true fuel levels cursor) (binaryWith false fuel levels cursor)
  join : ∀ ops tighter left cursor, ReadsAlike cursor
    (joinWith true fuel ops tighter left cursor) (joinWith false fuel ops tighter left cursor)
  unary : ∀ cursor, ReadsAlike cursor (unaryWith true fuel cursor) (unaryWith false fuel cursor)
  suffixes : ∀ start object cursor, ReadsAlike cursor
    (suffixesWith true fuel start object cursor) (suffixesWith false fuel start object cursor)
  primary : ∀ cursor,
    ReadsAlike cursor (primaryWith true fuel cursor) (primaryWith false fuel cursor)
  argument : ∀ cursor,
    ReadsAlike cursor (argumentWith true fuel cursor) (argumentWith false fuel cursor)

theorem AlikeWith.zero : AlikeWith 0 where
  expression _ := .error _
  binary _ _ := .error _
  join _ _ _ _ := .error _
  unary _ := .error _
  suffixes _ _ _ := .error _
  primary _ := .error _
  argument _ := .error _

namespace AlikeWith

variable {fuel : Nat} (ih : AlikeWith fuel)

include ih

theorem expression_succ (cursor : Cursor) : ReadsAlike cursor
    (expressionWith true (fuel + 1) cursor) (expressionWith false (fuel + 1) cursor) := by
  rw [expressionWith, expressionWith]
  exact ih.binary _ cursor

theorem binary_succ (levels : List (List BinaryOp)) (cursor : Cursor) : ReadsAlike cursor
    (binaryWith true (fuel + 1) levels cursor) (binaryWith false (fuel + 1) levels cursor) := by
  cases levels with
  | nil =>
    rw [binaryWith, binaryWith]
    exact ih.unary cursor
  | cons ops tighter =>
    rw [binaryWith, binaryWith]
    exact (ih.binary tighter cursor).bind fun left cursor => ih.join ops tighter left cursor

theorem join_succ (ops : List BinaryOp) (tighter : List (List BinaryOp)) (left : Expr)
    (cursor : Cursor) : ReadsAlike cursor (joinWith true (fuel + 1) ops tighter left cursor)
      (joinWith false (fuel + 1) ops tighter left cursor) := by
  rw [joinWith, joinWith]
  -- Without an operator behind it the operand ends where it did, before the blanks.
  refine .skip (fun same => by rw [same]) ?_
  cases found : operator? (cursor.skip false) ops with
  | none => exact .ok _ (clear_skip cursor).symm
  | some read =>
    refine .operator found (fun result read => ?_) ((ih.binary tighter read.2).bind ?_)
    · obtain ⟨_, right, _⟩ := Except.bind_eq_ok.1 read
      exact noComment_of_binary right
    · exact fun right cursor => ih.join ops tighter _ cursor

theorem unary_succ (cursor : Cursor) : ReadsAlike cursor
    (unaryWith true (fuel + 1) cursor) (unaryWith false (fuel + 1) cursor) := by
  rw [unaryWith, unaryWith]
  refine .skip (fun same => by rw [same]) ?_
  simp only
  cases found : unaryOp? (cursor.skip false) with
  | some read =>
    refine .behind (clear_unaryOp? found) ((ih.unary read.2).bind fun operand after => ?_)
    exact .ok _ (.refl after)
  | none =>
    exact (ih.primary _).bind fun object after => ih.suffixes _ object after

theorem suffixes_succ (start : Nat) (object : Expr) (cursor : Cursor) : ReadsAlike cursor
    (suffixesWith true (fuel + 1) start object cursor)
    (suffixesWith false (fuel + 1) start object cursor) := by
  rw [suffixesWith, suffixesWith]
  refine .skip (fun same => by rw [same]) ?_
  simp only
  cases point : (cursor.skip false).char? '.' with
  | some after =>
    refine .behind (Cursor.clear_char? (by decide) point) ((ident_alike _ after).bind ?_)
    exact fun name after => ih.suffixes start _ after
  | none =>
    refine .congr (fun uncommented => by rw [quantifier?_eq uncommented]) ?_
    cases found : quantifier? false (cursor.skip false) with
    | none => exact .ok _ (clear_skip cursor).symm
    | some read =>
      refine .behind (clear_quantifier? found) ((ih.expression read.2).bind ?_)
      exact fun condition after => .bindChar (by decide) fun after => ih.suffixes start _ after

theorem primary_succ (cursor : Cursor) : ReadsAlike cursor
    (primaryWith true (fuel + 1) cursor) (primaryWith false (fuel + 1) cursor) := by
  -- Both readers skip to one place and take the same way there, which the first characters tell.
  rw [primaryWith, primaryWith]
  refine .skip (fun same => by rw [same]) ?_
  generalize cursor.skip false = cursor
  simp only
  cases parenthesis : cursor.char? '(' with
  | some after =>
    refine .behind (Cursor.clear_char? (by decide) parenthesis) ((ih.expression after).bind ?_)
    exact fun inner after => .bindChar (by decide) fun after => .ok _ (.refl after)
  | none =>
  cases bracket : cursor.char? '[' with
  | some after =>
    refine .behind (Cursor.clear_char? (by decide) bracket) ?_
    exact (items_alike (by decide) ih.expression after).bind fun values after => .ok _ (.refl after)
  | none =>
  simp only
  split
  next =>
    refine .word fun value after read => ?_
    obtain ⟨⟨text, _⟩, found, same⟩ := Except.bind_eq_ok.1 read
    cases same
    unfold quoted at found
    split at found
    next read =>
      cases found
      exact Cursor.clear_quoted? read
    next => cases found
  next =>
  split
  next => exact .ok _ (Cursor.clear_number cursor)
  next =>
  cases found : cursor.identifier? with
  | none => exact .error _
  | some read =>
  obtain ⟨name, after⟩ := read
  refine .behind (Cursor.clear_identifier? found) ?_
  simp only
  cases word : reserved? name ⟨cursor.offset, after.offset⟩ with
  | some word => exact .ok _ (.refl after)
  | none =>
  refine .skip (fun same => by rw [same]) ?_
  cases parenthesis : (after.skip false).char? '(' with
  | none => exact .ok _ (clear_skip after).symm
  | some inside =>
    refine .behind (Cursor.clear_char? (by decide) parenthesis) ?_
    exact (items_alike (by decide) ih.argument inside).bind fun values close => .ok _ (.refl close)

theorem argument_succ (cursor : Cursor) : ReadsAlike cursor
    (argumentWith true (fuel + 1) cursor) (argumentWith false (fuel + 1) cursor) := by
  rw [argumentWith, argumentWith]
  refine .congr (fun uncommented => by rw [label?_eq uncommented]) ?_
  cases found : label? false cursor with
  | some read =>
    refine .behind (clear_label? found) ((ih.expression read.2).bind fun value after => ?_)
    exact .ok _ (.refl after)
  | none => exact (ih.expression cursor).bind fun value after => .ok _ (.refl after)

theorem succ : AlikeWith (fuel + 1) where
  expression := ih.expression_succ
  binary := ih.binary_succ
  join := ih.join_succ
  unary := ih.unary_succ
  suffixes := ih.suffixes_succ
  primary := ih.primary_succ
  argument := ih.argument_succ

end AlikeWith

theorem alikeWith : ∀ fuel : Nat, AlikeWith fuel
  | 0 => .zero
  | fuel + 1 => (alikeWith fuel).succ

theorem expression_alike (cursor : Cursor) :
    ReadsAlike cursor (expression true cursor) (expression false cursor) :=
  (alikeWith _).expression cursor

theorem arguments_alike (cursor : Cursor) :
    ReadsAlike cursor (arguments true cursor) (arguments false cursor) :=
  items_alike (by decide) (alikeWith _).argument cursor

end Schemata.Reading
