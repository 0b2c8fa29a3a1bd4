import Schemata.Proofs.Syntax.Formatting

set_option autoImplicit false

namespace Schemata

/-- Looking for comments finds none in the text, which starts outside of quotes. -/
def Uncommented (chars : List Char) : Prop :=
  commentOffsetsFrom .code 0 chars = []

theorem commentOffsetsFrom_add (chars : List Char) : ∀ part offset shift,
    commentOffsetsFrom part (offset + shift) chars =
      (commentOffsetsFrom part offset chars).map (· + shift) := by
  induction chars with
  | nil =>
    intro part offset shift
    cases part <;> rfl
  | cons char rest ih =>
    intro part offset shift
    have next : offset + shift + char.utf8Size = offset + char.utf8Size + shift :=
      Nat.add_right_comm _ _ _
    cases part <;> simp only [commentOffsetsFrom, next, ih, apply_ite (List.map _), List.map_cons]

theorem uncommented_iff {chars : List Char} (part : TextPart) (offset other : Nat) :
    commentOffsetsFrom part offset chars = [] ↔ commentOffsetsFrom part other chars = [] := by
  have shifted (offset : Nat) :
      commentOffsetsFrom part offset chars = [] ↔ commentOffsetsFrom part 0 chars = [] := by
    have places := commentOffsetsFrom_add chars part 0 offset
    rw [Nat.zero_add] at places
    rw [places, List.map_eq_nil_iff]
  rw [shifted offset, shifted other]

theorem uncommented_cons {char : Char} {rest : List Char} (ordinary : isOrdinary char = true) :
    Uncommented (char :: rest) ↔ Uncommented rest := by
  rw [Uncommented, commentOffsetsFrom_ordinary ordinary]
  exact uncommented_iff .code _ 0

theorem uncommented_append {run rest : List Char}
    (ordinary : ∀ char ∈ run, isOrdinary char = true) :
    Uncommented (run ++ rest) ↔ Uncommented rest := by
  induction run with
  | nil => exact Iff.rfl
  | cons char run ih =>
    rw [List.forall_mem_cons] at ordinary
    exact (uncommented_cons ordinary.1).trans (ih ordinary.2)

def opensComment (rest : List Char) : Bool :=
  rest.head?.any fun char => char == '/' || char == '*'

theorem uncommented_slash {rest : List Char} :
    Uncommented ('/' :: rest) ↔ opensComment rest = false ∧ Uncommented rest := by
  have code : Uncommented rest ↔ commentOffsetsFrom .code (0 + Char.utf8Size '/') rest = [] :=
    uncommented_iff .code 0 _
  rw [code, Uncommented, commentOffsetsFrom, if_neg (by decide)]
  cases rest with
  | nil => simp [opensComment]
  | cons char rest =>
    by_cases slash : char = '/'
    · simp [opensComment, slash]
    · by_cases star : char = '*'
      · simp [opensComment, star]
      · simp [opensComment, slash, star]

theorem uncommented_quoted {delimiter : Char} (noBackslash : delimiter ≠ '\\') {body : List Char} :
    ∀ {escaped text rest}, Quoted.decode delimiter escaped body = some (text, rest) →
      (commentOffsetsFrom (if escaped then .escaped delimiter else .quoted delimiter) 0 body = [] ↔
        Uncommented rest) := by
  -- The search for comments and the reader of quoted texts go through the text in step: both are
  -- behind a backslash, or neither is.
  induction body with
  | nil =>
    intro escaped text rest decoded
    cases escaped <;> cases decoded
  | cons char body ih =>
    intro escaped text rest decoded
    have onwards {escaped : Bool} {text : List Char}
        (decoded : Quoted.decode delimiter escaped body = some (text, rest)) (offset : Nat) :
        commentOffsetsFrom (if escaped then .escaped delimiter else .quoted delimiter) offset body =
          [] ↔ Uncommented rest :=
      (uncommented_iff _ _ 0).trans (ih decoded)
    cases escaped with
    | true =>
      obtain ⟨⟨inner, _⟩, decoded, same⟩ := Option.map_eq_some_iff.1 decoded
      cases same
      exact onwards decoded _
    | false =>
      rw [Quoted.decode] at decoded
      rw [if_neg Bool.false_ne_true, commentOffsetsFrom]
      by_cases closing : char = delimiter
      · rw [if_pos closing] at decoded
        cases decoded
        rw [if_neg (closing ▸ noBackslash), if_pos closing]
        exact uncommented_iff .code _ 0
      · rw [if_neg closing] at decoded
        by_cases backslash : char = '\\'
        · rw [if_pos backslash] at decoded ⊢
          exact onwards decoded _
        · rw [if_neg backslash] at decoded ⊢
          rw [if_neg closing]
          split at decoded
          next => cases decoded
          next =>
            obtain ⟨⟨inner, _⟩, decoded, same⟩ := Option.map_eq_some_iff.1 decoded
            cases same
            exact onwards decoded _

namespace Cursor

def Clear (before after : Cursor) : Prop :=
  Uncommented before.rest ↔ Uncommented after.rest

theorem Clear.refl (cursor : Cursor) : Clear cursor cursor :=
  Iff.rfl

theorem Clear.trans {first second third : Cursor} (here : Clear first second)
    (behind : Clear second third) : Clear first third :=
  Iff.trans here behind

variable {cursor after : Cursor}

theorem clear_char? {char : Char} (ordinary : isOrdinary char = true)
    (read : cursor.char? char = some after) : Clear cursor after := by
  rw [Clear, char?_rest read]
  exact uncommented_cons ordinary

theorem clear_chars? {chars : List Char} (ordinary : chars.all isOrdinary = true)
    (read : cursor.chars? chars = some after) : Clear cursor after := by
  rw [Clear, chars?_rest read]
  exact uncommented_append (List.all_eq_true.1 ordinary)

theorem clear_takeWhile {test : Char → Bool}
    (ordinary : ∀ char, test char = true → isOrdinary char = true) :
    Clear cursor (cursor.takeWhile test).2 := by
  have whole := List.takeWhile_append_dropWhile (p := test) (l := cursor.rest)
  have run : ∀ char ∈ cursor.rest.takeWhile test, isOrdinary char = true :=
    fun char found => ordinary char (List.all_eq_true.1 List.all_takeWhile char found)
  rw [Clear, ← whole]
  exact uncommented_append run

theorem clear_identifier? {name : String} (read : cursor.identifier? = some (name, after)) :
    Clear cursor after := by
  unfold identifier? at read
  split at read
  next => cases read
  next =>
    split at read
    next =>
      cases read
      exact clear_takeWhile fun _ => isOrdinary_of_isIdentPart
    next => cases read

theorem clear_keyword? {word : String} (ordinary : word.toList.all isOrdinary = true)
    (read : cursor.keyword? word = some after) : Clear cursor after := by
  unfold keyword? at read
  split at read
  next behind found =>
    have clear := clear_chars? ordinary found
    split at read
    next =>
      split at read
      next => cases read
      next =>
        cases read
        exact clear
    next =>
      cases read
      exact clear
  next => cases read

theorem isOrdinary_of_isDigit {char : Char} (digit : char.isDigit = true) :
    isOrdinary char = true :=
  isOrdinary_of_isIdentPart (isIdentPart_of_isDigit digit)

theorem clear_number (cursor : Cursor) : Clear cursor cursor.number.2 := by
  have whole : Clear cursor (cursor.takeWhile Char.isDigit).2 :=
    clear_takeWhile fun _ => isOrdinary_of_isDigit
  unfold number
  simp only
  split
  next point found =>
    split
    next => exact whole
    next =>
      exact (whole.trans (clear_char? (by decide) found)).trans
        (clear_takeWhile fun _ => isOrdinary_of_isDigit)
  next => exact whole

theorem clear_quoted? {text : String} (read : cursor.quoted? = some (text, after)) :
    Clear cursor after := by
  unfold quoted? at read
  split at read
  next delimiter body chars =>
    split at read
    next quotes =>
      obtain ⟨⟨inner, behind⟩, decoded, same⟩ := Option.map_eq_some_iff.1 read
      cases same
      have noBackslash : delimiter ≠ '\\' := by
        rcases quotes with rfl | rfl <;> decide
      have inside := uncommented_quoted noBackslash decoded
      rw [Clear, chars, Uncommented, commentOffsetsFrom, if_pos quotes]
      exact (uncommented_iff _ _ 0).trans inside
    next => cases read
  next => cases read

theorem isOrdinary_of_isSkipped {char : Char} (skipped : isSkipped char = true) :
    isOrdinary char = true := by
  simp only [isSkipped, Bool.or_eq_true, beq_iff_eq] at skipped
  rcases skipped with ((rfl | rfl) | rfl) | rfl <;> decide

theorem clear_skip (cursor : Cursor) : Clear cursor (cursor.skip false) := by
  fun_induction skip false cursor with
  | case1 => exact Clear.refl _
  | case2 cursor char rest chars skipped ih =>
    refine Clear.trans ?_ ih
    rw [Clear, chars]
    exact uncommented_cons (isOrdinary_of_isSkipped skipped)
  | case3 _ _ _ _ _ impossible => cases impossible
  | case4 => exact Clear.refl _
  | case5 => exact Clear.refl _

theorem comment?_eq_none (uncommented : Uncommented cursor.rest) : cursor.comment? = none := by
  unfold comment?
  split
  next rest chars =>
    rw [chars, uncommented_slash] at uncommented
    cases uncommented.1
  next rest chars =>
    rw [chars, uncommented_slash] at uncommented
    cases uncommented.1
  next => rfl

theorem skip_eq (uncommented : Uncommented cursor.rest) : cursor.skip true = cursor.skip false := by
  obtain ⟨offset, chars⟩ := cursor
  induction chars generalizing offset with
  | nil => rw [skip, skip]
  | cons char rest ih =>
    cases skipped : isSkipped char with
    | true =>
      rw [skip_blank skipped, skip_blank skipped]
      exact ih _ ((uncommented_cons (isOrdinary_of_isSkipped skipped)).1 uncommented)
    | false =>
      have noComment : (⟨offset, char :: rest⟩ : Cursor).comment? = none :=
        comment?_eq_none uncommented
      rw [skip_solid skipped fun _ => noComment, skip_solid skipped fun _ => noComment]

end Cursor

end Schemata
