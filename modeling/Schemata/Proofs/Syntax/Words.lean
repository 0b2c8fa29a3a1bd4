import Schemata.Syntax.Cursor

set_option autoImplicit false

namespace Schemata

theorem ne_of_test {test : Char → Bool} {first char : Char} (passes : test first = true)
    (fails : test char = false) : first ≠ char := by
  rintro rfl
  rw [passes] at fails
  cases fails

theorem takeWhile_append_stop {test : Char → Bool} {run rest : List Char}
    (all : ∀ char ∈ run, test char = true) (stop : rest.head?.any test = false) :
    (run ++ rest).takeWhile test = run := by
  rw [List.takeWhile_append_of_pos all]
  cases rest with
  | nil => simp
  | cons char rest =>
    have fails : test char = false := by simpa using stop
    simp [fails]

theorem dropWhile_append_stop {test : Char → Bool} {run rest : List Char}
    (all : ∀ char ∈ run, test char = true) (stop : rest.head?.any test = false) :
    (run ++ rest).dropWhile test = rest := by
  rw [List.dropWhile_append_of_pos all]
  cases rest with
  | nil => rfl
  | cons char rest =>
    have fails : test char = false := by simpa using stop
    simp [fails]

namespace Cursor

theorem takeWhile_run {test : Char → Bool} {run rest : List Char} (offset : Nat)
    (all : ∀ char ∈ run, test char = true) (stop : rest.head?.any test = false) :
    (⟨offset, run ++ rest⟩ : Cursor).takeWhile test = (run, ⟨offset + byteLength run, rest⟩) := by
  rw [takeWhile, takeWhile_append_stop all stop, dropWhile_append_stop all stop]

@[simp] theorem char?_cons_self (offset : Nat) (char : Char) (rest : List Char) :
    (⟨offset, char :: rest⟩ : Cursor).char? char = some ⟨offset + char.utf8Size, rest⟩ := by
  simp [char?]

theorem char?_of_ne {offset : Nat} {first char : Char} {rest : List Char} (differ : first ≠ char) :
    (⟨offset, first :: rest⟩ : Cursor).char? char = none := by
  simp [char?, differ]

theorem char?_of_head {offset : Nat} {char : Char} {rest : List Char}
    (differ : rest.head? ≠ some char) : (⟨offset, rest⟩ : Cursor).char? char = none := by
  cases rest with
  | nil => rfl
  | cons first rest => exact char?_of_ne fun same => differ (by rw [same, List.head?_cons])

theorem chars?_append (chars rest : List Char) : ∀ offset : Nat,
    (⟨offset, chars ++ rest⟩ : Cursor).chars? chars = some ⟨offset + byteLength chars, rest⟩ := by
  induction chars with
  | nil => intro offset; rfl
  | cons char chars ih =>
    intro offset
    rw [List.cons_append, chars?, char?_cons_self, Option.bind_some, ih, byteLength_cons,
      Nat.add_assoc]

theorem chars?_eq_none {offset : Nat} {chars rest : List Char} (differ : ¬ chars <+: rest) :
    (⟨offset, rest⟩ : Cursor).chars? chars = none := by
  cases found : (⟨offset, rest⟩ : Cursor).chars? chars with
  | none => rfl
  | some after =>
    have same : rest = chars ++ after.rest := chars?_rest found
    exact absurd ⟨after.rest, same.symm⟩ differ

theorem isSkipped_of_test {test : Char → Bool} {char : Char} (passes : test char = true)
    (fails : [' ', '\t', '\r', '\n'].any test = false) : isSkipped char = false := by
  simp only [List.any_cons, List.any_nil, Bool.or_eq_false_iff] at fails
  obtain ⟨space, tab, carriage, feed, _⟩ := fails
  simp [isSkipped, ne_of_test passes space, ne_of_test passes tab, ne_of_test passes carriage,
    ne_of_test passes feed]

def Leads (comments : Bool) (chars next : List Char) : Prop :=
  ∀ offset, ∃ after, skip comments ⟨offset, chars⟩ = ⟨after, next⟩

section

variable {comments : Bool} {chars next rest : List Char} {char : Char}

theorem leads_nil : Leads comments [] [] := by
  intro offset
  refine ⟨offset, ?_⟩
  rw [skip]

theorem length_skip_le (comments : Bool) (cursor : Cursor) :
    (cursor.skip comments).rest.length ≤ cursor.rest.length := by
  fun_induction skip comments cursor with
  | case1 => exact Nat.le_refl _
  | case2 _ _ _ _ _ ih => simp_all; omega
  | case3 _ _ _ _ _ _ _ found ih => exact Nat.le_trans ih (Nat.le_of_lt (length_comment?_lt found))
  | case4 => exact Nat.le_refl _
  | case5 => exact Nat.le_refl _

theorem Leads.length_le (leads : Leads comments chars next) : next.length ≤ chars.length := by
  obtain ⟨after, same⟩ := leads 0
  have bound := length_skip_le comments ⟨0, chars⟩
  rwa [same] at bound

theorem skip_blank {offset : Nat} (skipped : isSkipped char = true) :
    skip comments ⟨offset, char :: rest⟩ = skip comments ⟨offset + char.utf8Size, rest⟩ := by
  rw [skip]
  simp only [skipped, if_true]

theorem Leads.blank (leads : Leads comments chars next) (skipped : isSkipped char = true) :
    Leads comments (char :: chars) next := by
  intro offset
  rw [skip_blank skipped]
  exact leads (offset + char.utf8Size)

theorem Leads.blanks {blanks : List Char} (leads : Leads comments chars next)
    (skipped : ∀ char ∈ blanks, isSkipped char = true) :
    Leads comments (blanks ++ chars) next := by
  induction blanks with
  | nil => exact leads
  | cons char blanks ih =>
    obtain ⟨first, others⟩ := List.forall_mem_cons.1 skipped
    exact (ih others).blank first

theorem skip_solid {offset : Nat} (kept : isSkipped char = false)
    (noComment : comments = true → (⟨offset, char :: rest⟩ : Cursor).comment? = none) :
    skip comments ⟨offset, char :: rest⟩ = ⟨offset, char :: rest⟩ := by
  rw [skip]
  simp only [kept, Bool.false_eq_true, if_false]
  split
  next skipping =>
    split
    next after found =>
      rw [noComment skipping] at found
      cases found
    next => rfl
  next => rfl

theorem leads_solid (kept : isSkipped char = false)
    (noComment : ∀ offset, (⟨offset, char :: rest⟩ : Cursor).comment? = none) :
    Leads comments (char :: rest) (char :: rest) :=
  fun offset => ⟨offset, skip_solid kept fun _ => noComment offset⟩

theorem leads_of_ne_slash (kept : isSkipped char = false) (noSlash : char ≠ '/') :
    Leads comments (char :: rest) (char :: rest) := by
  apply leads_solid kept
  intro offset
  unfold comment?
  split
  next same => exact absurd (List.cons.inj same).1 noSlash
  next same => exact absurd (List.cons.inj same).1 noSlash
  next => rfl

theorem leads_slash_space : Leads comments ('/' :: ' ' :: rest) ('/' :: ' ' :: rest) :=
  leads_solid rfl fun _ => rfl

end

end Cursor

structure IsName (name : String) : Prop where
  start : name.toList.head?.any isIdentStart = true
  parts : ∀ char ∈ name.toList, isIdentPart char = true

theorem IsName.of_all {name : String} (start : name.toList.head?.any isIdentStart = true)
    (parts : name.toList.all isIdentPart = true) : IsName name :=
  ⟨start, List.all_eq_true.1 parts⟩

theorem IsName.exists_cons {name : String} (isName : IsName name) :
    ∃ first others, name.toList = first :: others ∧ isIdentStart first = true := by
  have start := isName.start
  cases chars : name.toList with
  | nil => simp [chars] at start
  | cons first others => exact ⟨first, others, rfl, by simpa [chars] using start⟩

namespace Cursor

theorem isName_of_identifier? {cursor after : Cursor} {name : String}
    (read : cursor.identifier? = some (name, after)) : IsName name := by
  unfold identifier? at read
  split at read
  · cases read
  next first rest chars =>
    split at read
    next start =>
      cases read
      have part := isIdentPart_of_isIdentStart first start
      constructor
      · simp [chars, part, start]
      · intro char found
        rw [String.toList_ofList] at found
        exact List.all_eq_true.1 List.all_takeWhile char found
    next => cases read

theorem identifier?_name {name : String} {rest : List Char} (offset : Nat) (isName : IsName name)
    (stop : rest.head?.any isIdentPart = false) :
    (⟨offset, name.toList ++ rest⟩ : Cursor).identifier? =
      some (name, ⟨offset + byteLength name.toList, rest⟩) := by
  obtain ⟨first, others, chars, start⟩ := isName.exists_cons
  have run := takeWhile_run offset isName.parts stop
  unfold identifier?
  rw [chars, List.cons_append]
  rw [chars, List.cons_append] at run
  -- The first character is looked at, but the run takes it again with all others.
  simp only [start, if_true, run]
  rw [← chars, String.ofList_toList]

theorem leads_name (comments : Bool) {name : String} (isName : IsName name) (rest : List Char) :
    Leads comments (name.toList ++ rest) (name.toList ++ rest) := by
  obtain ⟨first, others, chars, start⟩ := isName.exists_cons
  rw [chars, List.cons_append]
  exact leads_of_ne_slash (isSkipped_of_test start rfl) (ne_of_test start (by decide))

theorem ident?_name {comments : Bool} {name : String} {chars rest : List Char} (offset : Nat)
    (isName : IsName name) (leads : Leads comments chars (name.toList ++ rest))
    (stop : rest.head?.any isIdentPart = false) :
    ∃ span after, ident? comments ⟨offset, chars⟩ = some (⟨name, span⟩, ⟨after, rest⟩) := by
  obtain ⟨start, skipped⟩ := leads offset
  refine ⟨⟨start, start + byteLength name.toList⟩, start + byteLength name.toList, ?_⟩
  rw [ident?, skipped]
  simp only [identifier?_name start isName stop, Option.map_some]

theorem isName_of_ident? {comments : Bool} {cursor after : Cursor} {ident : Ident}
    (read : cursor.ident? comments = some (ident, after)) : IsName ident.name := by
  obtain ⟨⟨name, _⟩, found, same⟩ := Option.map_eq_some_iff.1 read
  cases same
  exact isName_of_identifier? found

end Cursor

def IsNumber (text : String) : Prop :=
  ∃ whole : List Char, whole ≠ [] ∧ (∀ char ∈ whole, char.isDigit = true) ∧
    (text.toList = whole ∨ ∃ fraction : List Char, fraction ≠ [] ∧
      (∀ char ∈ fraction, char.isDigit = true) ∧ text.toList = whole ++ '.' :: fraction)

theorem IsNumber.exists_cons {text : String} (isNumber : IsNumber text) :
    ∃ first others, text.toList = first :: others ∧ first.isDigit = true := by
  obtain ⟨whole, nonempty, digits, same⟩ := isNumber
  cases whole with
  | nil => exact absurd rfl nonempty
  | cons first behind =>
    have digit := digits first List.mem_cons_self
    rcases same with same | ⟨fraction, _, _, same⟩
    · exact ⟨first, _, same, digit⟩
    · exact ⟨first, _, same, digit⟩

namespace Cursor

theorem isNumber_number {cursor : Cursor} (digit : cursor.rest.head?.any Char.isDigit = true) :
    IsNumber cursor.number.1 := by
  have whole : (cursor.takeWhile Char.isDigit).1 ≠ [] := by
    cases chars : cursor.rest with
    | nil => simp [chars] at digit
    | cons first rest =>
      have isDigit : first.isDigit = true := by simpa [chars] using digit
      simp [takeWhile, chars, isDigit]
  have digits (cursor : Cursor) :
      ∀ char ∈ (cursor.takeWhile Char.isDigit).1, char.isDigit = true :=
    fun char found => List.all_eq_true.1 List.all_takeWhile char found
  refine ⟨_, whole, digits cursor, ?_⟩
  unfold number
  simp only
  split
  next point found =>
    split
    next => exact .inl String.toList_ofList
    next present =>
      refine .inr ⟨_, ?_, digits point, String.toList_ofList⟩
      simpa using present
  next => exact .inl String.toList_ofList

theorem isIdentPart_of_isDigit {char : Char} (digit : char.isDigit = true) :
    isIdentPart char = true := by
  simp [isIdentPart, Char.isAlphanum, digit]

theorem number_text {text : String} {rest : List Char} (offset : Nat) (isNumber : IsNumber text)
    (stop : rest.head?.any isIdentPart = false)
    (noPoint : ∀ digits, rest = '.' :: digits → digits.head?.any Char.isDigit = false) :
    ∃ after, (⟨offset, text.toList ++ rest⟩ : Cursor).number = (text, ⟨after, rest⟩) := by
  -- What ends a number is no part of a name, and so no digit.
  have noDigit : rest.head?.any Char.isDigit = false := by
    cases rest with
    | nil => rfl
    | cons first others =>
      cases digit : first.isDigit with
      | false => simpa using digit
      | true => simp [isIdentPart_of_isDigit digit] at stop
  obtain ⟨whole, nonempty, digits, same | ⟨fraction, someDigits, fractionDigits, same⟩⟩ := isNumber
  · have run := takeWhile_run offset digits noDigit
    refine ⟨offset + byteLength whole, ?_⟩
    unfold number
    rw [same]
    simp only [run]
    rw [← same, String.ofList_toList]
    cases rest with
    | nil => rfl
    | cons first others =>
      by_cases point : first = '.'
      · subst point
        -- A point with no digit behind it is left to what follows the number.
        have noFraction := noPoint others rfl
        have empty : others.takeWhile Char.isDigit = [] := by
          cases others with
          | nil => rfl
          | cons next others => simp_all
        simp [takeWhile, empty]
      · rw [char?_of_ne point]
  · have point : ('.' :: fraction ++ rest).head?.any Char.isDigit = false := rfl
    have wholeRun := takeWhile_run offset digits point
    rw [same, List.append_assoc]
    unfold number
    rw [wholeRun]
    simp only [List.cons_append, char?_cons_self]
    rw [takeWhile_run _ fractionDigits noDigit]
    simp only [List.isEmpty_eq_false_iff.2 someDigits, Bool.false_eq_true, if_false, ← same,
      String.ofList_toList]
    exact ⟨_, rfl⟩

theorem leads_quote (comments : Bool) (text : String) (rest : List Char) :
    Leads comments ((Quoted.quote text).toList ++ rest) ((Quoted.quote text).toList ++ rest) := by
  rw [Quoted.quote, String.toList_ofList, Quoted.encode, List.cons_append, List.cons_append]
  exact leads_of_ne_slash (by decide) (by decide)

theorem quoted?_quote (text : String) (rest : List Char) (offset : Nat) :
    ∃ after, (⟨offset, (Quoted.quote text).toList ++ rest⟩ : Cursor).quoted? =
      some (text, ⟨after, rest⟩) := by
  unfold quoted? Quoted.quote
  rw [String.toList_ofList, Quoted.encode, List.cons_append, List.cons_append, List.append_assoc]
  simp only [true_or, if_true, List.singleton_append, Quoted.decode_flatMap_escape,
    Option.map_some, String.ofList_toList]
  exact ⟨_, rfl⟩

theorem keyword?_word (word : String) {rest : List Char} (offset : Nat)
    (stop : rest.head?.any isIdentPart = false) :
    (⟨offset, word.toList ++ rest⟩ : Cursor).keyword? word =
      some ⟨offset + byteLength word.toList, rest⟩ := by
  rw [keyword?, chars?_append]
  cases rest with
  | nil => rfl
  | cons first others =>
    have noPart : isIdentPart first = false := by simpa using stop
    simp [noPart]

theorem keyword?_name {word name : String} {rest : List Char} (offset : Nat)
    (isName : IsName name) (parts : ∀ char ∈ word.toList, isIdentPart char = true)
    (differ : name ≠ word) (stop : rest.head?.any isIdentPart = false) :
    (⟨offset, name.toList ++ rest⟩ : Cursor).keyword? word = none := by
  unfold keyword?
  split
  next after found =>
    have chars : name.toList ++ rest = word.toList ++ after.rest := chars?_rest found
    split
    next next others behind =>
      split
      next => rfl
      next noPart =>
        have stopWord : after.rest.head?.any isIdentPart = false := by simpa [behind] using noPart
        -- Both words would be all that may stand in a name, up to the first other character.
        have same := congrArg (List.takeWhile isIdentPart) chars
        rw [takeWhile_append_stop isName.parts stop, takeWhile_append_stop parts stopWord] at same
        exact absurd (String.toList_inj.1 same) differ
    next behind =>
      have stopWord : after.rest.head?.any isIdentPart = false := by simp [behind]
      have same := congrArg (List.takeWhile isIdentPart) chars
      rw [takeWhile_append_stop isName.parts stop, takeWhile_append_stop parts stopWord] at same
      exact absurd (String.toList_inj.1 same) differ
  next => rfl

end Cursor

end Schemata
