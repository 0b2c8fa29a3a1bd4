import Mathlib.Data.List.DropRight
import Mathlib.Data.Prod.Lex
import Schemata.Proofs.Syntax.Outline

set_option autoImplicit false

namespace Schemata

@[simp] theorem byteLength_eq_zero {chars : List Char} : byteLength chars = 0 ↔ chars = [] := by
  cases chars with
  | nil => simp
  | cons char rest =>
    have size := char.utf8Size_pos
    simp only [byteLength_cons, reduceCtorEq, iff_false]
    omega

section

variable {before after before' after' : List Char} (same : before ++ after = before' ++ after')

include same

theorem exists_append_of_byteLength_le (le : byteLength before ≤ byteLength before') :
    ∃ between, before' = before ++ between := by
  obtain ⟨between, longer, -⟩ | ⟨between, shorter, -⟩ := List.append_eq_append_iff.1 same
  · exact ⟨between, longer⟩
  · -- Nothing can lie between, since the beginning that is shorter has as many bytes.
    rw [shorter, byteLength_append] at le
    have nothing : between = [] := byteLength_eq_zero.1 (by omega)
    exact ⟨[], by rw [shorter, nothing, List.append_nil, List.append_nil]⟩

theorem exists_cons_of_byteLength_lt (less : byteLength before < byteLength before') :
    ∃ char between, before' = before ++ char :: between := by
  obtain ⟨between, longer⟩ := exists_append_of_byteLength_le same (Nat.le_of_lt less)
  cases between with
  | nil =>
    rw [longer, List.append_nil] at less
    exact absurd less (Nat.lt_irrefl _)
  | cons char between => exact ⟨char, between, longer⟩

theorem eq_of_byteLength_eq (equal : byteLength before = byteLength before') :
    before = before' := by
  obtain ⟨between, longer⟩ := exists_append_of_byteLength_le same (Nat.le_of_eq equal)
  rw [longer, byteLength_append] at equal
  have nothing : between = [] := byteLength_eq_zero.1 (by omega)
  rw [longer, nothing, List.append_nil]

end

namespace Position

instance : LinearOrder Position :=
  LinearOrder.lift' (fun position => toLex (position.line, position.column))
    fun ⟨_, _⟩ ⟨_, _⟩ same => by simpa using same

theorem lt_iff {first second : Position} :
    first < second ↔ first.line < second.line ∨
      first.line = second.line ∧ first.column < second.column :=
  Prod.Lex.toLex_lt_toLex

theorem lt_after (position : Position) (char : Char) : position < position.after char := by
  rw [lt_iff, after]
  split
  · exact .inl (Nat.lt_succ_self _)
  · exact .inr ⟨rfl, Nat.lt_succ_self _⟩

theorem le_foldl_after (position : Position) (chars : List Char) :
    position ≤ chars.foldl after position := by
  induction chars generalizing position with
  | nil => exact le_refl position
  | cons char rest ih => exact (position.lt_after char).le.trans (ih _)

theorem advance_zero (position : Position) (chars : List Char) :
    position.advance chars 0 = position := by
  cases chars with
  | nil => rfl
  | cons char rest => exact if_neg (Nat.not_le.2 char.utf8Size_pos)

theorem advance_append (position : Position) (before rest : List Char) (offset : Nat) :
    position.advance (before ++ rest) (byteLength before + offset) =
      (before.foldl after position).advance rest offset := by
  induction before generalizing position with
  | nil => rw [byteLength_nil, Nat.zero_add, List.nil_append, List.foldl_nil]
  | cons char before ih =>
    have fits : char.utf8Size ≤ byteLength (char :: before) + offset := by
      rw [byteLength_cons]
      omega
    have left : byteLength (char :: before) + offset - char.utf8Size =
        byteLength before + offset := by
      rw [byteLength_cons]
      omega
    rw [List.cons_append, advance, if_pos fits, left, ih, List.foldl_cons]

variable {text : String} {before rest : List Char}

theorem ofOffset_of_append (same : text.toList = before ++ rest) :
    ofOffset text (byteLength before) = before.foldl after first := by
  have moved := advance_append first before rest 0
  rw [Nat.add_zero, advance_zero] at moved
  rw [ofOffset, same, moved]

theorem ofOffset_of_le {offset : Nat} (beyond : byteLength text.toList ≤ offset) :
    ofOffset text offset = text.toList.foldl after first := by
  obtain ⟨more, rfl⟩ := Nat.exists_eq_add_of_le beyond
  have moved := advance_append first text.toList [] more
  rwa [List.append_nil] at moved

theorem foldl_after_first (chars : List Char) :
    chars.foldl after first =
      ⟨chars.count '\n' + 1, (chars.rtakeWhile (· ≠ '\n')).length + 1⟩ := by
  -- The last character is the one that decides whether the column starts again.
  induction chars using List.reverseRecOn with
  | nil => rfl
  | append_singleton chars char ih =>
    rw [List.foldl_append, ih, List.foldl_cons, List.foldl_nil, after, List.count_append]
    by_cases feed : char = '\n'
    · rw [if_pos feed, List.rtakeWhile_concat_neg _ _ _ (by simp [feed]), feed]
      rfl
    · rw [if_neg feed, List.rtakeWhile_concat_pos _ _ _ (by simp [feed]), List.length_append,
        List.count_singleton]
      simp [feed]

theorem ofOffset_eq (same : text.toList = before ++ rest) :
    ofOffset text (byteLength before) =
      ⟨before.count '\n' + 1, (before.rtakeWhile (· ≠ '\n')).length + 1⟩ := by
  rw [ofOffset_of_append same, foldl_after_first]

theorem column_eq_one_iff {offset : Nat} (boundary : IsBoundary text offset) :
    (ofOffset text offset).column = 1 ↔
      offset = 0 ∨ Span.Shows text ⟨offset - 1, offset⟩ "\n" := by
  obtain ⟨before, rest, same, rfl⟩ := boundary
  rw [ofOffset_eq same, Nat.add_eq_right, List.length_eq_zero_iff, List.rtakeWhile_eq_nil_iff]
  constructor
  · intro last
    obtain rfl | ⟨init, char, rfl⟩ := List.eq_nil_or_concat' before
    · exact .inl rfl
    · have feed : char = '\n' := by simpa using last
      subst feed
      have start : byteLength (init ++ ['\n']) - 1 = byteLength init := by
        rw [byteLength_append]
        rfl
      exact .inr ⟨init, rest, same, start.symm, rfl⟩
  · rintro (start | ⟨init, behind, shown, -, stop⟩) nonempty
    · exact absurd (byteLength_eq_zero.1 start) nonempty
    · have last : before = init ++ ['\n'] :=
        eq_of_byteLength_eq (same.symm.trans shown) stop.symm
      simp [last]

theorem strictMonoOn_ofOffset (text : String) :
    StrictMonoOn (ofOffset text) {offset | IsBoundary text offset} := by
  rintro _ ⟨before, rest, same, rfl⟩ _ ⟨before', rest', same', rfl⟩ less
  -- What lies between the two offsets is at least one character, and each moves the position on.
  obtain ⟨char, between, rfl⟩ := exists_cons_of_byteLength_lt (same.symm.trans same') less
  rw [ofOffset_of_append same, ofOffset_of_append same', List.foldl_append, List.foldl_cons]
  exact (lt_after _ char).trans_le (le_foldl_after _ between)

/--
Lines and columns come in the order of the offsets that split no character, and no two such offsets
share them. The column is one at the start of the text and behind every line feed, and nowhere else.
An offset beyond the end has the coordinates of the end.
-/
theorem coordinates_are_faithful (text : String) :
    (∀ first second, IsBoundary text first → IsBoundary text second →
      (ofOffset text first < ofOffset text second ↔ first < second)) ∧
    (∀ first second, IsBoundary text first → IsBoundary text second →
      ofOffset text first = ofOffset text second → first = second) ∧
    (∀ offset, IsBoundary text offset → ((ofOffset text offset).column = 1 ↔
      offset = 0 ∨ Span.Shows text ⟨offset - 1, offset⟩ "\n")) ∧
    ∀ offset, byteLength text.toList ≤ offset →
      ofOffset text offset = ofOffset text (byteLength text.toList) := by
  have ordered := strictMonoOn_ofOffset text
  refine ⟨fun _ _ boundary other => ordered.lt_iff_lt boundary other,
    fun _ _ boundary other => ordered.injOn boundary other,
    fun _ => column_eq_one_iff, fun offset beyond => ?_⟩
  rw [ofOffset_of_le beyond, ofOffset_of_le (Nat.le_refl _)]

end Position

namespace Receipt

/-- A line that ends in two characters, an empty one, and one with a character of three bytes. -/
def lines : String := "\u00e9\r\n\n\u20acx"

end Receipt

theorem Receipt.coordinates_are_faithful_lines :
    IsBoundary lines 3 ∧ IsBoundary lines 5 ∧ IsBoundary lines 8 ∧ byteLength lines.toList = 9 ∧
      Position.ofOffset lines 3 < Position.ofOffset lines 8 ∧
      Position.ofOffset lines 3 ≠ Position.ofOffset lines 8 ∧
      Span.Shows lines ⟨4, 5⟩ "\n" ∧
      Position.ofOffset lines 20 = Position.ofOffset lines 9 := by
  obtain ⟨ordered, apart, restarts, ends⟩ := Position.coordinates_are_faithful lines
  have third : IsBoundary lines 3 := ⟨['\u00e9', '\r'], ['\n', '\n', '\u20ac', 'x'], rfl, rfl⟩
  have fifth : IsBoundary lines 5 := ⟨['\u00e9', '\r', '\n', '\n'], ['\u20ac', 'x'], rfl, rfl⟩
  have eighth : IsBoundary lines 8 := ⟨['\u00e9', '\r', '\n', '\n', '\u20ac'], ['x'], rfl, rfl⟩
  refine ⟨third, fifth, eighth, rfl, (ordered 3 8 third eighth).2 (by decide), ?_, ?_, ?_⟩
  · exact fun same => absurd (apart 3 8 third eighth same) (by decide)
  · exact ((restarts 5 fifth).1 rfl).resolve_left (by decide)
  · exact ends 20 (by decide)

end Schemata
