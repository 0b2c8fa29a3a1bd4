import Schemata.Proofs.Result
import Schemata.Proofs.Syntax.Words
import Schemata.Syntax.Printer
import Schemata.Syntax.Reading

set_option autoImplicit false

namespace Schemata

theorem toList_commaSeparated_cons_cons (first second : String) (others : List String) :
    (commaSeparated (first :: second :: others)).toList =
      first.toList ++ ',' :: ' ' :: (commaSeparated (second :: others)).toList := by
  rw [commaSeparated, String.toList_append, String.toList_append, List.append_assoc]
  · rfl
  · exact nofun

theorem length_le_commaSeparated (texts : List String)
    (nonempty : ∀ text ∈ texts, 0 < text.toList.length) :
    texts.length ≤ (commaSeparated texts).toList.length := by
  induction texts with
  | nil => exact Nat.zero_le _
  | cons text others ih =>
    obtain ⟨head, tail⟩ := List.forall_mem_cons.1 nonempty
    cases others with
    | nil => exact head
    | cons second others =>
      have bound := ih tail
      rw [toList_commaSeparated_cons_cons, List.length_append]
      simp only [List.length_cons] at bound ⊢
      omega

theorem prefix_commaSeparated (text : String) (others : List String) :
    text.toList <+: (commaSeparated (text :: others)).toList := by
  cases others with
  | nil => exact List.prefix_refl _
  | cons second others =>
    rw [toList_commaSeparated_cons_cons]
    exact List.prefix_append _ _

theorem length_le_commaSeparated_of_mem {text : String} {texts : List String}
    (found : text ∈ texts) :
    text.toList.length ≤ (commaSeparated texts).toList.length := by
  induction texts with
  | nil => cases found
  | cons first others ih =>
    cases others with
    | nil =>
      obtain rfl : text = first := by simpa using found
      exact Nat.le_refl _
    | cons second others =>
      rw [toList_commaSeparated_cons_cons, List.length_append, List.length_cons, List.length_cons]
      rcases List.mem_cons.1 found with rfl | behind
      · omega
      · have bound := ih behind
        omega

namespace Reading

open Cursor (Leads)

/-- A text that neither is skipped nor closes the list. -/
def IsSolid (close : Char) (text : List Char) : Prop :=
  ∃ first others, text = first :: others ∧ Cursor.isSkipped first = false ∧ first ≠ '/' ∧
    first ≠ close

structure ReadsItem {α : Type} (comments : Bool) (close : Char)
    (item : Cursor → Reading (α × Cursor)) (erase : α → α) (text : List Char) (value : α) :
    Prop where
  solid : IsSolid close text
  reads : ∀ chars ending others offset, Leads comments chars (text ++ ending :: others) →
    ending = ',' ∨ ending = close → ∃ read after,
      item ⟨offset, chars⟩ = .ok (read, ⟨after, ending :: others⟩) ∧ erase read = erase value

section

variable {α : Type} {comments : Bool} {close : Char} {item : Cursor → Reading (α × Cursor)}
  {erase : α → α} {print : α → String}

theorem leads_close (comments : Bool) (closing : close = ')' ∨ close = ']')
    (rest : List Char) :
    Leads comments (close :: rest) (close :: rest) := by
  rcases closing with rfl | rfl <;> exact Cursor.leads_of_ne_slash (by decide) (by decide)

theorem char_of_leads {next : Char} {chars rest : List Char}
    (leads : Leads comments chars (next :: rest)) (what : Expected) (offset : Nat) :
    ∃ after, char comments next what ⟨offset, chars⟩ = .ok ⟨after, rest⟩ := by
  obtain ⟨start, skipped⟩ := leads offset
  refine ⟨start + next.utf8Size, ?_⟩
  simp only [char, skipped, Cursor.char?_cons_self, orMiss]

theorem IsSolid.leads {text : List Char} (solid : IsSolid close text) (comments : Bool)
    (rest : List Char) :
    Leads comments (text ++ rest) (text ++ rest) := by
  obtain ⟨first, others, rfl, kept, noSlash, _⟩ := solid
  exact Cursor.leads_of_ne_slash kept noSlash

theorem IsSolid.length_pos {text : List Char} (solid : IsSolid close text) : 0 < text.length := by
  obtain ⟨first, others, rfl, _⟩ := solid
  exact Nat.succ_pos _

theorem IsSolid.char?_close {text : List Char} (solid : IsSolid close text) (rest : List Char)
    (offset : Nat) : (⟨offset, text ++ rest⟩ : Cursor).char? close = none := by
  obtain ⟨first, others, rfl, _, _, noClose⟩ := solid
  exact Cursor.char?_of_ne noClose

theorem itemsWith_close {chars rest : List Char} (leads : Leads comments chars (close :: rest))
    (what : Expected) (item : Cursor → Reading (α × Cursor)) (offset fuel : Nat) : ∃ after,
      itemsWith comments close what item (fuel + 1) ⟨offset, chars⟩ = .ok ([], ⟨after, rest⟩) := by
  obtain ⟨skipped, skip⟩ := leads offset
  refine ⟨skipped + close.utf8Size, ?_⟩
  simp only [itemsWith, skip, Cursor.char?_cons_self]

variable {text : List Char} {value : α}

theorem ReadsItem.last (reads : ReadsItem comments close item erase text value)
    (closing : close = ')' ∨ close = ']') {chars rest : List Char}
    (leads : Leads comments chars (text ++ close :: rest)) (what : Expected) (offset fuel : Nat) :
    ∃ read after, itemsWith comments close what item (fuel + 1) ⟨offset, chars⟩ =
      .ok ([read], ⟨after, rest⟩) ∧ erase read = erase value := by
  obtain ⟨skipped, skip⟩ := leads offset
  obtain ⟨read, after, itemRead, same⟩ :=
    reads.reads _ close rest skipped (reads.solid.leads _ _) (.inr rfl)
  obtain ⟨next, closed⟩ := leads_close comments closing rest after
  have noComma : close ≠ ',' := by rcases closing with rfl | rfl <;> decide
  refine ⟨read, next + close.utf8Size, ?_, same⟩
  simp only [itemsWith, skip, reads.solid.char?_close, itemRead, Except.ok_bind, closed,
    Cursor.char?_of_ne noComma, Cursor.char?_cons_self]

theorem ReadsItem.next (reads : ReadsItem comments close item erase text value)
    {chars rest : List Char} (leads : Leads comments chars (text ++ ',' :: rest))
    (what : Expected) (offset fuel : Nat) : ∃ read after, erase read = erase value ∧
      ∀ values last, itemsWith comments close what item fuel ⟨after, rest⟩ = .ok (values, last) →
        itemsWith comments close what item (fuel + 1) ⟨offset, chars⟩ =
          .ok (read :: values, last) := by
  obtain ⟨skipped, skip⟩ := leads offset
  obtain ⟨read, after, itemRead, same⟩ :=
    reads.reads _ ',' rest skipped (reads.solid.leads _ _) (.inl rfl)
  have comma : Leads comments (',' :: rest) (',' :: rest) :=
    Cursor.leads_of_ne_slash (by decide) (by decide)
  obtain ⟨next, separated⟩ := comma after
  refine ⟨read, next + ','.utf8Size, same, ?_⟩
  intro values last othersRead
  simp only [itemsWith, skip, reads.solid.char?_close, itemRead, Except.ok_bind, separated,
    Cursor.char?_cons_self, othersRead]

theorem itemsWith_commaSeparated (closing : close = ')' ∨ close = ']') {values : List α}
    (each : ∀ value ∈ values, ReadsItem comments close item erase (print value).toList value)
    (what : Expected) : ∀ chars rest offset fuel,
      Leads comments chars ((commaSeparated (values.map print)).toList ++ close :: rest) →
      values.length < fuel → ∃ read after,
        itemsWith comments close what item fuel ⟨offset, chars⟩ = .ok (read, ⟨after, rest⟩) ∧
          read.map erase = values.map erase := by
  induction values with
  | nil =>
    intro chars rest offset fuel leads enough
    obtain ⟨fuel, rfl⟩ : ∃ less, fuel = less + 1 := ⟨fuel - 1, by simp at enough; omega⟩
    obtain ⟨after, read⟩ := itemsWith_close leads what item offset fuel
    exact ⟨[], after, read, rfl⟩
  | cons value values ih =>
    intro chars rest offset fuel leads enough
    obtain ⟨fuel, rfl⟩ : ∃ less, fuel = less + 1 := ⟨fuel - 1, by simp at enough; omega⟩
    obtain ⟨head, tail⟩ := List.forall_mem_cons.1 each
    cases values with
    | nil =>
      obtain ⟨read, after, itemsRead, same⟩ := head.last closing leads what offset fuel
      exact ⟨[read], after, itemsRead, by simp [same]⟩
    | cons second others =>
      have whole : (commaSeparated ((value :: second :: others).map print)).toList =
          (print value).toList ++
            ',' :: ' ' :: (commaSeparated ((second :: others).map print)).toList :=
        toList_commaSeparated_cons_cons _ _ _
      rw [whole, List.append_assoc, List.cons_append, List.cons_append] at leads
      obtain ⟨read, after, same, goesOn⟩ := head.next leads what offset fuel
      -- Behind the comma and its blank, the joined text goes on with the second item.
      obtain ⟨behind, joined⟩ := prefix_commaSeparated (print second) (others.map print)
      have solid := (tail second List.mem_cons_self).solid.leads comments
        (behind ++ close :: rest)
      rw [← List.append_assoc, joined] at solid
      obtain ⟨values, last, othersRead, others⟩ := ih tail (' ' :: _) rest after fuel
        (solid.blank rfl) (by simp at enough ⊢; omega)
      exact ⟨read :: values, last, goesOn _ _ othersRead, by simp_all⟩

theorem items_commaSeparated (closing : close = ')' ∨ close = ']') {values : List α}
    (each : ∀ value ∈ values, ReadsItem comments close item erase (print value).toList value)
    (what : Expected) (rest : List Char) (offset : Nat) : ∃ read after,
      items comments close what item
        ⟨offset, (commaSeparated (values.map print)).toList ++ close :: rest⟩ =
          .ok (read, ⟨after, rest⟩) ∧ read.map erase = values.map erase := by
  have solid : Leads comments ((commaSeparated (values.map print)).toList ++ close :: rest)
      ((commaSeparated (values.map print)).toList ++ close :: rest) := by
    cases values with
    | nil => exact leads_close comments closing rest
    | cons first others =>
      obtain ⟨behind, joined⟩ := prefix_commaSeparated (print first) (others.map print)
      rw [List.map_cons, ← joined, List.append_assoc]
      exact (each first List.mem_cons_self).solid.leads _ _
  have enough := length_le_commaSeparated (values.map print) (by
    intro text found
    obtain ⟨value, among, rfl⟩ := List.mem_map.1 found
    exact (each value among).solid.length_pos)
  -- There are no more items than characters, as no item is empty.
  refine itemsWith_commaSeparated closing each what _ rest offset _ solid ?_
  rw [List.length_map] at enough
  simp only [List.length_append, List.length_cons]
  omega

end

end Reading

end Schemata
