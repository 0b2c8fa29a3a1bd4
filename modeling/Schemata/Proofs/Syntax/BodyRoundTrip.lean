import Schemata.Proofs.Syntax.AttributeRoundTrip

set_option autoImplicit false

namespace Schemata.Reading

open Cursor (Leads)

variable {comments : Bool} {chars rest : List Char}

def AllSkipped (blanks : List Char) : Prop :=
  ∀ char ∈ blanks, Cursor.isSkipped char = true

theorem allSkipped_nil : AllSkipped [] :=
  fun _ found => nomatch found

theorem AllSkipped.append {blanks others : List Char} (first : AllSkipped blanks)
    (second : AllSkipped others) : AllSkipped (blanks ++ others) :=
  fun char found => (List.mem_append.1 found).elim (first char) (second char)

theorem allSkipped_indent : AllSkipped [' ', ' ', ' ', ' '] :=
  List.all_eq_true.1 rfl

theorem allSkipped_newline : AllSkipped ['\n'] :=
  List.all_eq_true.1 rfl

/-- Behind the end of a line, the body goes on with a name or with two signs, or it is closed. -/
def BodyAhead (comments : Bool) (rest : List Char) : Prop :=
  ∃ next, Leads comments rest next ∧
    ((∃ first others, next = first :: others ∧ isIdentStart first = true) ∨
      (∃ others, next = '@' :: '@' :: others) ∨ ∃ others, next = '\x7d' :: others)

theorem BodyAhead.blanks {blanks : List Char} (ahead : BodyAhead comments rest)
    (skipped : AllSkipped blanks) : BodyAhead comments (blanks ++ rest) := by
  obtain ⟨next, leads, form⟩ := ahead
  exact ⟨next, leads.blanks skipped, form⟩

theorem bodyAhead_close : BodyAhead comments ('\x7d' :: rest) :=
  ⟨_, Cursor.leads_of_ne_slash (by decide) (by decide), .inr (.inr ⟨rest, rfl⟩)⟩

theorem bodyAhead_name {name : String} (isName : IsName name) :
    BodyAhead comments (name.toList ++ rest) := by
  obtain ⟨first, others, chars, start⟩ := isName.exists_cons
  refine ⟨_, Cursor.leads_name comments isName rest, .inl ⟨first, others ++ rest, ?_, start⟩⟩
  rw [chars, List.cons_append]

theorem bodyAhead_signs : BodyAhead comments ('@' :: '@' :: rest) :=
  ⟨_, Cursor.leads_of_ne_slash (by decide) (by decide), .inr (.inl ⟨rest, rfl⟩)⟩

theorem closes_of_isIdentStart {char : Char} (start : isIdentStart char = true) :
    closes char = true := by
  cases goesOn : closes char with
  | true => rfl
  | false =>
    simp only [closes, Bool.not_eq_eq_eq_not, Bool.not_false, List.contains_iff_mem, List.mem_cons,
      List.not_mem_nil, or_false] at goesOn
    rcases goesOn with rfl | rfl | rfl | rfl | rfl | rfl | rfl | rfl | rfl | rfl | rfl | rfl | rfl |
      rfl <;> exact absurd start (by decide)

theorem BodyAhead.ends (ahead : BodyAhead comments rest) (binding : Nat) :
    Ends comments binding ('\n' :: rest) := by
  obtain ⟨next, leads, form⟩ := ahead
  refine ends_of_closes (leads.blank rfl) rfl ?_
  rcases form with ⟨first, others, rfl, start⟩ | ⟨others, rfl⟩ | ⟨others, rfl⟩
  · simpa using closes_of_isIdentStart start
  · rfl
  · rfl

theorem BodyAhead.noFieldSign (ahead : BodyAhead comments rest) :
    ∃ next, Leads comments ('\n' :: rest) next ∧ ∀ offset, fieldSign? ⟨offset, next⟩ = none := by
  obtain ⟨next, leads, form⟩ := ahead
  refine ⟨next, leads.blank rfl, ?_⟩
  -- Two signs are those of an attribute of the body, and not of the member before.
  intro offset
  rcases form with ⟨first, others, rfl, start⟩ | ⟨others, rfl⟩ | ⟨others, rfl⟩
  · have noSign : first ≠ '@' := ne_of_test start (by decide)
    simp [fieldSign?, Cursor.char?_of_ne noSign]
  · simp [fieldSign?]
  · rfl

theorem length_le_printTrailing (attributes : List Attribute) :
    attributes.length ≤ (Attribute.printTrailing attributes).toList.length := by
  induction attributes with
  | nil => exact Nat.zero_le _
  | cons first others ih =>
    rw [toList_printTrailing_cons, List.length_cons, List.length_cons, List.length_append]
    omega

theorem fieldAttributes_print {attributes : List Attribute}
    (wellFormed : ∀ applied ∈ attributes, applied.WellFormed "@") (ahead : BodyAhead comments rest)
    (offset : Nat) : ∃ read after,
      fieldAttributes comments
        ⟨offset, (Attribute.printTrailing attributes).toList ++ '\n' :: rest⟩ =
          .ok (read, ⟨after, '\n' :: rest⟩) ∧
        read.map Attribute.erase = attributes.map Attribute.erase := by
  refine attributesWith_print finds_fieldSign wellFormed (ahead.ends 0).wordEnds ahead.noFieldSign
    offset _ ?_
  have bound := length_le_printTrailing attributes
  simp only [List.length_append]
  omega

def lines (texts : List String) : List Char :=
  texts.flatMap fun text => (bodyLine text).toList

theorem lines_cons (text : String) (others : List String) (rest : List Char) :
    lines (text :: others) ++ rest =
      [' ', ' ', ' ', ' '] ++ (text.toList ++ '\n' :: (lines others ++ rest)) := by
  simp [lines, bodyLine]

theorem toList_join_lines {α : Type} (print : α → String) (values : List α) :
    (String.join (values.map fun value => bodyLine (print value))).toList =
      lines (values.map print) := by
  simp [lines, List.flatMap_map]

theorem length_le_lines (texts : List String) : texts.length ≤ (lines texts).length := by
  induction texts with
  | nil => exact Nat.zero_le _
  | cons text others ih =>
    have whole := lines_cons text others []
    rw [List.append_nil, List.append_nil] at whole
    rw [whole]
    simp only [List.length_append, List.length_cons]
    omega

theorem bodyAhead_lines {texts : List String}
    (each : ∀ text ∈ texts, ∀ rest, BodyAhead comments (text.toList ++ rest))
    (ahead : BodyAhead comments rest) : BodyAhead comments (lines texts ++ rest) := by
  cases texts with
  | nil => exact ahead
  | cons text others =>
    rw [lines_cons]
    exact (each text List.mem_cons_self _).blanks allSkipped_indent

def entryText (entry : ConfigEntry) : String :=
  entry.name.name ++ " = " ++ entry.value.print

theorem bodyAhead_entryText {entry : ConfigEntry} (wellFormed : entry.WellFormed)
    (rest : List Char) : BodyAhead comments ((entryText entry).toList ++ rest) := by
  rw [entryText, String.toList_append, String.toList_append, List.append_assoc, List.append_assoc]
  exact bodyAhead_name wellFormed.name

theorem entriesWith_print (comments : Bool) {entries : List ConfigEntry}
    (wellFormed : ∀ entry ∈ entries, entry.WellFormed) (rest : List Char) :
    ∀ blanks offset fuel, AllSkipped blanks → entries.length < fuel → ∃ read after,
      entriesWith comments fuel
        ⟨offset, blanks ++ (lines (entries.map entryText) ++ '\x7d' :: rest)⟩ =
          .ok (read, ⟨after, rest⟩) ∧
        read.map ConfigEntry.erase = entries.map ConfigEntry.erase := by
  induction entries with
  | nil =>
    intro blanks offset fuel skip enough
    obtain ⟨fuel, rfl⟩ : ∃ less, fuel = less + 1 := ⟨fuel - 1, by simp at enough; omega⟩
    have close : Leads comments ('\x7d' :: rest) ('\x7d' :: rest) :=
      Cursor.leads_of_ne_slash (by decide) (by decide)
    obtain ⟨start, skipped⟩ := close.blanks skip offset
    have none : lines (([] : List ConfigEntry).map entryText) ++ '\x7d' :: rest =
        '\x7d' :: rest := rfl
    refine ⟨[], start + '\x7d'.utf8Size, ?_, rfl⟩
    simp only [entriesWith, none, skipped, Cursor.char?_cons_self]
  | cons entry others ih =>
    intro blanks offset fuel skip enough
    obtain ⟨fuel, rfl⟩ : ∃ less, fuel = less + 1 := ⟨fuel - 1, by simp at enough; omega⟩
    obtain ⟨formed, othersFormed⟩ := List.forall_mem_cons.1 wellFormed
    -- The next line goes on with a name, which the value before it cannot take in.
    have ahead : BodyAhead comments (lines (others.map entryText) ++ '\x7d' :: rest) := by
      apply bodyAhead_lines _ bodyAhead_close
      intro text found
      obtain ⟨other, among, rfl⟩ := List.mem_map.1 found
      exact bodyAhead_entryText (othersFormed other among)
    have whole : lines ((entry :: others).map entryText) ++ '\x7d' :: rest =
        [' ', ' ', ' ', ' '] ++ (entry.name.name.toList ++ ' ' :: '=' :: ' ' ::
          (entry.value.print.toList ++
            '\n' :: (lines (others.map entryText) ++ '\x7d' :: rest))) := by
      rw [List.map_cons, lines_cons, entryText]
      simp
    -- What follows the line matters only by how it starts.
    generalize lines (others.map entryText) ++ '\x7d' :: rest = more at *
    have named := Cursor.leads_name comments formed.name
      (' ' :: '=' :: ' ' :: (entry.value.print.toList ++ '\n' :: more))
    obtain ⟨start, skipped⟩ := named.blanks (skip.append allSkipped_indent) offset
    have noClose : (⟨start, entry.name.name.toList ++ ' ' :: '=' :: ' ' ::
        (entry.value.print.toList ++ '\n' :: more)⟩ : Cursor).char? '\x7d' = none := by
      obtain ⟨first, behind, chars, isStart⟩ := formed.name.exists_cons
      rw [chars]
      exact Cursor.char?_of_ne (ne_of_test isStart (by decide))
    obtain ⟨name, next, nameRead, sameName⟩ := ident_name formed.name named rfl .entry start
    have sign : Leads comments (' ' :: '=' :: ' ' :: (entry.value.print.toList ++ '\n' :: more))
        ('=' :: ' ' :: (entry.value.print.toList ++ '\n' :: more)) :=
      (Cursor.leads_of_ne_slash (by decide) (by decide)).blank rfl
    obtain ⟨equals, equalsRead⟩ := char_of_leads sign .equals next
    have spaced : Leads comments (' ' :: (entry.value.print.toList ++ '\n' :: more))
        (entry.value.print.toList ++ '\n' :: more) :=
      (leads_print comments formed.value _).blank rfl
    obtain ⟨value, last, valueRead, sameValue⟩ :=
      expression_print formed.value spaced (ahead.ends 1) equals
    obtain ⟨read, after, othersRead, sameOthers⟩ :=
      ih othersFormed ['\n'] last fuel allSkipped_newline (by simp at enough; omega)
    refine ⟨⟨name, value, ⟨start, last⟩⟩ :: read, after, ?_, ?_⟩
    · rw [whole, ← List.append_assoc]
      simp only [entriesWith, skipped, noClose, nameRead, equalsRead, valueRead, Except.ok_bind]
      simp only [List.singleton_append] at othersRead
      simp only [othersRead, Except.ok_bind]
    · simp [ConfigEntry.erase, sameName, sameValue, sameOthers]

structure ReadsMember {α : Type} (comments : Bool) (item : Cursor → Reading (α × Cursor))
    (erase : α → α) (text : String) (value : α) : Prop where
  named : ∃ name others, IsName name ∧ text.toList = name.toList ++ others
  reads : ∀ rest offset, BodyAhead comments rest → ∃ read after,
    item ⟨offset, text.toList ++ '\n' :: rest⟩ = .ok (read, ⟨after, '\n' :: rest⟩) ∧
      erase read = erase value

namespace ReadsMember

variable {α : Type} {item : Cursor → Reading (α × Cursor)} {erase : α → α} {text : String}
  {value : α}

theorem bodyAhead (reads : ReadsMember comments item erase text value) (rest : List Char) :
    BodyAhead comments (text.toList ++ rest) := by
  obtain ⟨name, others, isName, same⟩ := reads.named
  rw [same, List.append_assoc]
  exact bodyAhead_name isName

theorem exists_cons (reads : ReadsMember comments item erase text value) :
    ∃ first others, text.toList = first :: others ∧ isIdentStart first = true := by
  obtain ⟨name, behind, isName, same⟩ := reads.named
  obtain ⟨first, others, chars, start⟩ := isName.exists_cons
  exact ⟨first, others ++ behind, by rw [same, chars, List.cons_append], start⟩

theorem leads (reads : ReadsMember comments item erase text value) (rest : List Char) :
    Leads comments (text.toList ++ rest) (text.toList ++ rest) := by
  obtain ⟨name, others, isName, same⟩ := reads.named
  rw [same, List.append_assoc]
  exact Cursor.leads_name comments isName _

theorem noClose (reads : ReadsMember comments item erase text value) (rest : List Char)
    (offset : Nat) : (⟨offset, text.toList ++ rest⟩ : Cursor).char? '\x7d' = none := by
  obtain ⟨first, others, same, start⟩ := reads.exists_cons
  rw [same]
  exact Cursor.char?_of_ne (ne_of_test start (by decide))

theorem noSigns (reads : ReadsMember comments item erase text value) (rest : List Char)
    (offset : Nat) : (⟨offset, text.toList ++ rest⟩ : Cursor).chars? ['@', '@'] = none := by
  obtain ⟨first, others, same, start⟩ := reads.exists_cons
  rw [same]
  apply Cursor.chars?_eq_none
  rintro ⟨behind, sameChars⟩
  exact ne_of_test start (by decide) (List.cons.inj sameChars).1.symm

end ReadsMember

theorem bodyAhead_attribute {applied : Attribute} (wellFormed : applied.WellFormed "@@")
    (rest : List Char) : BodyAhead comments (applied.print.toList ++ rest) := by
  obtain ⟨word, _, named⟩ := wellFormed.name
  rw [toList_print_attribute, named, String.toList_append, List.append_assoc, List.append_assoc]
  exact bodyAhead_signs

section

variable {α : Type} {item : Cursor → Reading (α × Cursor)} {erase : α → α}

theorem bodyWith_attributes (item : Cursor → Reading (α × Cursor)) {attributes : List Attribute}
    (wellFormed : ∀ applied ∈ attributes, applied.WellFormed "@@") (rest : List Char) :
    ∀ blanks offset fuel, AllSkipped blanks → attributes.length < fuel → ∃ read after,
      bodyWith comments item fuel
        ⟨offset, blanks ++ (lines (attributes.map Attribute.print) ++ '\x7d' :: rest)⟩ =
          .ok (([], read), ⟨after, rest⟩) ∧
        read.map Attribute.erase = attributes.map Attribute.erase := by
  -- By induction on the attributes, one line each. What stands in front of a line is left open: the
  -- end of the line before, or for the first one whatever ends the members.
  induction attributes with
  | nil =>
    intro blanks offset fuel skip enough
    obtain ⟨fuel, rfl⟩ : ∃ less, fuel = less + 1 := ⟨fuel - 1, by simp at enough; omega⟩
    have close : Leads comments ('\x7d' :: rest) ('\x7d' :: rest) :=
      Cursor.leads_of_ne_slash (by decide) (by decide)
    obtain ⟨start, skipped⟩ := close.blanks skip offset
    have none : lines (([] : List Attribute).map Attribute.print) ++ '\x7d' :: rest =
        '\x7d' :: rest := rfl
    refine ⟨[], start + '\x7d'.utf8Size, ?_, rfl⟩
    simp only [bodyWith, none, skipped, Cursor.char?_cons_self]
  | cons first others ih =>
    intro blanks offset fuel skip enough
    obtain ⟨fuel, rfl⟩ : ∃ less, fuel = less + 1 := ⟨fuel - 1, by simp at enough; omega⟩
    obtain ⟨formed, othersFormed⟩ := List.forall_mem_cons.1 wellFormed
    have ahead : BodyAhead comments (lines (others.map Attribute.print) ++ '\x7d' :: rest) := by
      apply bodyAhead_lines _ bodyAhead_close
      intro text found
      obtain ⟨other, among, rfl⟩ := List.mem_map.1 found
      exact bodyAhead_attribute (othersFormed other among)
    obtain ⟨word, isName, named⟩ := formed.name
    have whole : lines ((first :: others).map Attribute.print) ++ '\x7d' :: rest =
        [' ', ' ', ' ', ' '] ++ (['@', '@'] ++ (word.toList ++ (argumentsText first.arguments ++
          '\n' :: (lines (others.map Attribute.print) ++ '\x7d' :: rest)))) := by
      rw [List.map_cons, lines_cons, toList_print_attribute, named]
      simp
    generalize lines (others.map Attribute.print) ++ '\x7d' :: rest = more at *
    generalize text : word.toList ++ (argumentsText first.arguments ++ '\n' :: more) = behind
      at whole
    have signs : Leads comments (['@', '@'] ++ behind) (['@', '@'] ++ behind) :=
      Cursor.leads_of_ne_slash (by decide) (by decide)
    obtain ⟨start, skipped⟩ := signs.blanks (skip.append allSkipped_indent) offset
    obtain ⟨read, next, firstRead, same⟩ := attributeAt_print named isName formed.arguments
      (ahead.ends 0).wordEnds ⟨start, ['@', '@'] ++ behind⟩ (start + byteLength ['@', '@'])
    rw [text] at firstRead
    have noClose : (⟨start, ['@', '@'] ++ behind⟩ : Cursor).char? '\x7d' = none := rfl
    obtain ⟨values, after, othersRead, sameOthers⟩ :=
      ih othersFormed ['\n'] next fuel allSkipped_newline (by simp at enough; omega)
    rw [List.singleton_append] at othersRead
    refine ⟨read :: values, after, ?_, by simp [same, sameOthers]⟩
    rw [whole, ← List.append_assoc]
    simp only [bodyWith, skipped, noClose, Cursor.chars?_append, firstRead, othersRead,
      Except.ok_bind]

theorem toList_printBody (size : Nat) (attributes : List Attribute) :
    ∃ blanks, AllSkipped blanks ∧ (Attribute.printBody size attributes).toList =
      blanks ++ lines (attributes.map Attribute.print) := by
  rw [Attribute.printBody, String.toList_append, toList_join_lines]
  split
  · exact ⟨['\n'], allSkipped_newline, rfl⟩
  · exact ⟨[], allSkipped_nil, rfl⟩

theorem bodyWith_print {print : α → String} {members : List α} {attributes : List Attribute}
    (each : ∀ value ∈ members, ReadsMember comments item erase (print value) value)
    (wellFormed : ∀ applied ∈ attributes, applied.WellFormed "@@") {footer : List Char}
    (isFooter : ∃ blanks, AllSkipped blanks ∧
      footer = blanks ++ (lines (attributes.map Attribute.print) ++ '\x7d' :: rest)) :
    ∀ blanks offset fuel, AllSkipped blanks → members.length + attributes.length < fuel →
      ∃ read readAttributes after, bodyWith comments item fuel
        ⟨offset, blanks ++ (lines (members.map print) ++ footer)⟩ =
          .ok ((read, readAttributes), ⟨after, rest⟩) ∧ read.map erase = members.map erase ∧
          readAttributes.map Attribute.erase = attributes.map Attribute.erase := by
  obtain ⟨between, skippedBetween, rfl⟩ := isFooter
  -- Behind the last member come the attributes, with an empty line between if there are both.
  have footerAhead : BodyAhead comments
      (between ++ (lines (attributes.map Attribute.print) ++ '\x7d' :: rest)) := by
    refine BodyAhead.blanks (bodyAhead_lines ?_ bodyAhead_close) skippedBetween
    intro text found
    obtain ⟨other, among, rfl⟩ := List.mem_map.1 found
    exact bodyAhead_attribute (wellFormed other among)
  induction members with
  | nil =>
    intro blanks offset fuel skip enough
    obtain ⟨read, after, bodyRead, same⟩ := bodyWith_attributes item wellFormed rest
      (blanks ++ between) offset fuel (skip.append skippedBetween) (by simpa using enough)
    rw [List.append_assoc] at bodyRead
    exact ⟨[], read, after, bodyRead, rfl, same⟩
  | cons first others ih =>
    intro blanks offset fuel skip enough
    obtain ⟨fuel, rfl⟩ : ∃ less, fuel = less + 1 := ⟨fuel - 1, by simp at enough; omega⟩
    obtain ⟨head, tail⟩ := List.forall_mem_cons.1 each
    have ahead : BodyAhead comments (lines (others.map print) ++
        (between ++ (lines (attributes.map Attribute.print) ++ '\x7d' :: rest))) := by
      refine bodyAhead_lines ?_ footerAhead
      intro text found
      obtain ⟨other, among, rfl⟩ := List.mem_map.1 found
      exact (tail other among).bodyAhead
    rw [List.map_cons, lines_cons, ← List.append_assoc]
    generalize lines (others.map print) ++
      (between ++ (lines (attributes.map Attribute.print) ++ '\x7d' :: rest)) = more at *
    obtain ⟨start, skipped⟩ :=
      (head.leads ('\n' :: more)).blanks (skip.append allSkipped_indent) offset
    obtain ⟨read, next, firstRead, same⟩ := head.reads more start ahead
    obtain ⟨values, readAttributes, after, othersRead, sameOthers, sameAttributes⟩ :=
      ih tail ['\n'] next fuel allSkipped_newline (by simp at enough; omega)
    rw [List.singleton_append] at othersRead
    refine ⟨read :: values, readAttributes, after, ?_, by simp [same, sameOthers], sameAttributes⟩
    simp only [bodyWith, skipped, head.noClose, head.noSigns, firstRead, othersRead,
      Except.ok_bind]

theorem body_print {print : α → String} {members : List α} {attributes : List Attribute}
    (each : ∀ value ∈ members, ReadsMember comments item erase (print value) value)
    (wellFormed : ∀ applied ∈ attributes, applied.WellFormed "@@") (rest : List Char)
    (offset : Nat) : ∃ read readAttributes after,
      body comments item ⟨offset, '\n' :: (lines (members.map print) ++
        ((Attribute.printBody members.length attributes).toList ++ '\x7d' :: rest))⟩ =
          .ok ((read, readAttributes), ⟨after, rest⟩) ∧ read.map erase = members.map erase ∧
        readAttributes.map Attribute.erase = attributes.map Attribute.erase := by
  obtain ⟨blanks, skipped, footer⟩ := toList_printBody members.length attributes
  rw [footer, List.append_assoc]
  refine bodyWith_print each wellFormed ⟨blanks, skipped, rfl⟩ ['\n'] offset _ allSkipped_newline ?_
  -- Every member and every attribute takes at least one character.
  have memberBound := length_le_lines (members.map print)
  have attributeBound := length_le_lines (attributes.map Attribute.print)
  simp only [List.length_map] at memberBound attributeBound
  simp only [List.length_append, List.length_cons]
  omega

end

def memberText (enumMember : EnumMember) : String :=
  enumMember.name.name ++ Attribute.printTrailing enumMember.attributes

theorem readsMember_enumMember {enumMember : EnumMember} (wellFormed : enumMember.WellFormed) :
    ReadsMember comments (Reading.enumMember comments) EnumMember.erase (memberText enumMember)
      enumMember where
  named := ⟨_, _, wellFormed.name, String.toList_append⟩
  reads := by
    intro rest offset ahead
    rw [memberText, String.toList_append, List.append_assoc]
    have ends := wordEnds_printTrailing rfl wellFormed.attributes (ahead.ends 0).wordEnds
    obtain ⟨name, next, nameRead, sameName⟩ := ident_name wellFormed.name
      (Cursor.leads_name comments wellFormed.name _) ends.stop .enumMember offset
    obtain ⟨attributes, after, attributesRead, same⟩ :=
      fieldAttributes_print wellFormed.attributes ahead next
    refine ⟨⟨name, attributes, ⟨offset, after⟩⟩, after, ?_, ?_⟩
    · simp only [Reading.enumMember, nameRead, attributesRead, Except.ok_bind]
    · simp only [EnumMember.erase, sameName, same]

def fieldText (field : Field) : String :=
  field.name.name ++ " " ++ field.type.print ++ Attribute.printTrailing field.attributes

theorem readsMember_field {field : Field} (wellFormed : field.WellFormed) :
    ReadsMember comments (Reading.field comments) Field.erase (fieldText field) field where
  named := by
    refine ⟨_, ' ' :: (field.type.print.toList ++
      (Attribute.printTrailing field.attributes).toList), wellFormed.name, ?_⟩
    simp [fieldText]
  reads := by
    intro rest offset ahead
    have whole : (fieldText field).toList ++ '\n' :: rest =
        field.name.name.toList ++ ' ' :: (field.type.print.toList ++
          ((Attribute.printTrailing field.attributes).toList ++ '\n' :: rest)) := by
      simp [fieldText]
    rw [whole]
    have stop : (' ' :: (field.type.print.toList ++
        ((Attribute.printTrailing field.attributes).toList ++ '\n' :: rest))).head?.any
          isIdentPart = false := rfl
    obtain ⟨name, next, nameRead, sameName⟩ := ident_name wellFormed.name
      (Cursor.leads_name comments wellFormed.name _) stop .modelMember offset
    have spaced : Leads comments (' ' :: (field.type.print.toList ++
        ((Attribute.printTrailing field.attributes).toList ++ '\n' :: rest)))
        (field.type.print.toList ++
          ((Attribute.printTrailing field.attributes).toList ++ '\n' :: rest)) :=
      (leads_typeRef wellFormed.type _).blank rfl
    -- A type is followed by an attribute or by the end of the line.
    have typeEnds :
        TypeEnds ((Attribute.printTrailing field.attributes).toList ++ '\n' :: rest) := by
      cases field.attributes with
      | nil =>
        have none : (Attribute.printTrailing []).toList ++ '\n' :: rest = '\n' :: rest := rfl
        rw [none]
        exact ⟨rfl, by simp, by simp⟩
      | cons first others =>
        rw [toList_printTrailing_cons]
        exact ⟨rfl, by simp, by simp⟩
    obtain ⟨type, behind, typeRead, sameType⟩ :=
      typeRef_print wellFormed.type spaced typeEnds next
    obtain ⟨attributes, after, attributesRead, same⟩ :=
      fieldAttributes_print wellFormed.attributes ahead behind
    refine ⟨⟨name, type, attributes, ⟨offset, after⟩⟩, after, ?_, ?_⟩
    · simp only [Reading.field, nameRead, typeRead, attributesRead, Except.ok_bind]
    · simp only [Field.erase, sameName, sameType, same]

end Schemata.Reading
