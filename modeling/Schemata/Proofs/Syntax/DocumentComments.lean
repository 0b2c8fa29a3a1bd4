import Schemata.Proofs.Syntax.ReadsAlike

set_option autoImplicit false

namespace Schemata.Reading

open Cursor (Clear clear_skip skip_eq)

theorem identifier_alike (what : Expected) (cursor : Cursor) : ReadsAlike cursor
    (orMiss cursor.identifier? cursor what) (orMiss cursor.identifier? cursor what) :=
  .orMiss fun _ _ read => Cursor.clear_identifier? read

theorem unsupported_alike (cursor : Cursor) :
    ReadsAlike cursor (unsupported true cursor) (unsupported false cursor) := by
  unfold unsupported
  refine .bindChar (by decide) fun after => ?_
  refine .skip (fun same => by rw [same]) ?_
  refine .bind (.orMiss fun _ _ read => Cursor.clear_quoted? read) fun _ after => ?_
  exact .bindChar (by decide) fun after => .ok _ (.refl after)

theorem typeName_alike (cursor : Cursor) :
    ReadsAlike cursor (typeName true cursor) (typeName false cursor) := by
  unfold typeName
  refine (identifier_alike _ cursor).bind fun name after => ?_
  simp only
  split
  next => exact unsupported_alike after
  next => exact .ok _ (.refl after)

theorem clear_mark {text : String} (ordinary : text.toList.all isOrdinary = true)
    (cursor : Cursor) : Clear cursor (mark text cursor).2 := by
  unfold mark
  split
  next found => exact Cursor.clear_chars? ordinary found
  next => exact .refl cursor

theorem typeRef_alike (cursor : Cursor) :
    ReadsAlike cursor (typeRef true cursor) (typeRef false cursor) := by
  unfold typeRef
  refine .skip (fun same => by rw [same]) ?_
  refine (typeName_alike _).bind fun name after => .ok _ ?_
  exact (clear_mark rfl after).trans (clear_mark rfl _)

theorem attributeAt_alike (signs : String) (start cursor : Cursor) : ReadsAlike cursor
    (attributeAt true signs start cursor) (attributeAt false signs start cursor) := by
  unfold attributeAt
  refine (identifier_alike _ cursor).bind fun name after => ?_
  simp only
  refine .skip (fun same => by rw [same]) ?_
  cases parenthesis : (after.skip false).char? '(' with
  | none => exact .ok _ (clear_skip after).symm
  | some inside =>
    refine .behind (Cursor.clear_char? (by decide) parenthesis) ?_
    exact (arguments_alike inside).bind fun values after => .ok _ (.refl after)

theorem attributesWith_alike {signs : String} {sign? : Cursor → Option Cursor}
    (clear : ∀ cursor after, sign? cursor = some after → Clear cursor after) :
    ∀ (fuel : Nat) (cursor : Cursor), ReadsAlike cursor
      (attributesWith true signs sign? fuel cursor) (attributesWith false signs sign? fuel cursor)
  | 0, cursor => .ok _ (.refl cursor)
  | fuel + 1, cursor => by
    rw [attributesWith, attributesWith]
    refine .skip (fun same => by rw [same]) ?_
    simp only
    cases found : sign? (cursor.skip false) with
    | none => exact .ok _ (clear_skip cursor).symm
    | some after =>
      refine .behind (clear _ _ found) ?_
      refine (attributeAt_alike signs _ after).bind fun first after => ?_
      refine (attributesWith_alike clear fuel after).bind fun others after => ?_
      exact .ok _ (.refl after)

theorem fieldAttributes_alike (cursor : Cursor) :
    ReadsAlike cursor (fieldAttributes true cursor) (fieldAttributes false cursor) := by
  refine attributesWith_alike (fun cursor after sign => ?_) _ cursor
  unfold fieldSign? at sign
  split at sign
  next found =>
    split at sign
    next => cases sign
    next =>
      cases sign
      exact Cursor.clear_char? (by decide) found
  next => cases sign

theorem restrictions_alike (cursor : Cursor) :
    ReadsAlike cursor (restrictions true cursor) (restrictions false cursor) :=
  attributesWith_alike (fun _ _ sign => Cursor.clear_chars? rfl sign) _ cursor

theorem entriesWith_alike : ∀ (fuel : Nat) (cursor : Cursor),
    ReadsAlike cursor (entriesWith true fuel cursor) (entriesWith false fuel cursor)
  | 0, _ => .error _
  | fuel + 1, cursor => by
    rw [entriesWith, entriesWith]
    refine .skip (fun same => by rw [same]) ?_
    simp only
    cases closed : (cursor.skip false).char? '\x7d' with
    | some after => exact .ok _ (Cursor.clear_char? (by decide) closed)
    | none =>
      refine (ident_alike _ _).bind fun name after => .bindChar (by decide) fun after => ?_
      refine (expression_alike after).bind fun value after => ?_
      exact (entriesWith_alike fuel after).bind fun entries after => .ok _ (.refl after)

section

variable {α : Type} {skipping refusing : Cursor → Reading (α × Cursor)}

theorem bodyWith_alike (each : ∀ cursor, ReadsAlike cursor (skipping cursor) (refusing cursor)) :
    ∀ (fuel : Nat) (cursor : Cursor), ReadsAlike cursor
      (bodyWith true skipping fuel cursor) (bodyWith false refusing fuel cursor)
  | 0, _ => .error _
  | fuel + 1, cursor => by
    rw [bodyWith, bodyWith]
    refine .skip (fun same => by rw [same]) ?_
    simp only
    cases closed : (cursor.skip false).char? '\x7d' with
    | some after => exact .ok _ (Cursor.clear_char? (by decide) closed)
    | none =>
    cases signs : (cursor.skip false).chars? ['@', '@'] with
    | some after =>
      refine .behind (Cursor.clear_chars? rfl signs) ?_
      refine (attributeAt_alike _ _ after).bind fun first after => ?_
      exact (bodyWith_alike each fuel after).bind fun members after => .ok _ (.refl after)
    | none =>
      refine (each _).bind fun first after => ?_
      exact (bodyWith_alike each fuel after).bind fun members after => .ok _ (.refl after)

theorem body_alike (each : ∀ cursor, ReadsAlike cursor (skipping cursor) (refusing cursor))
    (cursor : Cursor) :
    ReadsAlike cursor (body true skipping cursor) (body false refusing cursor) :=
  bodyWith_alike each _ cursor

end

theorem enumMember_alike (start : Cursor) :
    ReadsAlike start (enumMember true start) (enumMember false start) :=
  (ident_alike _ start).bind fun _ after =>
    (fieldAttributes_alike after).bind fun _ after => .ok _ (.refl after)

theorem field_alike (start : Cursor) : ReadsAlike start (field true start) (field false start) :=
  (ident_alike _ start).bind fun _ after => (typeRef_alike after).bind fun _ after =>
    (fieldAttributes_alike after).bind fun _ after => .ok _ (.refl after)

theorem configBlock_alike (start : Nat) (cursor : Cursor) :
    ReadsAlike cursor (configBlock true start cursor) (configBlock false start cursor) := by
  unfold configBlock
  refine (ident_alike _ cursor).bind fun name after => .bindChar (by decide) fun after => ?_
  exact (entriesWith_alike _ after).bind fun entries after => .ok _ (.refl after)

theorem enumDecl_alike (start : Nat) (cursor : Cursor) :
    ReadsAlike cursor (enumDecl true start cursor) (enumDecl false start cursor) := by
  unfold enumDecl
  refine (ident_alike _ cursor).bind fun name after => .bindChar (by decide) fun after => ?_
  exact (body_alike enumMember_alike after).bind fun members after => .ok _ (.refl after)

theorem basesWith_alike : ∀ (fuel : Nat) (cursor : Cursor),
    ReadsAlike cursor (basesWith true fuel cursor) (basesWith false fuel cursor)
  | 0, _ => .error _
  | fuel + 1, cursor => by
    rw [basesWith, basesWith]
    refine (ident_alike _ cursor).bind fun first after => ?_
    simp only
    refine .skip (fun same => by rw [same]) ?_
    cases comma : (after.skip false).char? ',' with
    | none => exact .ok _ (clear_skip after).symm
    | some next =>
      refine .behind (Cursor.clear_char? (by decide) comma) ?_
      exact (basesWith_alike fuel next).bind fun others after => .ok _ (.refl after)

theorem bases_alike (cursor : Cursor) :
    ReadsAlike cursor (bases true cursor) (bases false cursor) := by
  unfold bases
  refine .skip (fun same => by rw [same]) ?_
  cases word : (cursor.skip false).keyword? "extends" with
  | none => exact .ok _ (clear_skip cursor).symm
  | some after =>
    exact .behind (Cursor.clear_keyword? rfl word) (basesWith_alike _ after)

theorem model_alike (start : Nat) (isAbstract : Bool) (cursor : Cursor) : ReadsAlike cursor
    (model true start isAbstract cursor) (model false start isAbstract cursor) := by
  unfold model
  refine (ident_alike _ cursor).bind fun name after => ?_
  refine (bases_alike after).bind fun names after => ?_
  refine .bindChar (by decide) fun after => ?_
  exact (body_alike field_alike after).bind fun fields after => .ok _ (.refl after)

theorem functionParam_alike (cursor : Cursor) :
    ReadsAlike cursor (functionParam true cursor) (functionParam false cursor) := by
  unfold functionParam
  refine (ident_alike _ cursor).bind fun name after => .bindChar (by decide) fun after => ?_
  exact (typeRef_alike after).bind fun type after => .ok _ (.refl after)

theorem functionBody_alike (cursor : Cursor) :
    ReadsAlike cursor (functionBody true cursor) (functionBody false cursor) := by
  unfold functionBody
  refine .bindChar (by decide) fun after => ?_
  refine .congr (fun uncommented => by rw [skip_eq uncommented]) ?_
  cases closed : (after.skip false).char? '\x7d' with
  | some last =>
    exact .behind (clear_skip after) (.ok _ (Cursor.clear_char? (by decide) closed))
  | none =>
    refine (expression_alike after).bind fun value after => ?_
    exact .bindChar (by decide) fun after => .ok _ (.refl after)

theorem functionDecl_alike (start : Nat) (cursor : Cursor) :
    ReadsAlike cursor (functionDecl true start cursor) (functionDecl false start cursor) := by
  unfold functionDecl
  refine (ident_alike _ cursor).bind fun name after => .bindChar (by decide) fun after => ?_
  refine (items_alike (by decide) functionParam_alike after).bind fun params after => ?_
  refine .bindChar (by decide) fun after => (typeRef_alike after).bind fun result after => ?_
  exact (functionBody_alike after).bind fun value after => .ok _ (.refl after)

theorem clear_positionalMark (cursor : Cursor) : Clear cursor (positionalMark cursor).2 := by
  unfold positionalMark
  split
  next found =>
    split
    next => exact Cursor.clear_char? (by decide) found
    next => exact .refl cursor
  next => exact .refl cursor

theorem attributeParam_alike (cursor : Cursor) :
    ReadsAlike cursor (attributeParam true cursor) (attributeParam false cursor) := by
  unfold attributeParam
  refine .skip (fun same => by rw [same]) ?_
  refine .behind (clear_positionalMark _) ?_
  refine (ident_alike _ _).bind fun name after => .bindChar (by decide) fun after => ?_
  exact (typeRef_alike after).bind fun type after => .ok _ (.refl after)

theorem clear_attributeSigns? {cursor after : Cursor} {found : String} : ∀ {signs : List String},
    (∀ sign ∈ signs, sign.toList.all isOrdinary = true) →
      attributeSigns? cursor signs = some (found, after) → Clear cursor after
  | [], _, read => nomatch read
  | sign :: signs, ordinary, read => by
    rw [List.forall_mem_cons] at ordinary
    rw [attributeSigns?] at read
    split at read
    next here =>
      cases read
      exact Cursor.clear_chars? ordinary.1 here
    next => exact clear_attributeSigns? ordinary.2 read

theorem attributeDecl_alike (start : Nat) (cursor : Cursor) :
    ReadsAlike cursor (attributeDecl true start cursor) (attributeDecl false start cursor) := by
  unfold attributeDecl
  refine .skip (fun same => by rw [same]) ?_
  refine .bind (.orMiss fun _ _ read => clear_attributeSigns? (List.all_eq_true.1 rfl) read) ?_
  intro signs after
  refine (identifier_alike _ after).bind fun name after => ?_
  refine .bindChar (by decide) fun after => ?_
  refine (items_alike (by decide) attributeParam_alike after).bind fun params after => ?_
  exact (restrictions_alike after).bind fun restrictions after => .ok _ (.refl after)

theorem all_isOrdinary_word (opening : Opening) :
    opening.word.toList.all isOrdinary = true := by
  cases opening <;> rfl

theorem clear_opening? {cursor after : Cursor} {found : Opening} : ∀ {openings : List Opening},
    opening? cursor openings = some (found, after) → Clear cursor after
  | [], read => nomatch read
  | opening :: openings, read => by
    rw [opening?] at read
    split at read
    next here =>
      cases read
      exact Cursor.clear_keyword? (all_isOrdinary_word _) here
    next => exact clear_opening? read

theorem declaration_alike (start : Cursor) :
    ReadsAlike start (declaration true start) (declaration false start) := by
  unfold declaration
  refine .bind (.orMiss fun _ _ read => clear_opening? read) fun opening after => ?_
  cases opening with
  | dataSource =>
    exact (configBlock_alike start.offset after).bind fun _ after => .ok _ (.refl after)
  | plugin =>
    exact (configBlock_alike start.offset after).bind fun _ after => .ok _ (.refl after)
  | enum =>
    exact (enumDecl_alike start.offset after).bind fun _ after => .ok _ (.refl after)
  | abstract =>
    simp only
    refine .skip (fun same => by rw [same]) ?_
    refine .bindWord (fun _ read => ?_) fun after => ?_
    · exact Cursor.clear_keyword? rfl (orMiss_eq_ok.1 read)
    · exact (model_alike start.offset true after).bind fun _ after => .ok _ (.refl after)
  | model =>
    exact (model_alike start.offset false after).bind fun _ after => .ok _ (.refl after)
  | function =>
    exact (functionDecl_alike start.offset after).bind fun _ after => .ok _ (.refl after)
  | attr =>
    exact (attributeDecl_alike start.offset after).bind fun _ after => .ok _ (.refl after)

theorem declarationsWith_eq : ∀ (fuel : Nat) {cursor : Cursor}, Uncommented cursor.rest →
    declarationsWith true fuel cursor = declarationsWith false fuel cursor
  | 0, _, _ => rfl
  | fuel + 1, cursor, uncommented => by
    rw [declarationsWith, declarationsWith, skip_eq uncommented]
    have ahead := (clear_skip cursor).1 uncommented
    simp only
    split
    next => rfl
    next =>
      have alike := declaration_alike (cursor.skip false)
      rw [alike.same ahead]
      cases read : declaration false (cursor.skip false) with
      | error fault =>
        change (.error fault : Reading (List Declaration)) = .error fault
        rfl
      | ok first =>
        have behind := (alike.clear first.1 first.2 read).1 ahead
        simp only [Except.ok_bind, declarationsWith_eq fuel behind]

theorem uncommented_of_declarationsWith : ∀ (fuel : Nat) {cursor : Cursor}
    {declarations : List Declaration}, declarationsWith false fuel cursor = .ok declarations →
      Uncommented cursor.rest
  | 0, _, _, read => nomatch read
  | fuel + 1, cursor, _, read => by
    refine (clear_skip cursor).2 ?_
    rw [declarationsWith] at read
    simp only at read
    split at read
    next ends =>
      rw [List.isEmpty_iff.1 ends]
      rfl
    next =>
      obtain ⟨⟨first, after⟩, found, read⟩ := Except.bind_eq_ok.1 read
      obtain ⟨_, others, _⟩ := Except.bind_eq_ok.1 read
      have clear := (declaration_alike (cursor.skip false)).clear first after found
      exact clear.2 (uncommented_of_declarationsWith fuel others)

end Schemata.Reading

namespace Schemata.Document

theorem readWith_false_eq_ok {text : String} {document : Document} :
    readWith false text = .ok document ↔ commentOffsets text = [] ∧ read text = .ok document := by
  have same (uncommented : commentOffsets text = []) :
      readWith true text = readWith false text := by
    have whole : Uncommented (Cursor.ofText text).rest := uncommented
    simp only [readWith, Reading.declarationsWith_eq _ whole]
  constructor
  · intro accepted
    have uncommented : commentOffsets text = [] := by
      obtain ⟨_, found, _⟩ := Except.map_eq_ok.1 (Except.mapError_eq_ok.1 accepted)
      exact Reading.uncommented_of_declarationsWith _ found
    exact ⟨uncommented, (same uncommented).trans accepted⟩
  · rintro ⟨uncommented, accepted⟩
    exact (same uncommented).symm.trans accepted

/--
A text that is read as a document has no comments just if it is read without skipping any, and then
to the same document. Formatting keeps to that: it refuses the text at its first comment just if
reading had to skip one.
-/
theorem comments_are_skipped {text : String} {document : Document}
    (accepted : read text = .ok document) :
    (commentOffsets text = [] ↔ ∃ plain, readWith false text = .ok plain) ∧
      (∀ plain, readWith false text = .ok plain → plain = document) ∧
      (format text false = .ok document.print ↔ readWith false text = .ok document) ∧
      ((∃ first, (commentOffsets text).head? = some first ∧
          format text false = .error (.comments (Position.ofOffset text first))) ↔
        ¬ ∃ plain, readWith false text = .ok plain) := by
  have found : commentOffsets text = [] ↔ ∃ plain, readWith false text = .ok plain := by
    constructor
    · exact fun uncommented => ⟨document, readWith_false_eq_ok.2 ⟨uncommented, accepted⟩⟩
    · exact fun ⟨_, plain⟩ => (readWith_false_eq_ok.1 plain).1
  have plainSame (plain : Document) (read : readWith false text = .ok plain) : plain = document :=
    Except.ok.inj ((readWith_false_eq_ok.1 read).2.symm.trans accepted)
  refine ⟨found, plainSame, ?_, ?_⟩
  · rw [readWith_false_eq_ok, and_iff_left accepted]
    cases offsets : commentOffsets text with
    | nil => simp [format, offsets, accepted]
    | cons first others => simp [format, offsets]
  · rw [← found]
    cases offsets : commentOffsets text with
    | nil => simp
    | cons first others => simp [format, offsets]

end Schemata.Document

namespace Schemata.Asides

/-- Only the quoted text looks like comments, and no comment stands beside the division. -/
def plain : String :=
  "enum E \x7b A @map('//\\'/*') @@b(4/2) \x7d"

/-- One comment stands between a division and its right operand, one at the end. -/
def noted : String :=
  "enum E \x7b A @map('//') @@b(4/ /* half */2) \x7d // end"

theorem comments_are_skipped_noted :
    (∃ document, Document.read plain = .ok document ∧ commentOffsets plain = [] ∧
      Document.readWith false plain = .ok document ∧ format plain false = .ok document.print) ∧
    ∃ document, Document.read noted = .ok document ∧ commentOffsets noted ≠ [] ∧
      (¬ ∃ other, Document.readWith false noted = .ok other) ∧
      ∃ first, format noted false = .error (.comments first) := by
  have plainRead : (Document.read plain).toOption.isSome = true := by decide +kernel
  have notedRead : (Document.read noted).toOption.isSome = true := by decide +kernel
  have plainOffsets : commentOffsets plain = [] := by decide
  have notedOffsets : commentOffsets noted ≠ [] := by decide
  obtain ⟨document, found⟩ := Option.isSome_iff_exists.1 plainRead
  obtain ⟨other, otherFound⟩ := Option.isSome_iff_exists.1 notedRead
  have accepted := Except.toOption_eq_some.1 found
  have otherAccepted := Except.toOption_eq_some.1 otherFound
  obtain ⟨bare, same, formatted, _⟩ := Document.comments_are_skipped accepted
  obtain ⟨otherBare, _, _, refused⟩ := Document.comments_are_skipped otherAccepted
  obtain ⟨again, read⟩ := bare.1 plainOffsets
  have readAgain : Document.readWith false plain = .ok document := same again read ▸ read
  have skips := mt otherBare.2 notedOffsets
  obtain ⟨first, _, refusal⟩ := refused.2 skips
  exact ⟨⟨document, accepted, plainOffsets, readAgain, formatted.2 readAgain⟩,
    other, otherAccepted, notedOffsets, skips, _, refusal⟩

end Schemata.Asides
