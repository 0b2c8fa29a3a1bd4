import Schemata.Proofs.Syntax.DocumentPlaces
import Schemata.Proofs.Validation.LocatedRelations
import Schemata.Validation

set_option autoImplicit false

namespace Schemata

variable {text : String} {schema : Schema}

theorem Pass.located_run (within : schema.IsWithin text) (options : ValidationOptions)
    (pass : Pass) : Located text (pass.run schema options) := by
  cases pass with
  | symbols => exact SymbolTable.located_extend within.declarations _
  | references =>
    exact Located.flatMap.2 fun declaration member =>
      SymbolTable.located_checkDeclaration (within.declarations declaration member)
  | inheritance =>
    exact Hierarchy.located_check fun model member =>
      within.declarations _ (Document.declaration_of_mem_models member)
  | structural => exact Schema.located_checkStructure within options
  | relations => exact Schema.located_relations within
  | attributes => exact Schema.located_checkAttributes within
  | functions =>
    exact Located.flatMap.2 fun decl member => FunctionDecl.located_check
      (within.declarations _ (Document.declaration_of_mem_functions member)) schema

theorem Schema.located_diagnose (within : schema.IsWithin text) (options : ValidationOptions) :
    Located text (schema.diagnose options) := by
  have passes : Located text (Pass.all.flatMap (Pass.run schema options)) :=
    Located.flatMap.2 fun pass _ => pass.located_run within options
  unfold diagnose
  simp only
  split
  · exact Located.map.2 passes
  · exact passes

/--
All places in a document that was read are to be trusted, and so are those in the reports on it.
-/
theorem Document.places_are_trustworthy {document : Document}
    (read : Document.read text = .ok document) :
    (∀ outline ∈ document.outlines, outline.IsWellPlaced text) ∧
      (document.outlines.Pairwise fun first second => first.span.stop ≤ second.span.start) ∧
      ∀ options, ∀ diagnostic ∈ (document.validate options).diagnostics,
        diagnostic.span.IsWithin text := by
  have row := Document.outlines_isRow read
  have within : (Schema.ofDocument document).IsWithin text :=
    Schema.isWithin_ofDocument fun declaration member =>
      (row.isWellPlaced _ (List.mem_map_of_mem member)).all_isWithin
  exact ⟨row.isWellPlaced, row.pairwise, Schema.located_diagnose within⟩

namespace Journal

/-- Two mistakes behind a character of two bytes, which the second one has in it as well. -/
def post : String :=
  "// \u00e9\nmodel Post \x7b id Int @id page Page[] @@allow('read', (id + 1) == '\u00e9') \x7d"

end Journal

theorem Journal.places_are_trustworthy_post :
    ∃ document, Document.read post = .ok document ∧ document.outlines ≠ [] ∧
      (document.validate .standard).diagnostics.map Diagnostic.span = [⟨35, 39⟩, ⟨58, 74⟩] ∧
      (∀ outline ∈ document.outlines, outline.IsWellPlaced post) ∧
      Span.IsWithin post ⟨35, 39⟩ ∧ Span.IsWithin post ⟨58, 74⟩ := by
  have facts : (Document.read post).toOption.map (fun document =>
      (document.outlines.length,
        (document.validate .standard).diagnostics.map Diagnostic.span)) =
      some (1, [⟨35, 39⟩, ⟨58, 74⟩]) := by
    decide +kernel
  cases read : Document.read post with
  | error error =>
    rw [read] at facts
    cases facts
  | ok document =>
    rw [read] at facts
    obtain ⟨single, reported⟩ := Prod.mk.inj (Option.some.inj facts)
    obtain ⟨placed, -, located⟩ := Document.places_are_trustworthy read
    have within (span : Span) (among : span ∈ ([⟨35, 39⟩, ⟨58, 74⟩] : List Span)) :
        span.IsWithin post := by
      obtain ⟨diagnostic, found, rfl⟩ := List.mem_map.1 (reported ▸ among)
      exact located .standard diagnostic found
    refine ⟨document, rfl, ?_, reported, placed, within _ (by decide), within _ (by decide)⟩
    exact List.ne_nil_of_length_pos (single ▸ Nat.one_pos)

end Schemata
