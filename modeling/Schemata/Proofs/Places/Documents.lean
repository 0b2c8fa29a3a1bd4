import Schemata.Proofs.Places.Lowering
import Schemata.Proofs.Places.Relations
import Schemata.Proofs.Places.Structure
import Schemata.Proofs.Syntax.DocumentRoundTrip
import Schemata.Validation

set_option autoImplicit false

namespace Schemata

theorem Pass.run_erase (schema : Schema) (options : ValidationOptions) (pass : Pass) :
    pass.run schema.erase options = (pass.run schema options).map Diagnostic.erase := by
  cases pass with
  | symbols => exact SymbolTable.clashes_erase schema.document
  | references => exact schema.symbols.checkReferences_erase
  | inheritance =>
    rw [run, Schema.document_erase, Document.models_erase, Hierarchy.check_erase, run]
  | structural => exact schema.checkStructure_erase options
  | relations => rw [run, Schema.relations_erase, Checked.diagnostics_erase, run]
  | attributes => exact schema.checkAttributes_erase
  | functions =>
    rw [run, Schema.document_erase, Document.functions_erase, run]
    exact flatMap_erase (FunctionDecl.check_erase schema)

theorem Schema.diagnose_erase (schema : Schema) (options : ValidationOptions) :
    schema.erase.diagnose options = (schema.diagnose options).map Diagnostic.erase := by
  have passes : Pass.all.flatMap (Pass.run schema.erase options) =
      (Pass.all.flatMap (Pass.run schema options)).map Diagnostic.erase := by
    rw [List.map_flatMap]
    exact congrArg (List.flatMap · Pass.all) (funext (Pass.run_erase schema options))
  have promoted (diagnostics : List Diagnostic) :
      (diagnostics.map Diagnostic.erase).map Diagnostic.promote =
        (diagnostics.map Diagnostic.promote).map Diagnostic.erase := by
    rw [List.map_map, List.map_map]
    rfl
  rw [diagnose, passes, diagnose]
  cases options.denyWarnings with
  | true => exact promoted _
  | false => rfl

def Diagnostic.content (diagnostic : Diagnostic) : Severity × DiagnosticKind × String :=
  (diagnostic.severity, diagnostic.kind, diagnostic.message)

structure Document.Indistinguishable (left right : Document) : Prop where
  content : ∀ options, (left.validate options).diagnostics.map Diagnostic.content =
    (right.validate options).diagnostics.map Diagnostic.content
  isValid : ∀ options, (left.validate options).isValid = (right.validate options).isValid
  relations : (Schema.ofDocument left).relations.value = (Schema.ofDocument right).relations.value
  edges : (Schema.ofDocument left).hierarchy.edges = (Schema.ofDocument right).hierarchy.edges
  bundle : (Schema.ofDocument left).bundle = (Schema.ofDocument right).bundle

namespace Document

theorem diagnostics_erase (document : Document) (options : ValidationOptions) :
    (document.erase.validate options).diagnostics =
      (document.validate options).diagnostics.map Diagnostic.erase := by
  rw [validate, Schema.ofDocument_erase, validate]
  exact Schema.diagnose_erase _ options

theorem indistinguishable_erase (document : Document) :
    document.erase.Indistinguishable document where
  content options := by
    rw [diagnostics_erase, List.map_map]
    rfl
  isValid options := by
    rw [Validation.isValid, diagnostics_erase, hasErrors, List.any_map]
    rfl
  relations := by rw [Schema.ofDocument_erase, Schema.relations_erase, Checked.value_erase, id]
  edges := by rw [Schema.ofDocument_erase, Schema.hierarchy_erase, Hierarchy.edges_erase]
  bundle := by rw [Schema.ofDocument_erase, Schema.bundle_erase]

namespace Indistinguishable

variable {left middle right : Document}

theorem symm (alike : left.Indistinguishable right) : right.Indistinguishable left where
  content options := (alike.content options).symm
  isValid options := (alike.isValid options).symm
  relations := alike.relations.symm
  edges := alike.edges.symm
  bundle := alike.bundle.symm

theorem trans (first : left.Indistinguishable middle) (second : middle.Indistinguishable right) :
    left.Indistinguishable right where
  content options := (first.content options).trans (second.content options)
  isValid options := (first.isValid options).trans (second.isValid options)
  relations := first.relations.trans second.relations
  edges := first.edges.trans second.edges
  bundle := first.bundle.trans second.bundle

theorem of_erase (same : left.erase = right.erase) : left.Indistinguishable right := by
  have middle := left.indistinguishable_erase.symm
  rw [same] at middle
  exact middle.trans right.indistinguishable_erase

end Indistinguishable

/--
Documents that are the same up to places cannot be told apart, and a document that was read cannot
be told apart from what its canonical text reads as.
-/
theorem indistinguishable_print :
    (∀ left right : Document, left.erase = right.erase → left.Indistinguishable right) ∧
      ∀ (text : String) (document : Document), Document.read text = .ok document →
        ∃ again, Document.read document.print = .ok again ∧ document.Indistinguishable again := by
  refine ⟨fun left right same => .of_erase same, fun text document read => ?_⟩
  rcases Document.readWith_print true (Document.wellFormed_of_readWith read) with
    ⟨again, readAgain, same⟩
  exact ⟨again, readAgain, .of_erase same.symm⟩

end Document

namespace Letters

def letter (span : Span) : Document :=
  ⟨[.model ⟨⟨"Letter", span⟩, false, [],
    [⟨⟨"id", span⟩, ⟨.scalar .int, false, false, span⟩, [⟨⟨"@id", span⟩, [], span⟩], span⟩], [],
    span⟩]⟩

def text : String :=
  "model User\x7bid Int @id letters Letter[]@@allow('read',auth()!=null)\x7d" ++
    "model Letter\x7bid Int @id by User @relation(fields:[no],references:[id])no Int\x7d"

end Letters

theorem Letters.indistinguishable_print_text :
    (letter ⟨3, 7⟩).erase = (letter Span.zero).erase ∧
      (letter ⟨3, 7⟩).Indistinguishable (letter Span.zero) ∧
      ∃ document again, Document.read text = .ok document ∧
        (document.validate .standard).isValid = true ∧ document.print ≠ text ∧
        Document.read document.print = .ok again ∧ document.Indistinguishable again := by
  have same : (letter ⟨3, 7⟩).erase = (letter Span.zero).erase := rfl
  refine ⟨same, Document.indistinguishable_print.1 _ _ same, ?_⟩
  have facts : (Document.read text).toOption.map (fun document =>
      ((document.validate .standard).isValid, document.print == text)) = some (true, false) := by
    decide +kernel
  cases read : Document.read text with
  | error error =>
    rw [read] at facts
    cases facts
  | ok document =>
    rw [read] at facts
    have parts := Prod.ext_iff.1 (Option.some.inj facts)
    rcases Document.indistinguishable_print.2 text document read with ⟨again, readAgain, alike⟩
    exact ⟨document, again, rfl, parts.1, beq_eq_false_iff_ne.1 parts.2, readAgain, alike⟩

end Schemata
