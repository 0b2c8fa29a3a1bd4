import Schemata.Proofs.Order.Groups
import Schemata.Proofs.Order.Hierarchy
import Schemata.Proofs.Order.Lowering
import Schemata.Proofs.Order.Names
import Schemata.Proofs.Order.Passes

/-!
# The order of declarations

A valid document may put its declarations into any order. It stays valid, has the same relations and
the same policies. Only enums that share the name of a member have to keep their order, because a
member is found in the first of them.
-/

set_option autoImplicit false

namespace Schemata

namespace Relation

variable {schema other : Schema} (alike : schema.Alike other)
include alike

theorem ownCandidates_alike : ownCandidates other = ownCandidates schema := by
  funext model
  have candidate (model : Model) (visible : VisibleField) :
      candidate? other model visible = candidate? schema model visible := by
    have made := candidate?_reorder alike.reordered model visible
    rwa [Candidate.reorder_bases, Option.map_id_fun, Checked.convert_id] at made
  have all (visibles : List VisibleField) :
      candidatesOf other model visibles = candidatesOf schema model visibles := by
    induction visibles with
    | nil => rfl
    | cons visible rest ih => rw [candidatesOf, candidatesOf, candidate, ih]
  rw [ownCandidates, all, alike.fields, ownCandidates]

theorem groupEdge_alike : groupEdge other = groupEdge schema := by
  funext key members
  have self := selfEdge_reorder alike.reordered members
  have cross (left right : List Candidate) := crossEdge_reorder alike.reordered left right
  simp only [Candidate.reorder_bases, List.map_id] at self cross
  rw [groupEdge, self, cross, groupEdge]

end Relation

namespace Document

variable {document other : Document} {options : ValidationOptions}

theorem alike_of_perm (unambiguous : document.Unambiguous) (apart : document.HasDistinctMembers)
    (perm : other.declarations.Perm document.declarations) :
    (Schema.ofDocument document).Alike (.ofDocument other) := by
  have declared : other.declarations.Perm (document.reorder Model.bases).declarations := by
    rwa [reorder, Declaration.reorder_bases, List.map_id]
  have unique : UniqueNames document.models := document.uniqueNames_of_nodup unambiguous.distinct
  have models : other.models.Perm document.models := perm.filterMap _
  have enums : other.enums.Perm document.enums := perm.filterMap _
  obtain ⟨place, moves⟩ := Hierarchy.exists_moves unique models
  constructor
  case declaration? =>
    intro name
    rw [unambiguous.declaration? declared, Declaration.reorder_bases, Option.map_id, id]
  case origin? => exact unambiguous.origin? declared
  case enumMember? =>
    exact fun name => unambiguous.enumMember? declared name (apart.findSome?_perm enums name)
  case view? => exact moves.view?_eq
  case distinct => exact Hierarchy.nodup_fields_ofModels
  case size =>
    have symbols (document : Document) : (Schema.ofDocument document).symbols =
      SymbolTable.ofDocument document := rfl
    rw [symbols, symbols, SymbolTable.symbols_of_unambiguous unambiguous,
      SymbolTable.symbols_of_unambiguous (unambiguous.reordered declared)]
    simp [perm.length_eq]

theorem isValid_of_perm (valid : (document.validate options).isValid = true)
    (apart : document.HasDistinctMembers)
    (perm : other.declarations.Perm document.declarations) :
    (other.validate options).isValid = true ∧
      (Schema.ofDocument other).relations.value.Perm
        (Schema.ofDocument document).relations.value ∧
      (Schema.ofDocument other).bundle.toOption = (Schema.ofDocument document).bundle.toOption := by
  have unambiguous := unambiguous_of_clean (document.clean_of_isValid valid .symbols)
  have unique : UniqueNames document.models := document.uniqueNames_of_nodup unambiguous.distinct
  have alike := alike_of_perm unambiguous apart perm
  have declared : other.declarations.Perm (document.reorder Model.bases).declarations := by
    rwa [reorder, Declaration.reorder_bases, List.map_id]
  have reordered : Reordered Model.bases document other :=
    ⟨declared, fun model _ => .refl _, alike.reordered⟩
  have models : (Schema.ofDocument other).hierarchy.models.Perm
      (Schema.ofDocument document).hierarchy.models := by
    rw [Schema.models_ofDocument, Schema.models_ofDocument]
    exact perm.filterMap _
  rw [← Schema.models_ofDocument] at unique
  have relations := Relation.relations_perm unique models (Relation.ownCandidates_alike alike)
    (Relation.groupEdge_alike alike)
  refine ⟨?_, relations.1, ?_⟩
  · refine reordered.isValid valid ?_ ?_ relations.2.subset
    · exact SymbolTable.clashes_of_unambiguous (unambiguous.reordered declared)
    · -- The models of the other document move back to where they stand in this one.
      rw [Schema.models_ofDocument] at unique
      obtain ⟨place, moves⟩ := Hierarchy.exists_moves (unique.perm (perm.filterMap _))
        (perm.filterMap _).symm
      exact Hierarchy.check_eq_nil (moves.faultless
        (Hierarchy.faultless_of_clean unique (document.clean_of_isValid valid .inheritance)))
  · refine Option.ext fun bundle => ?_
    rw [Except.toOption_eq_some, Except.toOption_eq_some]
    exact ⟨Schema.bundle_eq_ok_of_perm alike.symm (unique.perm models) models.symm,
      Schema.bundle_eq_ok_of_perm alike unique models⟩

end Document

namespace Clinic

open Library Club

def idField : Field := ⟨ident "id", int, [⟨ident "@id", [], Span.zero⟩], Span.zero⟩

def enum (name : String) (members : List String) : EnumDecl :=
  ⟨ident name, members.map fun member => ⟨ident member, [], Span.zero⟩, [], Span.zero⟩

def reference (name : String) : Expr := .reference (ident name) Span.zero

def rule (kind operations : String) (condition : Expr) : Attribute :=
  ⟨ident kind, [.positional (.literal (.string operations) Span.zero), .positional condition],
    Span.zero⟩

/-- `function treats(role: Role): Boolean { role == DOCTOR }` -/
def treats : FunctionDecl :=
  ⟨ident "treats", [⟨ident "role", named "Role"⟩], boolean,
    some (.binary .eq (reference "role") (reference "DOCTOR") Span.zero), Span.zero⟩

/-- `treats(doctor.role) && ward != SOUTH` -/
def isTreated : Expr :=
  .binary .and
    (.call (ident "treats")
      [.positional (.access (reference "doctor") (ident "role") Span.zero)] Span.zero)
    (.binary .ne (reference "ward") (reference "SOUTH") Span.zero) Span.zero

def person : Model :=
  ⟨ident "Person", true, [], [idField, field "name" string []], [], Span.zero⟩

def visit : Model :=
  ⟨ident "Visit", false, [],
    [idField, field "ward" (named "Ward") [], field "doctorId" int [],
      field "doctor" (named "User") [fieldList "fields" "doctorId", fieldList "references" "id"]],
    [rule "@@allow" "read" isTreated,
      rule "@@deny" "delete" (.literal (.boolean true) Span.zero)], Span.zero⟩

def user : Model :=
  ⟨ident "User", false, [ident "Person"],
    [field "role" (named "Role") [], field "visits" (list (named "Visit")) [],
      field "mentorId" int [],
      field "mentor" (named "User")
        [relationName "mentors", fieldList "fields" "mentorId", fieldList "references" "id"],
      field "students" (list (named "User")) [relationName "mentors"]], [], Span.zero⟩

def document : Document :=
  ⟨[.enum (enum "Role" ["DOCTOR", "NURSE"]), .enum (enum "Ward" ["NORTH", "SOUTH"]),
    .function treats, .model person, .model visit, .model user]⟩

def reversed : Document := ⟨document.declarations.reverse⟩

end Clinic

theorem Clinic.isValid_reversed :
    (document.validate .standard).isValid = true ∧ document.HasDistinctMembers ∧
      reversed.declarations.Perm document.declarations ∧
      (Schema.ofDocument document).relations.value.length = 2 ∧
      ((Schema.ofDocument document).bundle.toOption.map (·.models.entries.length)) = some 2 ∧
      (reversed.validate .standard).isValid = true ∧
      (Schema.ofDocument reversed).relations.value.Perm
        (Schema.ofDocument document).relations.value ∧
      (Schema.ofDocument reversed).bundle.toOption =
        (Schema.ofDocument document).bundle.toOption := by
  have valid : (document.validate .standard).isValid = true := by decide +kernel
  have apart : document.HasDistinctMembers := by decide +kernel
  have perm : reversed.declarations.Perm document.declarations :=
    List.reverse_perm document.declarations
  exact ⟨valid, apart, perm, by decide +kernel, by decide +kernel,
    Document.isValid_of_perm valid apart perm⟩

end Schemata
