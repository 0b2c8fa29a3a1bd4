import Schemata.Attribute.Check
import Schemata.Proofs.Attribute.Binding
import Schemata.Proofs.Typing.Issues

set_option autoImplicit false

namespace Schemata

variable {text : String}

def Located (text : String) (diagnostics : List Diagnostic) : Prop :=
  ∀ diagnostic ∈ diagnostics, diagnostic.span.IsWithin text

namespace Located

@[simp] theorem nil : Located text [] := fun _ found => nomatch found

@[simp] theorem cons {first : Diagnostic} {rest : List Diagnostic} :
    Located text (first :: rest) ↔ first.span.IsWithin text ∧ Located text rest :=
  List.forall_mem_cons

@[simp] theorem append {first second : List Diagnostic} :
    Located text (first ++ second) ↔ Located text first ∧ Located text second :=
  List.forall_mem_append

@[simp] theorem flatMap {α : Type} {items : List α} {check : α → List Diagnostic} :
    Located text (items.flatMap check) ↔ ∀ item ∈ items, Located text (check item) :=
  List.forall_mem_flatMap

@[simp] theorem map {α : Type} {items : List α} {diagnose : α → Diagnostic} :
    Located text (items.map diagnose) ↔ ∀ item ∈ items, (diagnose item).span.IsWithin text :=
  List.forall_mem_map

@[simp] theorem reportIf {condition : Bool} {diagnostic : Diagnostic} :
    Located text (reportIf condition diagnostic) ↔
      (condition = true → diagnostic.span.IsWithin text) := by
  cases condition <;> simp [Schemata.reportIf]

end Located

@[simp] theorem Diagnostic.span_error (span : Span) (issue : Issue) :
    (error span issue).span = span := rfl

@[simp] theorem Diagnostic.span_warning (span : Span) (issue : Issue) :
    (warning span issue).span = span := rfl

@[simp] theorem Diagnostic.span_unresolved (target : LinkTarget) (ident : Ident) :
    (unresolved target ident).span = ident.span := rfl

abbrev Outline.IsWithin (text : String) (outline : Outline) : Prop :=
  outline.All (Span.IsWithin text)

abbrev Argument.IsWithin (text : String) (argument : Argument) : Prop :=
  argument.All (Span.IsWithin text)

theorem Span.IsWithin.cover {first second : Span} (one : first.IsWithin text)
    (other : second.IsWithin text) : (first.cover second).IsWithin text := by
  refine ⟨?_, ?_, ?_⟩
  · simp only [Span.cover, Nat.min_def]
    split
    · exact one.start
    · exact other.start
  · simp only [Span.cover, Nat.max_def]
    split
    · exact other.stop
    · exact one.stop
  · exact Nat.le_trans (Nat.min_le_left _ _) (Nat.le_trans one.ordered (Nat.le_max_left _ _))

theorem Argument.isWithin_span {argument : Argument} (within : argument.IsWithin text) :
    argument.span.IsWithin text := by
  cases argument with
  | positional value => exact Expr.all_span (all_positional.1 within)
  | named name value =>
    obtain ⟨named, given⟩ := all_named.1 within
    exact named.cover (Expr.all_span given)

@[simp] theorem Attribute.isWithin_outline {applied : Attribute} :
    applied.outline.IsWithin text ↔
      applied.span.IsWithin text ∧ applied.name.span.IsWithin text ∧
        ∀ argument ∈ applied.arguments, argument.IsWithin text := by
  simp only [outline, Outline.all_node, List.forall_mem_singleton, List.forall_mem_cons,
    List.forall_mem_flatMap, Ident.all_outline, Argument.All]

theorem Expr.located_check {expr : Expr} (within : expr.outline.IsWithin text) {schema : Schema}
    {future : Bool} (scope : Scope) : Located text (expr.check schema future scope).diagnostics :=
  fun diagnostic reported => (expr.errorsAt_check within scope diagnostic reported).2

theorem Slot.isWithin_missing {argument : Argument} (within : argument.IsWithin text)
    (attr : String) (slots : List Slot) :
    (missing attr slots argument).span.IsWithin text := by
  unfold missing
  split
  next name named => exact within.name named
  next => split <;> exact Argument.isWithin_span within

theorem Slot.isWithin_of_place {attr : String} {slots : List Slot} {argument : Argument}
    {error : BindError} (within : argument.IsWithin text)
    (failed : place attr slots argument = .error error) : error.span.IsWithin text := by
  unfold place at failed
  split at failed
  next =>
    cases failed
    exact isWithin_missing within attr slots
  next =>
    split at failed
    next => cases failed
    next =>
      cases failed
      exact Argument.isWithin_span within
    next =>
      cases failed
      exact isWithin_missing within attr slots

theorem Slot.isWithin_placeAll {attr : String} {arguments : List Argument}
    (within : ∀ argument ∈ arguments, argument.IsWithin text) : ∀ slots : List Slot,
      ∀ error ∈ (placeAll attr slots arguments).2, error.span.IsWithin text := by
  induction arguments with
  | nil => exact fun _ _ found => nomatch found
  | cons argument rest ih =>
    obtain ⟨here, behind⟩ := List.forall_mem_cons.1 within
    intro slots error found
    rw [placeAll] at found
    split at found
    next => exact ih behind _ error found
    next failure failed =>
      rcases List.mem_cons.1 found with rfl | found
      · exact isWithin_of_place here failed
      · exact ih behind _ error found

namespace Attribute

variable {applied : Attribute} {decl : AttributeDecl} (within : applied.outline.IsWithin text)

include within

theorem located_of_bind_error {errors : List BindError}
    (failed : applied.bind decl = .error errors) :
    Located text (errors.map BindError.diagnostic) := by
  obtain ⟨here, -, arguments⟩ := isWithin_outline.1 within
  rw [Located.map]
  unfold bind at failed
  simp only at failed
  split at failed
  next => cases failed
  next =>
    cases failed
    refine List.forall_mem_append.2 ⟨Slot.isWithin_placeAll arguments _, fun error found => ?_⟩
    -- A parameter that gets nothing is reported at the attribute itself.
    obtain ⟨slot, -, lacks⟩ := List.mem_filterMap.1 found
    unfold Slot.lack at lacks
    split at lacks
    next =>
      cases lacks
      exact here
    next => cases lacks

theorem isWithin_of_bind {bounds : List Bound} (bound : applied.bind decl = .ok bounds) :
    ∀ given ∈ bounds, given.value.outline.IsWithin text := by
  intro given member
  obtain ⟨slots, -, rfl, -, taken⟩ := slots_of_bind bound
  obtain ⟨slot, listed, same⟩ := List.mem_filterMap.1 member
  obtain ⟨argument, here, rfl⟩ := Option.map_eq_some_iff.1 same
  exact ((isWithin_outline.1 within).2.2 argument (taken slot listed argument here)).value

end Attribute

theorem Bound.isWithin_of_value? {bounds : List Bound} {param : String} {value : Expr}
    (within : ∀ given ∈ bounds, given.value.outline.IsWithin text)
    (found : value? bounds param = some value) : value.outline.IsWithin text := by
  obtain ⟨given, known, rfl⟩ := Option.map_eq_some_iff.1 found
  exact within given (List.mem_of_find?_eq_some known)

theorem Expr.isWithin_of_reference? {value : Expr} {name : Ident}
    (within : value.outline.IsWithin text) (named : value.reference? = some name) :
    name.span.IsWithin text := by
  unfold reference? at named
  split at named
  next =>
    cases named
    simpa [outline] using (Outline.all_node.1 within).2
  next => cases named

theorem Expr.isWithin_of_fieldName? {value : Expr} {name : Ident}
    (within : value.outline.IsWithin text) (named : value.fieldName? = some name) :
    name.span.IsWithin text := by
  unfold fieldName? at named
  split at named
  next =>
    cases named
    simpa [outline] using (Outline.all_node.1 within).2
  next =>
    cases named
    exact (all_call.1 within).2.1
  next => cases named

@[simp] theorem span_notAssignable (applied : Attribute) (param : String) (span : Span) :
    (notAssignable applied param span).span = span := rfl

namespace Schema

variable {schema : Schema} {site : AttributeSite} {applied : Attribute}

theorem located_checkFieldOption {argument : Argument} (within : argument.IsWithin text) :
    Located text (schema.checkFieldOption applied argument) := by
  have given := Expr.all_span within.value
  unfold checkFieldOption
  simp only
  split
  · simpa using fun _ => given
  · simpa using fun _ => given
  · simpa using Argument.isWithin_span within
  · simpa using Argument.isWithin_span within

theorem located_checkFieldEntry {entry : Expr} (within : entry.outline.IsWithin text)
    (param : String) (model : Model) :
    Located text (schema.checkFieldEntry applied param model entry) := by
  unfold checkFieldEntry
  split
  next => simpa using Expr.all_span within
  next name named =>
    rw [Located.append, Located.flatMap]
    constructor
    · simpa using fun _ => Expr.isWithin_of_fieldName? within named
    · unfold fieldOptions
      split
      next => exact fun argument found =>
        located_checkFieldOption ((Expr.all_call.1 within).2.2 argument found)
      next => exact fun _ found => nomatch found

theorem isWithin_of_fieldEntries? {param : AttributeParam} {value : Expr} {entries : List Expr}
    (within : value.outline.IsWithin text) (split : fieldEntries? param value = some entries) :
    ∀ entry ∈ entries, entry.outline.IsWithin text := by
  unfold fieldEntries? at split
  split at split
  next =>
    split at split
    next =>
      cases split
      exact (Expr.all_list.1 within).2
    next => cases split
  next =>
    cases split
    exact List.forall_mem_singleton.2 within

theorem located_checkFieldReferences {given : Bound} (within : given.value.outline.IsWithin text)
    (model : Option Model) :
    Located text (schema.checkFieldReferences model applied given) := by
  unfold checkFieldReferences
  simp only
  split
  next => simpa using Expr.all_span within
  next entries listed =>
    split
    next => exact Located.nil
    next model =>
      exact Located.flatMap.2 fun entry found =>
        located_checkFieldEntry (isWithin_of_fieldEntries? within listed entry found) _ model

theorem located_checkTyped {given : Bound} (within : given.value.outline.IsWithin text)
    (expected : ValueType) :
    Located text (schema.checkTyped site applied given expected) := by
  simp only [checkTyped, Located.append, Located.reportIf, span_notAssignable]
  exact ⟨Expr.located_check within _, fun _ => Expr.all_span within⟩

theorem located_checkValue {given : Bound} (within : given.value.outline.IsWithin text) :
    Located text (schema.checkValue site applied given) := by
  unfold checkValue
  split
  · exact located_checkFieldReferences within _
  · exact located_checkFieldReferences within _
  · exact located_checkTyped within _
  · exact located_checkTyped within _

section

variable {bounds : List Bound} (within : ∀ given ∈ bounds, given.value.outline.IsWithin text)

include within

theorem located_checkOperations :
    Located text (checkOperations site applied bounds).diagnostics := by
  unfold checkOperations
  split
  next => exact Located.nil
  next value found =>
    have here := Expr.all_span (Bound.isWithin_of_value? within found)
    split
    next => simpa using here
    next => split <;> simp [here]

theorem located_checkCondition (future : Bool) :
    Located text (schema.checkCondition future site applied bounds) := by
  unfold checkCondition
  split
  next => exact Located.nil
  next condition found =>
    have placed := Bound.isWithin_of_value? within found
    simp only [Located.append, Located.reportIf, span_notAssignable]
    exact ⟨Expr.located_check placed _, fun _ => Expr.all_span placed⟩

theorem located_checkDelegate (model : Model) :
    Located text (schema.checkDelegate model applied bounds) := by
  unfold checkDelegate
  split
  next => exact Located.nil
  next value found =>
    have placed := Bound.isWithin_of_value? within found
    split
    next => simpa using Expr.all_span placed
    next name named =>
      have here := Expr.isWithin_of_reference? placed named
      split
      next => simp [here]
      next => split <;> simp [here]

theorem located_checkBound : Located text (schema.checkBound site applied bounds) := by
  unfold checkBound
  split
  next =>
    exact Located.append.2 ⟨located_checkOperations within, located_checkCondition within _⟩
  next =>
    split
    next =>
      split
      next => exact located_checkDelegate within _
      next => exact Located.nil
    next => exact Located.flatMap.2 fun given found => located_checkValue (within given found)

end

theorem located_checkAttribute (within : applied.outline.IsWithin text) :
    Located text (schema.checkAttribute site applied) := by
  unfold checkAttribute
  split
  next => exact Located.nil
  next decl known =>
    split
    next errors failed => exact Attribute.located_of_bind_error within failed
    next bounds bound =>
      split
      next => exact located_checkBound (Attribute.isWithin_of_bind within bound)
      next => simpa using (Attribute.isWithin_outline.1 within).2.1

end Schema

end Schemata
