import Schemata.Predicate.Eval
import Schemata.Predicate.Lower
import Schemata.Proofs.Result

set_option autoImplicit false

namespace Schemata

mutual

/--
What a predicate tests is a truth value or null, as far as it can be evaluated, also in each of the
places where an element is in scope.
-/
def Predicate.TestsTruth (context : EvalContext) (scopes : List Json) : Predicate → Prop
  | .const _ => True
  | .test operand =>
      operand.TestsTruth context scopes ∧ ∀ value, operand.evalIn context scopes = .ok value →
        value = .null ∨ ∃ truth, value = .bool truth
  | .not predicate => predicate.TestsTruth context scopes
  | .and predicates | .or predicates => Predicate.AllTestTruth context scopes predicates
  | .comparison _ left right => left.TestsTruth context scopes ∧ right.TestsTruth context scopes
  | .any collection predicate =>
      collection.TestsTruth context scopes ∧
        ∀ value element, collection.evalIn context scopes = .ok value → element ∈ value.elements →
          predicate.TestsTruth context (scopes ++ [element])

def Operand.TestsTruth (context : EvalContext) (scopes : List Json) : Operand → Prop
  | .value _ | .field _ _ | .principal _ | .future _ => True
  | .arithmetic _ left right => left.TestsTruth context scopes ∧ right.TestsTruth context scopes
  | .negate operand => operand.TestsTruth context scopes
  | .list operands | .call _ operands => Operand.AllTestTruth context scopes operands
  | .predicate predicate => predicate.TestsTruth context scopes

def Predicate.AllTestTruth (context : EvalContext) (scopes : List Json) : List Predicate → Prop
  | [] => True
  | first :: rest =>
      first.TestsTruth context scopes ∧ Predicate.AllTestTruth context scopes rest

def Operand.AllTestTruth (context : EvalContext) (scopes : List Json) : List Operand → Prop
  | [] => True
  | first :: rest => first.TestsTruth context scopes ∧ Operand.AllTestTruth context scopes rest

end

section

variable {context : EvalContext} {scopes : List Json}

theorem Operand.allTestTruth_iff {operands : List Operand} :
    Operand.AllTestTruth context scopes operands ↔
      ∀ operand ∈ operands, operand.TestsTruth context scopes := by
  induction operands with
  | nil => simp [Operand.AllTestTruth]
  | cons first rest ih => simp [Operand.AllTestTruth, ih]

theorem Predicate.testsTruth_negated {predicate : Predicate}
    (sound : predicate.TestsTruth context scopes) :
    predicate.negated.TestsTruth context scopes := by
  cases predicate <;> exact sound

theorem Predicate.testsTruth_ofComparisons {parts : List Predicate}
    (sound : Predicate.AllTestTruth context scopes parts) :
    (Predicate.ofComparisons parts).TestsTruth context scopes := by
  unfold ofComparisons
  split
  · exact sound.1
  · exact sound

namespace Lower

theorem testsTruth_of_access {object operand : Operand} {name : String}
    (lowered : access object name = .ok operand) : operand.TestsTruth context scopes := by
  unfold access at lowered
  cases object <;> cases lowered <;> trivial

theorem testsTruth_asPredicate {expr : Expr} {operand : Operand}
    (sound : operand.TestsTruth context scopes)
    (isTruth : ∀ value, operand.evalIn context scopes = .ok value →
      value = .null ∨ ∃ truth, value = .bool truth) :
    (asPredicate expr operand).TestsTruth context scopes := by
  unfold asPredicate
  split
  · trivial
  · cases operand with
    | predicate => exact sound
    | _ => exact ⟨sound, isTruth⟩

theorem testsTruth_quantify {quantifier : Quantifier} {collection : Operand}
    {condition : Predicate} (outside : collection.TestsTruth context scopes)
    (inside : ∀ value element, collection.evalIn context scopes = .ok value →
      element ∈ value.elements → condition.TestsTruth context (scopes ++ [element])) :
    (quantify quantifier collection condition).TestsTruth context scopes := by
  have found : (Predicate.any collection condition).TestsTruth context scopes := ⟨outside, inside⟩
  cases quantifier with
  | any => exact found
  | none => exact Predicate.testsTruth_negated found
  | all =>
    have failing : (Predicate.any collection condition.negated).TestsTruth context scopes :=
      ⟨outside, fun value element evaluated member =>
        Predicate.testsTruth_negated (inside value element evaluated member)⟩
    exact Predicate.testsTruth_negated failing

theorem testsTruth_compareMembers {left right : Operand} (fields : List Field) :
    ∀ parts, compareMembers left right fields = .ok parts →
      Predicate.AllTestTruth context scopes parts := by
  induction fields with
  | nil =>
    intro parts lowered
    cases lowered
    trivial
  | cons field rest ih =>
    intro parts lowered
    rcases Except.bind_eq_ok.1 lowered with ⟨part, head, lowered⟩
    rcases Except.bind_eq_ok.1 lowered with ⟨others, tail, lowered⟩
    cases lowered
    rcases Except.bind_eq_ok.1 head with ⟨first, firstRead, head⟩
    rcases Except.bind_eq_ok.1 head with ⟨second, secondRead, head⟩
    cases head
    exact ⟨⟨testsTruth_of_access firstRead, testsTruth_of_access secondRead⟩, ih others tail⟩

theorem testsTruth_compare {schema : Schema} {op : Comparison} {model? : Option Model}
    {left right : Operand} {predicate : Predicate} (first : left.TestsTruth context scopes)
    (second : right.TestsTruth context scopes)
    (lowered : compare schema op model? left right = .ok predicate) :
    predicate.TestsTruth context scopes := by
  unfold compare at lowered
  split at lowered
  next =>
    unfold compareRecords at lowered
    split at lowered
    next => cases lowered
    next =>
      rcases Except.bind_eq_ok.1 lowered with ⟨parts, compared, lowered⟩
      cases lowered
      have same : (Predicate.ofComparisons parts).TestsTruth context scopes :=
        Predicate.testsTruth_ofComparisons (testsTruth_compareMembers _ parts compared)
      split
      · exact same
      · exact Predicate.testsTruth_negated same
  next =>
    cases lowered
    exact ⟨first, second⟩

end Lower

end

end Schemata
