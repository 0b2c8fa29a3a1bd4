import Schemata.Predicate.Lower
import Schemata.Proofs.Predicate.Induction
import Schemata.Proofs.Result
import Schemata.Proofs.Syntax.ExprInduction

/-!
# Hygienic inlining

The elements that a collection predicate binds are known by their places in scope. An argument that
reads an element of its own therefore reads another one where a body has bound elements around it.
Inlining is hygienic if no such argument is read inside a collection predicate of a body.
-/

set_option autoImplicit false

namespace Schemata

mutual

def Predicate.readsBelow (bound : Nat) : Predicate → Bool
  | .const _ => true
  | .test operand => operand.readsBelow bound
  | .not predicate => predicate.readsBelow bound
  | .and predicates | .or predicates => Predicate.allReadBelow bound predicates
  | .comparison _ left right => left.readsBelow bound && right.readsBelow bound
  | .any collection predicate => collection.readsBelow bound && predicate.readsBelow bound

def Operand.readsBelow (bound : Nat) : Operand → Bool
  | .value _ | .principal _ | .future _ => true
  | .field scope _ => decide (scope < bound)
  | .arithmetic _ left right => left.readsBelow bound && right.readsBelow bound
  | .negate operand => operand.readsBelow bound
  | .list operands | .call _ operands => Operand.allReadBelow bound operands
  | .predicate predicate => predicate.readsBelow bound

def Predicate.allReadBelow (bound : Nat) : List Predicate → Bool
  | [] => true
  | first :: rest => first.readsBelow bound && Predicate.allReadBelow bound rest

def Operand.allReadBelow (bound : Nat) : List Operand → Bool
  | [] => true
  | first :: rest => first.readsBelow bound && Operand.allReadBelow bound rest

end

theorem Predicate.allReadBelow_iff {bound : Nat} {parts : List Predicate} :
    Predicate.allReadBelow bound parts = true ↔ ∀ part ∈ parts, part.readsBelow bound = true := by
  induction parts with
  | nil => simp [Predicate.allReadBelow]
  | cons first rest ih => simp [Predicate.allReadBelow, ih]

theorem Operand.allReadBelow_iff {bound : Nat} {items : List Operand} :
    Operand.allReadBelow bound items = true ↔ ∀ item ∈ items, item.readsBelow bound = true := by
  induction items with
  | nil => simp [Operand.allReadBelow]
  | cons first rest ih => simp [Operand.allReadBelow, ih]

section

variable (context : EvalContext) (shared : List Json)

theorem Operand.evalEach_shared {items : List Operand} {left right : List Json}
    (each : ∀ item ∈ items,
      item.evalIn context (shared ++ left) = item.evalIn context (shared ++ right)) :
    Operand.evalEach context (shared ++ left) items =
      Operand.evalEach context (shared ++ right) items := by
  rw [Operand.evalEach_eq_mapM, Operand.evalEach_eq_mapM, List.map_congr_left each]

theorem evalIn_shared_and :
    (∀ predicate : Predicate, predicate.readsBelow shared.length = true →
      ∀ left right : List Json,
        predicate.evalIn context (shared ++ left) = predicate.evalIn context (shared ++ right)) ∧
    ∀ operand : Operand, operand.readsBelow shared.length = true →
      ∀ left right : List Json,
        operand.evalIn context (shared ++ left) = operand.evalIn context (shared ++ right) := by
  -- The values on both sides change below a collection predicate, where its element joins them.
  apply Predicate.induction_and
  case const | value | principal | future => intros; simp only [Predicate.evalIn, Operand.evalIn]
  case test =>
    intro operand ih below left right
    simp only [Predicate.evalIn, ih below left right]
  case not =>
    intro predicate ih below left right
    simp only [Predicate.evalIn, ih below left right]
  case and =>
    intro parts ih below left right
    have each := Predicate.allReadBelow_iff.1 below
    simp only [Predicate.evalIn, Predicate.evalAll_eq_allM]
    exact allM_congr fun part found => ih part found (each part found) left right
  case or =>
    intro parts ih below left right
    have each := Predicate.allReadBelow_iff.1 below
    simp only [Predicate.evalIn, Predicate.evalAny_eq_anyM]
    exact anyM_congr fun part found => ih part found (each part found) left right
  case comparison =>
    intro op first second firstIh secondIh below left right
    simp only [Predicate.readsBelow, Bool.and_eq_true] at below
    simp only [Predicate.evalIn, firstIh below.1 left right, secondIh below.2 left right]
  case any =>
    intro collection predicate collectionIh predicateIh below left right
    simp only [Predicate.readsBelow, Bool.and_eq_true] at below
    -- The element stands behind what differs, and so it differs with it.
    have element (value : Json) :
        predicate.evalIn context (shared ++ left ++ [value]) =
          predicate.evalIn context (shared ++ right ++ [value]) := by
      rw [List.append_assoc, List.append_assoc]
      exact predicateIh below.2 _ _
    simp only [Predicate.evalIn, collectionIh below.1 left right, element]
  case field =>
    intro scope path below left right
    simp only [Operand.readsBelow, decide_eq_true_eq] at below
    -- The only reading by place, which the bound keeps within what is shared.
    simp only [Operand.evalIn, EvalContext.readField, List.getElem?_append_left below]
  case arithmetic =>
    intro op first second firstIh secondIh below left right
    simp only [Operand.readsBelow, Bool.and_eq_true] at below
    simp only [Operand.evalIn, firstIh below.1 left right, secondIh below.2 left right]
  case negate =>
    intro operand ih below left right
    simp only [Operand.evalIn, ih below left right]
  case list =>
    intro items ih below left right
    have each := Operand.allReadBelow_iff.1 below
    have same := Operand.evalEach_shared context shared fun item found =>
      ih item found (each item found) left right
    simp only [Operand.evalIn, same]
  case call =>
    intro function arguments ih below left right
    have each := Operand.allReadBelow_iff.1 below
    have same := Operand.evalEach_shared context shared fun argument found =>
      ih argument found (each argument found) left right
    simp only [Operand.evalIn, same]
  case predicate =>
    intro predicate ih below left right
    simp only [Operand.evalIn, ih below left right]

end

def Scope.paramIndex? (schema : Schema) (name : String) (scope : Scope) : Option Nat :=
  match scope.lookup? schema name with
  | some (.param _ index _) => some index
  | _ => none

mutual

/--
The places of the parameters that an expression reads, or of those only that it reads inside a
collection predicate.
-/
def Expr.paramsRead (schema : Schema) (inside : Bool) (scope : Scope) : Expr → List Nat
  | .literal _ _ | .this _ => []
  | .reference name _ => if inside then [] else (scope.paramIndex? schema name.name).toList
  | .access object _ _ => object.paramsRead schema inside scope
  | .unary _ operand _ => operand.paramsRead schema inside scope
  | .binary _ left right _ =>
      left.paramsRead schema inside scope ++ right.paramsRead schema inside scope
  | .call function arguments _ =>
      if function.name = "auth" ∨ function.name = "future" then []
      else Argument.paramsReadByAll schema inside scope arguments
  | .list items _ => Expr.paramsReadByAll schema inside scope items
  | .quantified collection _ condition _ =>
      collection.paramsRead schema inside scope ++
        match (collection.typeIn schema scope).kind with
        | .model model => condition.paramsRead schema false (.element model :: scope)
        | _ => []

def Expr.paramsReadByAll (schema : Schema) (inside : Bool) (scope : Scope) :
    List Expr → List Nat
  | [] => []
  | item :: rest =>
      item.paramsRead schema inside scope ++ Expr.paramsReadByAll schema inside scope rest

def Argument.paramsReadByAll (schema : Schema) (inside : Bool) (scope : Scope) :
    List Argument → List Nat
  | [] => []
  | .positional value :: rest | .named _ value :: rest =>
      value.paramsRead schema inside scope ++ Argument.paramsReadByAll schema inside scope rest

end

theorem Expr.mem_paramsReadByAll {schema : Schema} {inside : Bool} {scope : Scope}
    {items : List Expr} {index : Nat} :
    index ∈ Expr.paramsReadByAll schema inside scope items ↔
      ∃ item ∈ items, index ∈ item.paramsRead schema inside scope := by
  induction items with
  | nil => simp [Expr.paramsReadByAll]
  | cons first rest ih => simp [Expr.paramsReadByAll, ih]

theorem Argument.mem_paramsReadByAll {schema : Schema} {inside : Bool} {scope : Scope}
    {arguments : List Argument} {index : Nat} :
    index ∈ Argument.paramsReadByAll schema inside scope arguments ↔
      ∃ argument ∈ arguments, index ∈ argument.value.paramsRead schema inside scope := by
  induction arguments with
  | nil => simp [Argument.paramsReadByAll]
  | cons first rest ih =>
    cases first <;> simp [Argument.paramsReadByAll, Argument.value, ih]

theorem Expr.mem_paramsRead_of_inside {schema : Schema} {index : Nat} (expr : Expr) :
    ∀ scope : Scope, index ∈ expr.paramsRead schema true scope →
      index ∈ expr.paramsRead schema false scope := by
  induction expr using Expr.inductionOn with
  | literal | this => intro scope read; exact read
  | reference name span => intro scope read; simp [Expr.paramsRead] at read
  | access object member span ih | unary op operand span ih => exact ih
  | binary op left right span leftIh rightIh =>
    intro scope read
    simp only [Expr.paramsRead, List.mem_append] at read ⊢
    exact read.imp (leftIh scope) (rightIh scope)
  | call function arguments span ih =>
    intro scope read
    simp only [Expr.paramsRead] at read ⊢
    split at read
    · simp at read
    next named =>
      rw [if_neg named, Argument.mem_paramsReadByAll]
      obtain ⟨argument, found, read⟩ := Argument.mem_paramsReadByAll.1 read
      exact ⟨argument, found, ih argument found scope read⟩
  | list items span ih =>
    intro scope read
    simp only [Expr.paramsRead, Expr.mem_paramsReadByAll] at read ⊢
    obtain ⟨item, found, read⟩ := read
    exact ⟨item, found, ih item found scope read⟩
  | quantified collection quantifier condition span collectionIh conditionIh =>
    -- The condition is read whole either way. Only the collection may stand inside another one.
    intro scope read
    simp only [Expr.paramsRead, List.mem_append] at read ⊢
    exact read.imp (collectionIh scope) id

/--
Decide whether arguments that are lowered with `depth` values in scope keep their meaning in a
body: those that it reads inside a collection predicate read no element of their own.
-/
def FunctionDecl.keepsArguments (schema : Schema) (decl : FunctionDecl) (depth : Nat)
    (arguments : List Operand) : Bool :=
  decl.body.all fun body =>
    (body.paramsRead schema true [.function decl.params]).all fun index =>
      arguments[index]?.all (Operand.readsBelow depth)

/-- Inline a call as `inlineInside` does, but refuse arguments that lose their meaning. -/
def Lower.inlineHygienic (schema : Schema) :
    Nat → List String → Nat → FunctionDecl → List Operand → Nat → Except LowerError Operand
  | fuel, inlined, base, decl, arguments, depth =>
      let name := decl.name.name
      if name ∈ inlined then .error (.recursiveFunction name)
      else if decl.keepsArguments schema (base + depth) arguments then
        match fuel, decl.body with
        | fuel + 1, some body =>
            body.lowerWith
              ⟨schema, base + depth, arguments,
                Lower.inlineHygienic schema fuel (name :: inlined) (base + depth)⟩
              [.function decl.params]
        | _, _ => .error (.unresolved name)
      else .error (.unresolved name)

end Schemata
