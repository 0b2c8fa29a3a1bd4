import Schemata.Predicate.Eval
import Schemata.Predicate.Lower
import Schemata.Proofs.Decimal.Comparing
import Schemata.Proofs.Decimal.Numerals
import Schemata.Validation

/-!
# Comparing a field with an integer

The condition that compares a field with an integer says about a record what the comparison says
about the two integers. From `2 ^ 63` on the integer becomes a double, and then only those integers
are told apart that are not rounded to the same double.
-/

set_option autoImplicit false

namespace Schemata

def Comparison.Relates : Comparison → Int → Int → Prop
  | .eq, left, right => left = right
  | .ne, left, right => left ≠ right
  | .lt, left, right => left < right
  | .le, left, right => left ≤ right
  | .gt, left, right => left > right
  | .ge, left, right => left ≥ right

instance : (op : Comparison) → (left right : Int) → Decidable (op.Relates left right)
  | .eq, left, right => inferInstanceAs (Decidable (left = right))
  | .ne, left, right => inferInstanceAs (Decidable (left ≠ right))
  | .lt, left, right => inferInstanceAs (Decidable (left < right))
  | .le, left, right => inferInstanceAs (Decidable (left ≤ right))
  | .gt, left, right => inferInstanceAs (Decidable (left > right))
  | .ge, left, right => inferInstanceAs (Decidable (left ≥ right))

theorem Comparison.holds_iff (op : Comparison) {value other : Json} {left right : Int}
    (isNumber : value.toFloat?.isSome = true) (otherIsNumber : other.toFloat?.isSome = true)
    (order : value.order? other = some (compare left right)) :
    op.holds value other = true ↔ op.Relates left right := by
  obtain ⟨_, isNumber⟩ := Option.isSome_iff_exists.1 isNumber
  obtain ⟨_, otherIsNumber⟩ := Option.isSome_iff_exists.1 otherIsNumber
  have equal : value.equal other = (value.order? other == some .eq) := by
    rw [Json.equal, Json.equalBy, isNumber, otherIsNumber]
    rfl
  rcases Int.lt_trichotomy left right with less | rfl | greater
  · rw [Int.compare_eq_lt.2 less] at order
    cases op <;> simp [holds_eq, equal, order, Relates] <;> omega
  · rw [Int.compare_eq_eq.2 rfl] at order
    cases op <;> simp [holds_eq, equal, order, Relates]
  · rw [Int.compare_eq_gt.2 greater] at order
    cases op <;> simp [holds_eq, equal, order, Relates] <;> omega

def numeral (text : String) : Nat :=
  Nat.ofDigits 10 (text.toList.reverse.map fun digit => digit.toNat - '0'.toNat)

namespace Lower

variable {text : String}

theorem notMem_of_digits {char : Char} (digits : text.toList.all Char.isDigit = true)
    (noDigit : char.isDigit = false) : char ∉ text.toList := fun among =>
  absurd (List.all_eq_true.1 digits char among) (by simp [noDigit])

section

variable (nonempty : text ≠ "") (digits : text.toList.all Char.isDigit = true)

include digits

theorem sign_of_digits : Numeral.sign text.toList = (false, text.toList) := by
  unfold Numeral.sign
  split
  next leads => exact absurd (leads ▸ List.mem_cons_self) (notMem_of_digits digits (by decide))
  next leads => exact absurd (leads ▸ List.mem_cons_self) (notMem_of_digits digits (by decide))
  next => rfl

include nonempty

theorem int?_of_digits : Numeral.int? text.toList = some (numeral text : Int) := by
  have denotes : Numeral.readDigits text.toList = numeral text := Numeral.readDigits_eq _
  unfold Numeral.int?
  rw [sign_of_digits digits]
  simp [nonempty, digits, denotes]

theorem float?_of_digits : Numeral.float? text.toList = some (Double.ofInt (numeral text)) := by
  have denotes : Numeral.readDigits text.toList = numeral text := Numeral.readDigits_eq _
  have all := List.all_eq_true.1 digits
  have unscaled : Double.scaled 10 ((0 : Int) - ((0 : Nat) : Int)) = (1, 1) := by decide
  unfold Numeral.float?
  rw [sign_of_digits digits]
  simp only [List.takeWhile_eq_self_iff.2 all, List.dropWhile_eq_nil_iff.2 all, Numeral.fraction,
    List.append_nil, Numeral.exponent?, Option.map_some, denotes, Double.ofDecimal, List.length_nil,
    unscaled, Nat.mul_one, Double.ofInt_natCast]
  simp [nonempty]

end

def integer (number : Nat) : Json :=
  if number < 2 ^ 63 then .int number else .float (Double.ofInt number)

theorem isSigned64_natCast (number : Nat) : Json.isSigned64 number = decide (number < 2 ^ 63) := by
  have power : Nat.pow 2 63 = 2 ^ 63 := rfl
  rw [Json.isSigned64, decide_eq_decide, power]
  omega

theorem number_of_digits (nonempty : text ≠ "") (digits : text.toList.all Char.isDigit = true)
    (fits : numeral text < 2 ^ 64) : Lower.number text = .ok (integer (numeral text)) := by
  rw [Lower.number, int?_of_digits nonempty digits, float?_of_digits nonempty digits, integer,
    Option.filter_some, isSigned64_natCast]
  by_cases small : numeral text < 2 ^ 63
  · simp only [small, decide_true, if_true]
  · have finite := Double.isFinite_ofInt (by omega) fits
    simp only [small, decide_false, Bool.false_eq_true, if_false, Option.filter_some, finite,
      if_true]

theorem order?_integer {number : Nat} {value : Int} (fits : number < 2 ^ 64)
    (valueFits : Double.Fits64 value)
    (apart : number < 2 ^ 63 ∨ (Double.ofInt value = Double.ofInt number → value = number)) :
    (Json.int value).order? (integer number) = some (Ord.compare value number) := by
  unfold integer
  split
  next => rfl
  next large =>
    exact Double.compareFloats_ofInt valueFits (by omega) fits (apart.resolve_left large)

theorem isSome_toFloat?_integer (number : Nat) : (integer number).toFloat?.isSome = true := by
  unfold integer
  split <;> rfl

end Lower

section

variable {schema : Schema} {model : String} {record : Model} {visible : VisibleField}
  {name : Ident} {op : BinaryOp} {comparison : Comparison} {text : String}
  {nameSpan textSpan span : Span}

theorem Scope.lookup?_record (found : schema.field? record name.name = some visible) :
    Scope.lookup? schema name.name [.record record] =
      some (.field 0 0 record visible.field) := by
  simp [lookup?, lookupIn?, found, valueDepth]

theorem Expr.check_bigInt {future : Bool} (found : schema.field? record name.name = some visible)
    (isBigInt : visible.field.type.name = .scalar .bigInt)
    (single : visible.field.type.isList = false) :
    (Expr.reference name nameSpan).check schema future [.record record] =
      pure (.scalar .bigInt) := by
  have type : schema.typeOf visible.field = .scalar .bigInt := by
    rw [Schema.typeOf, SymbolTable.resolve, isBigInt]
  rw [check, Typing.reference, Scope.lookup?_record found]
  simp only [Typing.field, type, single]
  rfl

theorem Typing.literal_of_digits (digits : text.toList.all Char.isDigit = true) :
    Typing.literal (.number text) = .scalar .int := by
  have noPoint : '.' ∉ text.toList := Lower.notMem_of_digits digits (by decide)
  simp [literal, noPoint]

theorem Typing.binary_of_compares (compares : op.comparison? = some comparison) :
    Typing.binary op (.scalar .bigInt) (.scalar .int) span = pure .boolean := by
  cases op <;> first | rfl | cases compares

variable (found : schema.field? record name.name = some visible)
  (isBigInt : visible.field.type.name = .scalar .bigInt)
  (single : visible.field.type.isList = false) (compares : op.comparison? = some comparison)
  (digits : text.toList.all Char.isDigit = true)

include found isBigInt single compares digits

theorem Expr.check_comparedWithInteger :
    (Expr.binary op (.reference name nameSpan) (.literal (.number text) textSpan) span).check
      schema true [.record record] = pure .boolean := by
  rw [check, check_bigInt found isBigInt single, check, Typing.literal_of_digits digits]
  exact Typing.binary_of_compares compares

theorem Expr.lowerWith_comparedWithInteger (nonempty : text ≠ "") (fits : numeral text < 2 ^ 64) :
    (Expr.binary op (.reference name nameSpan) (.literal (.number text) textSpan) span).lowerWith
        (.outside schema) [.record record] =
      .ok (.predicate (.comparison comparison (.field 0 [name.name])
        (.value (Lower.integer (numeral text))))) := by
  have notArithmetic : op.arithmetic? = none := by cases op <;> first | rfl | cases compares
  have noModel : Lower.comparedModel? schema [.record record] comparison
      (.reference name nameSpan) (.literal (.number text) textSpan) = none := by
    unfold Lower.comparedModel? typeIn
    rw [check_bigInt found isBigInt single, check, Typing.literal_of_digits digits]
    exact ite_self _
  have reference : Lower.reference (.outside schema) [.record record] name.name =
      .ok (.field 0 [name.name]) := by
    have named : visible.field.name.name = name.name :=
      beq_iff_eq.1
        (List.find?_some (p := fun field : VisibleField => field.name == name.name) found)
    rw [Lower.reference, LowerContext.outside, LowerContext.inside, Scope.lookup?_record found]
    simp only [named]
  rw [lowerWith, notArithmetic, compares]
  simp only [lowerWith, reference, Lower.literal, Lower.number_of_digits nonempty digits fits]
  simp only [LowerContext.outside, LowerContext.inside, noModel]
  rfl

theorem Schema.lower_comparedWithInteger (known : schema.symbols.model? model = some record)
    (nonempty : text ≠ "") (fits : numeral text < 2 ^ 64) (nameSpan textSpan span : Span) :
    schema.lower model
        (.binary op (.reference name nameSpan) (.literal (.number text) textSpan) span) =
      .ok (.comparison comparison (.field 0 [name.name])
        (.value (Lower.integer (numeral text)))) := by
  have nothing : (!ValueType.boolean.isBooleanLike) = false := by decide
  simp only [lower, known,
    Expr.check_comparedWithInteger found isBigInt single compares digits, Checked.value_pure,
    Checked.diagnostics_pure, nothing, reportIf, Bool.false_eq_true, if_false, List.append_nil,
    Expr.lower,
    Expr.lowerWith_comparedWithInteger found isBigInt single compares digits nonempty fits]
  rfl

end

/--
A condition that compares a field with an integer of 64 bits without a sign compiles, and tells of
an integer in the field what the comparison says. An integer from `2 ^ 63` on stands for the nearest
double, which has to be another one than that of the field's integer if the two are different.
-/
theorem Schema.comparesExactly {schema : Schema} {model : String} {record : Model}
    {visible : VisibleField} {name : Ident} {op : BinaryOp} {comparison : Comparison}
    {text : String} (known : schema.symbols.model? model = some record)
    (found : schema.field? record name.name = some visible)
    (isBigInt : visible.field.type.name = .scalar .bigInt)
    (single : visible.field.type.isList = false) (compares : op.comparison? = some comparison)
    (nonempty : text ≠ "") (digits : text.toList.all Char.isDigit = true)
    (fits : numeral text < 2 ^ 64) (nameSpan textSpan span : Span) :
    ∃ predicate, schema.lower model
        (.binary op (.reference name nameSpan) (.literal (.number text) textSpan) span) =
          .ok predicate ∧
      ∀ (context : EvalContext) (value : Int), Double.Fits64 value →
        context.record.member? name.name = some (.int value) →
        (numeral text < 2 ^ 63 ∨
          (Double.ofInt value = Double.ofInt (numeral text) → value = numeral text)) →
        predicate.eval context = .ok (decide (comparison.Relates value (numeral text))) := by
  have compiled := lower_comparedWithInteger found isBigInt single compares digits known nonempty
    fits nameSpan textSpan span
  refine ⟨_, compiled, ?_⟩
  intro context value valueFits member apart
  have order := Lower.order?_integer fits valueFits apart
  have isNumber : (Json.int value).toFloat?.isSome = true := rfl
  have holds := comparison.holds_iff isNumber (Lower.isSome_toFloat?_integer (numeral text)) order
  have answer : comparison.holds (.int value) (Lower.integer (numeral text)) =
      decide (comparison.Relates value (numeral text)) := by
    rw [Bool.eq_iff_iff, holds, decide_eq_true_iff]
  have read : context.record.walk [name.name] = .int value := by
    simp only [Json.walk, member]
  have place : [context.record][0]? = some context.record := rfl
  simp only [Predicate.eval, Predicate.evalIn, Operand.evalIn, EvalContext.readField, place, read]
  exact congrArg Except.ok answer

namespace Ledger

open Library

def account : Model :=
  ⟨ident "Account", false, [],
    [⟨ident "id", int, [⟨ident "@id", [], Span.zero⟩], Span.zero⟩,
      ⟨ident "balance", ⟨.scalar .bigInt, false, false, Span.zero⟩, [], Span.zero⟩], [], Span.zero⟩

def accounts : Document := ⟨[.model account]⟩

def balance (op : BinaryOp) (text : String) : Expr :=
  .binary op (.reference (ident "balance") Span.zero) (.literal (.number text) Span.zero) Span.zero

def holding (balance : Int) : EvalContext := ⟨.object [("balance", .int balance)], none, none, ""⟩

end Ledger

theorem Ledger.comparesExactly_balance :
    (accounts.validate .standard).isValid = true ∧
      ∃ predicate, (Schema.ofDocument accounts).lower "Account"
          (balance .lt "18446744073709551615") = .ok predicate ∧
        predicate.eval (holding (2 ^ 63 - 1)) = .ok true ∧
        predicate.eval (holding (2 ^ 64 - 2048)) = .ok true ∧
        predicate.eval (holding (-2 ^ 63)) = .ok true ∧
        predicate.eval (holding (2 ^ 64 - 1)) = .ok false := by
  have found : (Schema.ofDocument accounts).field? account (Library.ident "balance").name =
      some ⟨account.fields[1], "Account", false, false⟩ := rfl
  have known : (Schema.ofDocument accounts).symbols.model? "Account" = some account := rfl
  have compares : BinaryOp.lt.comparison? = some .lt := rfl
  have digits : "18446744073709551615".toList.all Char.isDigit = true := by decide
  have number : numeral "18446744073709551615" = 2 ^ 64 - 1 := by decide +kernel
  obtain ⟨predicate, lowered, answers⟩ :=
    Schema.comparesExactly known found rfl rfl compares (by decide) digits (by omega) .zero .zero
      .zero
  simp only [number] at answers
  have told (value : Int) (fits : Double.Fits64 value)
      (apart : Double.ofInt value = Double.ofInt (2 ^ 64 - 1 : Nat) → value = (2 ^ 64 - 1 : Nat)) :
      predicate.eval (holding value) = .ok (decide (value < (2 ^ 64 - 1 : Nat))) :=
    answers (holding value) value fits rfl (.inr apart)
  refine ⟨by decide +kernel, predicate, lowered, ?_, ?_, ?_, ?_⟩
  · exact told (2 ^ 63 - 1) ⟨by decide, by decide⟩ (by decide)
  · exact told (2 ^ 64 - 2048) ⟨by decide, by decide⟩ (by decide)
  · exact told (-2 ^ 63) ⟨by decide, by decide⟩ (by decide)
  · exact told (2 ^ 64 - 1) ⟨by decide, by decide⟩ (by decide)

/-- From `2 ^ 63` on, a balance passes for others that are near it. -/
theorem Ledger.not_comparesExactly_balance :
    (accounts.validate .standard).isValid = true ∧ numeral "9223372036854775809" = 2 ^ 63 + 1 ∧
      ∃ predicate, (Schema.ofDocument accounts).lower "Account"
          (balance .eq "9223372036854775809") = .ok predicate ∧
        predicate.eval (holding (2 ^ 63)) = .ok true ∧
        ¬ Comparison.eq.Relates (2 ^ 63) (2 ^ 63 + 1) := by
  have found : (Schema.ofDocument accounts).field? account (Library.ident "balance").name =
      some ⟨account.fields[1], "Account", false, false⟩ := rfl
  have known : (Schema.ofDocument accounts).symbols.model? "Account" = some account := rfl
  have compares : BinaryOp.eq.comparison? = some .eq := rfl
  have digits : "9223372036854775809".toList.all Char.isDigit = true := by decide
  have number : numeral "9223372036854775809" = 2 ^ 63 + 1 := by decide +kernel
  have lowered := Schema.lower_comparedWithInteger found rfl rfl compares digits known (by decide)
    (by omega) .zero .zero .zero
  rw [number] at lowered
  exact ⟨by decide +kernel, number, _, lowered, by decide, by decide⟩

end Schemata
