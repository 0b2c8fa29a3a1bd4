import Schemata.Proofs.Result
import Schemata.Proofs.Syntax.Follow

/-!
# Levels of binding

What it means that a text reads as an expression at a level of binary operators, as the left part of
an operator of the level, or as an operand that suffixes may follow.

The fuel that a text needs is counted in its characters: sixteen for each, of which the steps from
the loosest level down to the primary forms take at most nine.
-/

set_option autoImplicit false

namespace Schemata.Reading

open Cursor (Leads)

/-- The text reads as the expression where operands of `level` are read. -/
def ReadsAt (comments : Bool) (level : Nat) (text : List Char) (expr : Expr) : Prop :=
  ∀ chars rest offset fuel, Leads comments chars (text ++ rest) → Ends comments (level + 1) rest →
    16 * text.length ≤ fuel + level + 1 → ∃ value after,
      binaryWith comments fuel (BinaryOp.levels.drop level) ⟨offset, chars⟩ =
        .ok (value, ⟨after, rest⟩) ∧ value.erase = expr.erase

/-- The text reads as the expression, which operators of `level` may go on with. -/
def JoinsAt (comments : Bool) (level : Nat) (text : List Char) (expr : Expr) : Prop :=
  ∀ ops tighter, BinaryOp.levels.drop level = ops :: tighter →
    ∀ chars rest offset fuel, Leads comments chars (text ++ rest) →
      Ends comments (level + 2) rest → 16 * text.length ≤ fuel + level + 1 →
      ∃ value after left, fuel + 8 ≤ left + 16 * text.length ∧
        binaryWith comments fuel (ops :: tighter) ⟨offset, chars⟩ =
          joinWith comments left ops tighter value ⟨after, rest⟩ ∧ value.erase = expr.erase

/-- The text reads as the expression, which suffixes may go on with. -/
def Suffixes (comments : Bool) (text : List Char) (expr : Expr) : Prop :=
  ∀ rest offset start fuel, WordEnds comments rest → 16 * text.length ≤ fuel + 9 →
    ∃ value after left, fuel + 16 ≤ left + 16 * text.length ∧
      (primaryWith comments fuel ⟨offset, text ++ rest⟩ >>= fun (object, after) =>
        suffixesWith comments fuel start object after) =
        suffixesWith comments left start value ⟨after, rest⟩ ∧ value.erase = expr.erase

def startsExpr (char : Char) : Bool :=
  isIdentStart char || char.isDigit || ['(', '[', '"', '!', '-'].contains char

/-- A text that starts as an expression does, and with no unary operator if `isOperand`. -/
def Starts (isOperand : Bool) (text : List Char) : Prop :=
  ∃ first others, text = first :: others ∧ startsExpr first = true ∧
    (isOperand = true → first ≠ '!' ∧ first ≠ '-')

variable {comments : Bool} {level : Nat} {text rest : List Char} {expr : Expr}

theorem Starts.length_pos {isOperand : Bool} (starts : Starts isOperand text) :
    0 < text.length := by
  obtain ⟨first, others, rfl, _⟩ := starts
  exact Nat.succ_pos _

theorem Starts.append {isOperand : Bool} (starts : Starts isOperand text) (rest : List Char) :
    Starts isOperand (text ++ rest) := by
  obtain ⟨first, others, rfl, startsExpr⟩ := starts
  exact ⟨first, others ++ rest, rfl, startsExpr⟩

theorem Starts.leads {isOperand : Bool} (starts : Starts isOperand text) :
    Leads comments text text := by
  obtain ⟨first, others, rfl, startsExpr, _⟩ := starts
  exact Cursor.leads_of_ne_slash (Cursor.isSkipped_of_test startsExpr rfl)
    (ne_of_test startsExpr (by decide))

theorem Starts.weaken {isOperand : Bool} (starts : Starts isOperand text) : Starts false text := by
  obtain ⟨first, others, same, startsExpr, _⟩ := starts
  exact ⟨first, others, same, startsExpr, nofun⟩

theorem Starts.head_ne {isOperand : Bool} (starts : Starts isOperand text) {char : Char}
    (other : startsExpr char = false) : text.head? ≠ some char := by
  obtain ⟨first, others, rfl, startsExpr, _⟩ := starts
  exact fun same => ne_of_test startsExpr other (Option.some.inj same)

theorem Starts.unaryOp?_eq_none (starts : Starts true text) (offset : Nat) :
    unaryOp? ⟨offset, text⟩ = none := by
  obtain ⟨first, others, rfl, _, noOperator⟩ := starts
  obtain ⟨noBang, noMinus⟩ := noOperator rfl
  simp only [unaryOp?, Option.map_eq_none_iff]
  unfold UnaryOp.ofSymbol?
  split
  · exact absurd rfl noBang
  · exact absurd rfl noMinus
  · rfl

theorem tighter_of_drop_levels {ops : List BinaryOp} {tighter : List (List BinaryOp)}
    (levels : BinaryOp.levels.drop level = ops :: tighter) :
    tighter = BinaryOp.levels.drop (level + 1) := by
  rw [← List.tail_drop, levels, List.tail_cons]

theorem lt_of_drop_levels {ops : List BinaryOp} {tighter : List (List BinaryOp)}
    (levels : BinaryOp.levels.drop level = ops :: tighter) : level < 6 := by
  have length := congrArg List.length levels
  simp only [BinaryOp.levels, List.length_drop, List.length_cons, List.length_nil] at length
  omega

theorem ReadsAt.joinsAt (reads : ReadsAt comments (level + 1) text expr)
    (nonempty : 0 < text.length) : JoinsAt comments level text expr := by
  intro ops tighter levels chars rest offset fuel leads ends enough
  obtain rfl := tighter_of_drop_levels levels
  have bound := lt_of_drop_levels levels
  -- The left operand is read one level further down, at the cost of one step.
  obtain ⟨fuel, rfl⟩ : ∃ less, fuel = less + 1 := ⟨fuel - 1, by omega⟩
  obtain ⟨value, after, read, same⟩ := reads chars rest offset fuel leads ends (by omega)
  refine ⟨value, after, fuel, by omega, ?_, same⟩
  rw [binaryWith, read]
  rfl

theorem JoinsAt.readsAt (bound : level < 6) (joins : JoinsAt comments level text expr) :
    ReadsAt comments level text expr := by
  intro chars rest offset fuel leads ends enough
  have levels : BinaryOp.levels.drop level = _ := List.drop_eq_getElem_cons bound
  obtain ⟨value, after, left, bound, read, same⟩ :=
    joins _ _ levels chars rest offset fuel leads (ends.mono (Nat.le_succ _)) enough
  obtain ⟨left, rfl⟩ : ∃ less, left = less + 1 := ⟨left - 1, by omega⟩
  obtain ⟨_, next, ahead, _, _, _, noOperator⟩ := ends
  obtain ⟨skipped, skip⟩ := ahead after
  refine ⟨value, after, ?_, same⟩
  -- What follows holds no operator of the level, so that joining stops.
  rw [levels, read, joinWith, skip, operator?_eq_none]
  intro op found
  exact noOperator op (Nat.le_of_eq (precedence_of_drop_levels levels op found).symm)

theorem ReadsAt.of_le {tighter : Nat} (reads : ReadsAt comments tighter text expr)
    (nonempty : 0 < text.length) (bound : tighter ≤ 6) (le : level ≤ tighter) :
    ReadsAt comments level text expr := by
  obtain ⟨steps, rfl⟩ := Nat.exists_eq_add_of_le le
  -- Each level is read by the next tighter one, and goes on with none of its own operators.
  induction steps with
  | zero => exact reads
  | succ steps ih =>
    have joins : JoinsAt comments (level + steps) text expr := ReadsAt.joinsAt reads nonempty
    exact ih (joins.readsAt (by omega)) (by omega) (Nat.le_add_right _ _)

theorem Suffixes.readsAt (suffixes : Suffixes comments text expr) (starts : Starts true text) :
    ReadsAt comments 6 text expr := by
  intro chars rest offset fuel leads ends enough
  obtain ⟨fuel, rfl⟩ : ∃ less, fuel = less + 2 := ⟨fuel - 2, by have := starts.length_pos; omega⟩
  obtain ⟨begin, skipped⟩ := leads offset
  obtain ⟨value, after, left, bound, read, same⟩ :=
    suffixes rest begin begin fuel ends.wordEnds (by omega)
  obtain ⟨left, rfl⟩ : ∃ less, left = less + 1 := ⟨left - 1, by omega⟩
  obtain ⟨_, next, ahead, _, noMember, noCondition, _⟩ := ends
  obtain ⟨behind, skip⟩ := ahead after
  refine ⟨value, after, ?_, same⟩
  -- Behind all levels no unary operator is found, and then the suffixes stop.
  have noOperator := (starts.append rest).unaryOp?_eq_none begin
  have levels : BinaryOp.levels.drop 6 = [] := rfl
  rw [levels, binaryWith, unaryWith, skipped]
  simp only [noOperator]
  rw [read, suffixesWith]
  simp only [skip, Cursor.char?_of_head noMember, noCondition]

end Schemata.Reading
