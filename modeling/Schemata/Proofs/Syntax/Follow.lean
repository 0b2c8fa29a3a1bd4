import Schemata.Proofs.Syntax.Words
import Schemata.Syntax.ExprReader

set_option autoImplicit false

namespace Schemata.Reading

open Cursor (Leads)

theorem leads_unique {comments : Bool} {chars first second : List Char}
    (leads : Leads comments chars first) (other : Leads comments chars second) :
    first = second := by
  obtain ⟨_, same⟩ := leads 0
  obtain ⟨_, same'⟩ := other 0
  rw [same] at same'
  cases same'
  rfl

/-- A name or a number ends before the text, and the name is not the function of a call. -/
structure WordEnds (comments : Bool) (rest : List Char) : Prop where
  stop : rest.head?.any isIdentPart = false
  noFraction : ∀ digits, rest = '.' :: digits → digits.head?.any Char.isDigit = false
  noCall : ∃ next, Leads comments rest next ∧ next.head? ≠ some '('

/-- An operand of operators that bind as tight as `binding` ends before the text. -/
structure Ends (comments : Bool) (binding : Nat) (rest : List Char) : Prop where
  stop : rest.head?.any isIdentPart = false
  ahead : ∃ next, Leads comments rest next ∧ next.head? ≠ some '(' ∧ next.head? ≠ some '.' ∧
    (∀ offset, quantifier? comments ⟨offset, next⟩ = none) ∧
    ∀ op : BinaryOp, binding ≤ op.precedence → ¬ op.symbol.toList <+: next

variable {comments : Bool} {rest : List Char}

theorem Ends.mono {binding tighter : Nat} (ends : Ends comments binding rest)
    (le : binding ≤ tighter) : Ends comments tighter rest := by
  obtain ⟨stop, next, leads, noCall, noMember, noCondition, noOperator⟩ := ends
  exact ⟨stop, next, leads, noCall, noMember, noCondition,
    fun op tight => noOperator op (Nat.le_trans le tight)⟩

theorem Ends.wordEnds {binding : Nat} (ends : Ends comments binding rest) :
    WordEnds comments rest := by
  obtain ⟨stop, next, leads, noCall, noMember, _⟩ := ends
  refine ⟨stop, ?_, next, leads, noCall⟩
  rintro digits rfl
  have same := leads_unique leads (Cursor.leads_of_ne_slash (by decide) (by decide))
  simp [same] at noMember

def closes (char : Char) : Bool :=
  !(['(', '.', '?', '!', '^', '*', '/', '+', '-', '<', '>', '=', '&', '|'].contains char)

theorem symbol_eq_cons (op : BinaryOp) : ∃ first behind, op.symbol.toList = first :: behind ∧
    closes first = false ∧ first ≠ '(' ∧ first ≠ '.' := by
  cases op <;> exact ⟨_, _, rfl, by decide, by decide, by decide⟩

theorem quantifier?_of_closes {next : List Char} (closing : next.head?.all closes = true)
    (offset : Nat) : quantifier? comments ⟨offset, next⟩ = none := by
  unfold quantifier?
  split
  next => rfl
  next char rest same =>
    simp only at same
    subst same
    split
    next => rfl
    next quantifier symbol =>
      have listed : closes char = true := by simpa using closing
      unfold Quantifier.ofSymbol? at symbol
      split at symbol
      · exact absurd listed (by decide)
      · exact absurd listed (by decide)
      · exact absurd listed (by decide)
      · cases symbol

theorem ends_of_closes {binding : Nat} {next : List Char} (leads : Leads comments rest next)
    (stop : rest.head?.any isIdentPart = false) (closing : next.head?.all closes = true) :
    Ends comments binding rest := by
  have differ {char : Char} (goesOn : closes char = false) : next.head? ≠ some char := by
    intro head
    rw [head, Option.all_some, goesOn] at closing
    cases closing
  refine ⟨stop, next, leads, differ (by decide), differ (by decide),
    quantifier?_of_closes closing, ?_⟩
  intro op _ starts
  obtain ⟨others, rfl⟩ := starts
  obtain ⟨first, behind, symbol, goesOn, _, _⟩ := symbol_eq_cons op
  exact differ goesOn (by rw [symbol, List.cons_append, List.head?_cons])

theorem ends_nil {binding : Nat} : Ends comments binding [] :=
  ends_of_closes Cursor.leads_nil rfl rfl

theorem ends_cons {binding : Nat} {char : Char} {others : List Char}
    (kept : Cursor.isSkipped char = false) (stop : isIdentPart char = false)
    (closing : closes char = true) : Ends comments binding (char :: others) := by
  have noSlash : char ≠ '/' := ne_of_test closing (by decide)
  exact ends_of_closes (Cursor.leads_of_ne_slash kept noSlash) (by simpa using stop)
    (by simpa using closing)

theorem leads_symbol (op : BinaryOp) :
    Leads comments (op.symbol.toList ++ ' ' :: rest) (op.symbol.toList ++ ' ' :: rest) := by
  cases op with
  | div => exact Cursor.leads_slash_space
  | _ => exact Cursor.leads_of_ne_slash (by decide) (by decide)

theorem prefix_of_prefix_append_space {word text rest : List Char} (noSpace : ' ' ∉ word)
    (starts : word <+: text ++ ' ' :: rest) : word <+: text := by
  rcases List.prefix_or_prefix_of_prefix starts (List.prefix_append text _) with within | beyond
  · exact within
  · obtain ⟨others, rfl⟩ := beyond
    have behind : others <+: ' ' :: rest := List.prefix_append_right_inj text |>.1 starts
    cases others with
    | nil => exact (List.append_nil text).symm ▸ List.prefix_refl text
    | cons first others =>
      obtain rfl : first = ' ' := (List.cons_prefix_cons.1 behind).1
      simp at noSpace

theorem precedence_le_of_prefix {op longer : BinaryOp}
    (starts : op.symbol.toList <+: longer.symbol.toList) : op.precedence ≤ longer.precedence := by
  revert starts
  cases op <;> cases longer <;> decide

theorem space_notMem_symbol (op : BinaryOp) : ' ' ∉ op.symbol.toList := by
  cases op <;> decide

theorem quantifier?_symbol (op : BinaryOp) (offset : Nat) :
    quantifier? comments ⟨offset, op.symbol.toList ++ ' ' :: rest⟩ = none := by
  cases op with
  -- Only `!=` starts as a collection predicate does, and no bracket follows its first character.
  | ne =>
    have solid : Leads comments ('=' :: ' ' :: rest) ('=' :: ' ' :: rest) :=
      Cursor.leads_of_ne_slash (by decide) (by decide)
    obtain ⟨after, same⟩ := solid (offset + '!'.utf8Size)
    have opened : quantifier? comments ⟨offset, '!' :: '=' :: ' ' :: rest⟩ =
        ((Cursor.skip comments ⟨offset + '!'.utf8Size, '=' :: ' ' :: rest⟩).char? '[').map
          fun after => (.all, after) := rfl
    exact opened.trans (by rw [same]; rfl)
  | _ => rfl

theorem ends_symbol {op : BinaryOp} {binding : Nat} (looser : op.precedence < binding) :
    Ends comments binding (' ' :: op.symbol.toList ++ ' ' :: rest) := by
  obtain ⟨first, behind, symbol, _, noCall, noMember⟩ := symbol_eq_cons op
  have head : (op.symbol.toList ++ ' ' :: rest).head? = some first := by rw [symbol]; rfl
  refine ⟨rfl, _, (leads_symbol op).blank rfl, ?_, ?_, quantifier?_symbol op, ?_⟩
  · rw [head]
    exact fun same => noCall (Option.some.inj same)
  · rw [head]
    exact fun same => noMember (Option.some.inj same)
  · -- An operator that is found where a looser one stands, such as `<` for `<=`, is a prefix of its
    -- symbol, and then it binds no tighter.
    intro other tight starts
    have symbols := prefix_of_prefix_append_space (space_notMem_symbol other) starts
    have bound := precedence_le_of_prefix symbols
    omega

theorem operator?_eq_none {ops : List BinaryOp} {next : List Char} (offset : Nat)
    (noOperator : ∀ op ∈ ops, ¬ op.symbol.toList <+: next) :
    operator? ⟨offset, next⟩ ops = none := by
  induction ops with
  | nil => rfl
  | cons op rest ih =>
    rw [operator?, Cursor.chars?_eq_none (noOperator op List.mem_cons_self)]
    exact ih fun other found => noOperator other (List.mem_cons_of_mem _ found)

theorem operator?_eq_some {op : BinaryOp} {cursor after : Cursor} : ∀ {ops : List BinaryOp},
    operator? cursor ops = some (op, after) →
      op ∈ ops ∧ cursor.chars? op.symbol.toList = some after
  | [], found => nomatch found
  | first :: others, found => by
    rw [operator?] at found
    split at found
    next here =>
      cases found
      exact ⟨List.mem_cons_self, here⟩
    next => exact (operator?_eq_some found).imp_left (List.mem_cons_of_mem _)

theorem precedence_of_drop_levels {level : Nat} {ops : List BinaryOp}
    {tighter : List (List BinaryOp)} (levels : BinaryOp.levels.drop level = ops :: tighter) :
    ∀ op ∈ ops, op.precedence = level + 1 := by
  intro op found
  apply BinaryOp.precedence_of_mem_levels level ops op _ found
  rw [← List.head?_drop, levels, List.head?_cons]

theorem operator?_symbol {op : BinaryOp} {level : Nat} {ops : List BinaryOp}
    {tighter : List (List BinaryOp)} (levels : BinaryOp.levels.drop level = ops :: tighter)
    (precedence : op.precedence = level + 1) (rest : List Char) (offset : Nat) :
    ∃ after, operator? ⟨offset, op.symbol.toList ++ ' ' :: rest⟩ ops =
      some (op, ⟨after, ' ' :: rest⟩) := by
  -- On a level, longer symbols come before those that they start with.
  obtain rfl : level = op.precedence - 1 := by omega
  cases op <;> cases levels <;> exact ⟨_, rfl⟩

end Schemata.Reading
