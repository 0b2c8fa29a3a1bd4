import Mathlib.Order.Compare
import Mathlib.Order.Std
import Schemata.Predicate.Value
import Schemata.Proofs.Json.Arrangement

/-!
# Comparisons agree with each other

A comparison sees of a value a number, a time, or else the value as it is. Without doubles, two
values are equal if they look alike to it, and only numbers and times come in an order. So the six
comparisons obey the laws of an equality and of an order that fits it, however times are read from
texts, as long as times are in a linear order.
-/

set_option autoImplicit false

universe u

namespace Schemata

namespace Json

/-- No double occurs in the value, at any depth. -/
def isExact : Json → Bool
  | .float _ => false
  | .array items => allExact items
  | .object members => membersExact members
  | _ => true
where
  allExact : List Json → Bool
    | [] => true
    | item :: rest => item.isExact && allExact rest
  membersExact : List (String × Json) → Bool
    | [] => true
    | (_, value) :: rest => value.isExact && membersExact rest

theorem allExact_iff {items : List Json} :
    isExact.allExact items = true ↔ ∀ item ∈ items, item.isExact = true := by
  induction items with
  | nil => simp [isExact.allExact]
  | cons item rest ih => simp [isExact.allExact, ih]

theorem membersExact_iff {members : List (String × Json)} :
    isExact.membersExact members = true ↔ ∀ member ∈ members, member.2.isExact = true := by
  induction members with
  | nil => simp [isExact.membersExact]
  | cons member rest ih => simp [isExact.membersExact, ih]

theorem sameAll_iff {items : List Json}
    (each : ∀ item ∈ items, ∀ other, item.same other = true ↔ item = other) :
    ∀ others, sameAll items others = true ↔ items = others := by
  induction items with
  | nil =>
    intro others
    cases others <;> simp [sameAll]
  | cons item rest ih =>
    obtain ⟨here, behind⟩ := List.forall_mem_cons.1 each
    intro others
    cases others with
    | nil => simp [sameAll]
    | cons other others => simp [sameAll, here, ih behind]

theorem sameMembers_iff {members : List (String × Json)}
    (each : ∀ member ∈ members, ∀ other, member.2.same other = true ↔ member.2 = other) :
    ∀ others, sameMembers members others = true ↔ members = others := by
  induction members with
  | nil =>
    intro others
    cases others <;> simp [sameMembers]
  | cons member rest ih =>
    obtain ⟨here, behind⟩ := List.forall_mem_cons.1 each
    intro others
    cases others with
    | nil => simp [sameMembers]
    | cons other others => simp [sameMembers, here, ih behind, Prod.ext_iff]

-- Only doubles can be the same as others, or not the same as themselves.
theorem same_iff {value : Json} :
    value.isExact = true → ∀ other, value.same other = true ↔ value = other := by
  induction value using Json.inductionOn with
  | float => exact nofun
  | array items ih =>
    intro isExact other
    have each := sameAll_iff fun item found => ih item found (allExact_iff.1 isExact item found)
    cases other <;> simp [same, each]
  | object members ih =>
    intro isExact other
    have each := sameMembers_iff fun member found =>
      ih member found (membersExact_iff.1 isExact member found)
    cases other <;> simp [same, each]
  | null | bool | int | string =>
    intro _ other
    cases other <;> simp [same]

end Json

section

variable {Time : Type u}

inductive Comparand (Time : Type u)
  | number (value : Int)
  | time (value : Time)
  | other (value : Json)

namespace Comparand

variable [LinearOrder Time]

def order? : Comparand Time → Comparand Time → Option Ordering
  | .number first, .number second => some (compare first second)
  | .time first, .time second => some (compare first second)
  | _, _ => none

theorem order?_swap (first second : Comparand Time) :
    first.order? second = (second.order? first).map Ordering.swap := by
  cases first <;> cases second
  case number.number | time.time => exact congrArg some Std.OrientedCmp.eq_swap
  all_goals rfl

theorem eq_iff_of_order? {first second : Comparand Time} {order : Ordering}
    (ordered : first.order? second = some order) : order = .eq ↔ first = second := by
  cases first <;> cases second <;> cases ordered
  all_goals exact Std.LawfulEqCmp.compare_eq_iff_eq.trans (by simp)

theorem order?_trans {first second third : Comparand Time}
    (less : first.order? second = some .lt) (further : second.order? third = some .lt) :
    first.order? third = some .lt := by
  -- All three are what the second one is, since nothing else stands in an order with it.
  cases second with
  | number =>
    cases first with
    | number =>
      cases third with
      | number =>
        exact congrArg some (Std.TransCmp.lt_trans (Option.some.inj less) (Option.some.inj further))
      | time | other => cases further
    | time | other => cases less
  | time =>
    cases first with
    | time =>
      cases third with
      | time =>
        exact congrArg some (Std.TransCmp.lt_trans (Option.some.inj less) (Option.some.inj further))
      | number | other => cases further
    | number | other => cases less
  | other => cases further

end Comparand

end

namespace Json

section

variable {Time : Type u} {read? : String → Option Time}

def comparand (read? : String → Option Time) : Json → Comparand Time
  | .int value => .number value
  | .string text =>
      match read? text with
      | some time => .time time
      | none => .other (.string text)
  | value => .other value

theorem toFloat?_of_timeBy? {value : Json} {time : Time}
    (read : value.timeBy? read? = some time) : value.toFloat? = none := by
  cases value with
  | string => rfl
  | null | bool | int | float | array | object => cases read

def IsInteger (value : Json) : Prop := ∃ number, value = .int number

def IsTime (read? : String → Option Time) (value : Json) : Prop :=
  ∃ text, value = .string text ∧ (read? text).isSome = true

/-- The comparand of a value that is no double. -/
inductive Shows (read? : String → Option Time) : Json → Comparand Time → Prop
  | number (value : Int) : Shows read? (.int value) (.number value)
  | time {value : Json} {time : Time} (read : value.timeBy? read? = some time) :
      Shows read? value (.time time)
  | other {value : Json} (noNumber : value.toFloat? = none)
      (unread : value.timeBy? read? = none) : Shows read? value (.other value)

theorem shows_comparand (read? : String → Option Time) {value : Json}
    (isExact : value.isExact = true) : value.Shows read? (value.comparand read?) := by
  cases value with
  | int value => exact .number value
  | float => cases isExact
  | string text =>
    rw [comparand]
    cases read : read? text with
    | some time => exact .time read
    | none => exact .other rfl read
  | null | bool | array | object => exact .other rfl rfl

end

section

variable {Time : Type u} [LinearOrder Time] (read? : String → Option Time) {left right : Json}

theorem orderBy?_of_noNumber (noNumber : left.toFloat? = none ∨ right.toFloat? = none) :
    left.orderBy? read? right =
      match left.timeBy? read?, right.timeBy? read? with
      | some first, some second => some (compare first second)
      | _, _ => none := by
  unfold orderBy?
  split
  · rcases noNumber with none | none <;> cases none
  · split
    next => rcases noNumber with none | none <;> simp_all
    next => rfl

theorem equalBy_of_noNumber (noNumber : left.toFloat? = none ∨ right.toFloat? = none) :
    left.equalBy read? right =
      match left.timeBy? read?, right.timeBy? read? with
      | some first, some second => first == second
      | _, _ => left.same right := by
  unfold equalBy
  split
  next => rcases noNumber with none | none <;> simp_all
  next => rfl

theorem exists_orderBy? {read? : String → Option Time}
    (ordered : left.IsInteger ∧ right.IsInteger ∨ left.IsTime read? ∧ right.IsTime read?) :
    ∃ order, left.orderBy? read? right = some order := by
  rcases ordered with ⟨⟨_, rfl⟩, _, rfl⟩ | ⟨⟨_, rfl, isTime⟩, _, rfl, otherIsTime⟩
  · exact ⟨_, rfl⟩
  · obtain ⟨first, read⟩ := Option.isSome_iff_exists.1 isTime
    obtain ⟨second, otherRead⟩ := Option.isSome_iff_exists.1 otherIsTime
    refine ⟨compare first second, ?_⟩
    rw [orderBy?_of_noNumber read? (.inl rfl), timeBy?, timeBy?, read, otherRead]

variable (leftExact : left.isExact = true) (rightExact : right.isExact = true)

include leftExact rightExact

theorem orderBy?_eq :
    left.orderBy? read? right = (left.comparand read?).order? (right.comparand read?) := by
  have shows := shows_comparand read? leftExact
  have otherShows := shows_comparand read? rightExact
  generalize left.comparand read? = first at shows ⊢
  generalize right.comparand read? = second at otherShows ⊢
  cases shows with
  | number =>
    cases otherShows with
    | number => rfl
    | time read => exact orderBy?_of_noNumber read? (.inr (toFloat?_of_timeBy? read))
    | other noNumber => exact orderBy?_of_noNumber read? (.inr noNumber)
  | time read =>
    rw [orderBy?_of_noNumber read? (.inl (toFloat?_of_timeBy? read)), read]
    cases otherShows with
    | number => rfl
    | time otherRead => rw [otherRead]; rfl
    | other _ unread => rw [unread]; rfl
  | other noNumber unread =>
    rw [orderBy?_of_noNumber read? (.inl noNumber), unread]
    rfl

theorem equalBy_iff :
    left.equalBy read? right = true ↔ left.comparand read? = right.comparand read? := by
  have shows := shows_comparand read? leftExact
  have otherShows := shows_comparand read? rightExact
  have plain (noNumber : left.toFloat? = none ∨ right.toFloat? = none) :=
    equalBy_of_noNumber read? noNumber
  -- Unless both are numbers or both are times, the values are compared as they are.
  have asTheyAre (plain : left.equalBy read? right = left.same right)
      (apart : left.comparand read? = right.comparand read? → left = right) :
      left.equalBy read? right = true ↔ left.comparand read? = right.comparand read? := by
    rw [plain]
    exact (same_iff leftExact right).trans ⟨congrArg (comparand read?), apart⟩
  generalize left.comparand read? = first at shows asTheyAre ⊢
  generalize right.comparand read? = second at otherShows asTheyAre ⊢
  cases shows with
  | number =>
    cases otherShows with
    | number => simp [equalBy, toFloat?, orderBy?]
    | time read => exact asTheyAre (plain (.inr (toFloat?_of_timeBy? read))) nofun
    | other noNumber => exact asTheyAre (plain (.inr noNumber)) nofun
  | time read =>
    have plain := plain (.inl (toFloat?_of_timeBy? read))
    rw [read] at plain
    cases otherShows with
    | number => exact asTheyAre plain nofun
    | time otherRead =>
      rw [plain, otherRead, Comparand.time.injEq]
      exact beq_iff_eq
    | other _ unread => exact asTheyAre (by rw [plain, unread]) nofun
  | other noNumber unread =>
    have plain := plain (.inl noNumber)
    rw [unread] at plain
    refine asTheyAre plain fun same => ?_
    cases otherShows <;> cases same
    rfl

theorem equalBy_of_orderBy? {order : Ordering}
    (ordered : left.orderBy? read? right = some order) :
    left.equalBy read? right = (order == .eq) := by
  rw [orderBy?_eq read? leftExact rightExact] at ordered
  rw [Bool.eq_iff_iff, beq_iff_eq, equalBy_iff read? leftExact rightExact]
  exact (Comparand.eq_iff_of_order? ordered).symm

end

end Json

namespace Comparison

section

variable {Time : Type u} [LinearOrder Time]

/-- How the comparisons of three values hang together, with times read from texts by `read?`. -/
structure Consistent (read? : String → Option Time) (first second third : Json) : Prop where
  /-- Values are equal as integers, as times, or else as they are. -/
  eq_iff : first.equalBy read? second = true ↔ first.comparand read? = second.comparand read?
  /-- Integers are in an order, and so are times. Nothing else is. -/
  lt_iff : holdsBy read? .lt first second = true ↔
    (first.comparand read?).order? (second.comparand read?) = some .lt
  refl : first.equalBy read? first = true
  symm : first.equalBy read? second = true → second.equalBy read? first = true
  trans : first.equalBy read? second = true → second.equalBy read? third = true →
    first.equalBy read? third = true
  exclusive : [Comparison.lt, .eq, .gt].countP (fun op => op.holdsBy read? first second) ≤ 1
  exhaustive :
    first.IsInteger ∧ second.IsInteger ∨ first.IsTime read? ∧ second.IsTime read? →
      [Comparison.lt, .eq, .gt].countP (fun op => op.holdsBy read? first second) = 1
  converse : holdsBy read? .lt first second = holdsBy read? .gt second first
  lt_or_eq : holdsBy read? .le first second = true →
    holdsBy read? .lt first second = true ∨ holdsBy read? .eq first second = true
  lt_trans : holdsBy read? .lt first second = true → holdsBy read? .lt second third = true →
    holdsBy read? .lt first third = true
  /-- An equal value may stand for either side of any comparison. -/
  congr : first.equalBy read? second = true → ∀ op : Comparison,
    op.holdsBy read? first third = op.holdsBy read? second third ∧
      op.holdsBy read? third first = op.holdsBy read? third second

variable {read? : String → Option Time} {left right : Json}

theorem holdsBy_congr (op : Comparison) {other another : Json}
    (order : left.orderBy? read? right = other.orderBy? read? another)
    (equal : left.equalBy read? right = other.equalBy read? another) :
    op.holdsBy read? left right = op.holdsBy read? other another := by
  unfold holdsBy
  rw [order, equal]

theorem holdsBy_lt : holdsBy read? .lt left right = true ↔
    left.orderBy? read? right = some .lt := beq_iff_eq

theorem holdsBy_gt : holdsBy read? .gt left right = true ↔
    left.orderBy? read? right = some .gt := beq_iff_eq

theorem holdsBy_le : holdsBy read? .le left right = true ↔
    left.orderBy? read? right = some .lt ∨ left.orderBy? read? right = some .eq := by
  simp [holdsBy]

variable (leftExact : left.isExact = true) (rightExact : right.isExact = true)

include leftExact rightExact

theorem holdsBy_lt_iff : holdsBy read? .lt left right = true ↔
    (left.comparand read?).order? (right.comparand read?) = some .lt := by
  rw [holdsBy_lt, Json.orderBy?_eq read? leftExact rightExact]

theorem countP_holdsBy_of_orderBy? {order : Ordering}
    (ordered : left.orderBy? read? right = some order) :
    [Comparison.lt, .eq, .gt].countP (fun op => op.holdsBy read? left right) = 1 := by
  have equal := Json.equalBy_of_orderBy? read? leftExact rightExact ordered
  cases order <;> simp [holdsBy, ordered, equal]

theorem countP_holdsBy_le_one :
    [Comparison.lt, .eq, .gt].countP (fun op => op.holdsBy read? left right) ≤ 1 := by
  cases ordered : left.orderBy? read? right with
  | some order => exact Nat.le_of_eq (countP_holdsBy_of_orderBy? leftExact rightExact ordered)
  | none => cases equal : left.equalBy read? right <;> simp [holdsBy, ordered, equal]

theorem holdsBy_of_comparand (op : Comparison) {other another : Json}
    (otherExact : other.isExact = true) (anotherExact : another.isExact = true)
    (same : left.comparand read? = other.comparand read?)
    (rightSame : right.comparand read? = another.comparand read?) :
    op.holdsBy read? left right = op.holdsBy read? other another := by
  apply op.holdsBy_congr
  · rw [Json.orderBy?_eq read? leftExact rightExact,
      Json.orderBy?_eq read? otherExact anotherExact, same, rightSame]
  · rw [Bool.eq_iff_iff, Json.equalBy_iff read? leftExact rightExact,
      Json.equalBy_iff read? otherExact anotherExact, same, rightSame]

end

/--
The comparisons of values without doubles obey the laws of an equality and an order, whatever texts
are times and whatever times they are.
-/
theorem consistent_of_isExact {Time : Type u} [LinearOrder Time] (read? : String → Option Time)
    {first second third : Json} (firstExact : first.isExact = true)
    (secondExact : second.isExact = true) (thirdExact : third.isExact = true) :
    Consistent read? first second third := by
  have equal := Json.equalBy_iff read? firstExact secondExact
  constructor
  case eq_iff => exact equal
  case lt_iff => exact holdsBy_lt_iff firstExact secondExact
  case refl => exact (Json.equalBy_iff read? firstExact firstExact).2 rfl
  case symm =>
    exact fun same => (Json.equalBy_iff read? secondExact firstExact).2 (equal.1 same).symm
  case trans =>
    intro same further
    have last := (Json.equalBy_iff read? secondExact thirdExact).1 further
    exact (Json.equalBy_iff read? firstExact thirdExact).2 ((equal.1 same).trans last)
  case exclusive => exact countP_holdsBy_le_one firstExact secondExact
  case exhaustive =>
    intro comparable
    obtain ⟨order, ordered⟩ := Json.exists_orderBy? comparable
    exact countP_holdsBy_of_orderBy? firstExact secondExact ordered
  case converse =>
    have swapped := Comparand.order?_swap (first.comparand read?) (second.comparand read?)
    rw [← Json.orderBy?_eq read? firstExact secondExact,
      ← Json.orderBy?_eq read? secondExact firstExact] at swapped
    rw [Bool.eq_iff_iff, holdsBy_lt, holdsBy_gt, swapped]
    cases second.orderBy? read? first with
    | none => simp
    | some order => cases order <;> simp
  case lt_or_eq =>
    intro notGreater
    refine (holdsBy_le.1 notGreater).imp holdsBy_lt.2 fun ordered => ?_
    exact Json.equalBy_of_orderBy? read? firstExact secondExact ordered
  case lt_trans =>
    intro less further
    have ordered := (holdsBy_lt_iff firstExact secondExact).1 less
    have orderedToo := (holdsBy_lt_iff secondExact thirdExact).1 further
    exact (holdsBy_lt_iff firstExact thirdExact).2 (Comparand.order?_trans ordered orderedToo)
  case congr =>
    intro same op
    have seen := equal.1 same
    exact ⟨holdsBy_of_comparand firstExact thirdExact op secondExact thirdExact seen rfl,
      holdsBy_of_comparand thirdExact firstExact op thirdExact secondExact rfl seen⟩

end Comparison

instance Instant.linearOrder : LinearOrder Instant := .ofStd Instant

namespace Timetable

def noon : Json := .string "2024-06-30T12:00:00Z"

/-- Noon by another clock. -/
def afternoon : Json := .string "2024-06-30t14:00:00.000+02:00"

/-- A leap second. -/
def midnight : Json := .string "2024-06-30T23:59:60Z"

end Timetable

theorem Timetable.consistent_of_isExact_noon :
    (noon.isExact = true ∧ afternoon.isExact = true ∧ midnight.isExact = true) ∧
      (noon.same afternoon = false ∧ noon.equal afternoon = true ∧
        Comparison.holds .lt afternoon midnight = true) ∧
      Comparison.Consistent Instant.read? noon afternoon midnight ∧
      Comparison.holds .lt noon midnight = true ∧
      [Comparison.lt, .eq, .gt].countP (fun op => op.holds afternoon midnight) = 1 := by
  have isExact : noon.isExact = true ∧ afternoon.isExact = true ∧ midnight.isExact = true :=
    ⟨rfl, rfl, rfl⟩
  have facts : noon.same afternoon = false ∧ noon.equal afternoon = true ∧
      Comparison.holds .lt afternoon midnight = true := by
    decide +kernel
  have laws := Comparison.consistent_of_isExact Instant.read? isExact.1 isExact.2.1 isExact.2.2
  have others := Comparison.consistent_of_isExact Instant.read? isExact.2.1 isExact.2.2 isExact.1
  have less := (laws.congr facts.2.1 .lt).1.trans facts.2.2
  have times : afternoon.IsTime Instant.read? ∧ midnight.IsTime Instant.read? :=
    ⟨⟨_, rfl, by decide +kernel⟩, ⟨_, rfl, by decide +kernel⟩⟩
  exact ⟨isExact, facts, laws, less, others.exhaustive (.inr times)⟩

-- With doubles the laws fail: one can be equal to two integers that are not.
example : (Json.int (2 ^ 53)).equal (.float (Double.ofInt (2 ^ 53))) = true ∧
    (Json.float (Double.ofInt (2 ^ 53))).equal (.int (2 ^ 53 + 1)) = true ∧
    (Json.int (2 ^ 53)).equal (.int (2 ^ 53 + 1)) = false := by
  decide

end Schemata
