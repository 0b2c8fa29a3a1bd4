import Schemata.Proofs.NameMap
import Schemata.Syntax.Encoding

/-!
# The order of members

Objects are equal up to the order of their members. A value that was read lists them by name, one
that was encoded as they are written. Decoding looks members up and does not see the difference, as
long as no object has two members of one name.
-/

set_option autoImplicit false

namespace Schemata

section

variable {α β : Type} {decode? : β → Option α}

theorem mapM_map_eq_some {encode : α → β} {values : List α}
    (each : ∀ value ∈ values, decode? (encode value) = some value) :
    (values.map encode).mapM decode? = some values := by
  induction values with
  | nil => rfl
  | cons value rest ih =>
    rw [List.forall_mem_cons] at each
    rw [List.map_cons, List.mapM_cons, ih each.2, each.1]
    rfl

theorem mapM_cons_eq_some {item : β} {rest : List β} {values : List α} :
    (item :: rest).mapM decode? = some values ↔ ∃ value others,
      decode? item = some value ∧ rest.mapM decode? = some others ∧ values = value :: others := by
  rw [List.mapM_cons]
  cases decode? item <;> cases rest.mapM decode? <;> simp [eq_comm]

theorem mapM_perm {items others : List β} (perm : others.Perm items) :
    ∀ {values : List α}, items.mapM decode? = some values →
      ∃ arranged, others.mapM decode? = some arranged ∧ arranged.Perm values := by
  induction perm with
  | nil => exact fun decoded => ⟨_, decoded, .refl _⟩
  | cons item _ ih =>
    intro values decoded
    obtain ⟨value, rest, here, behind, rfl⟩ := mapM_cons_eq_some.1 decoded
    obtain ⟨arranged, decoded, perm⟩ := ih behind
    exact ⟨_, mapM_cons_eq_some.2 ⟨value, arranged, here, decoded, rfl⟩, perm.cons value⟩
  | swap first second rest =>
    intro values decoded
    obtain ⟨value, _, here, behind, rfl⟩ := mapM_cons_eq_some.1 decoded
    obtain ⟨other, values, next, last, rfl⟩ := mapM_cons_eq_some.1 behind
    have tail := mapM_cons_eq_some.2 ⟨value, values, here, last, rfl⟩
    exact ⟨_, mapM_cons_eq_some.2 ⟨other, _, next, tail, rfl⟩, .swap value other values⟩
  | trans _ _ toMiddle toLast =>
    intro values decoded
    obtain ⟨middle, decoded, perm⟩ := toLast decoded
    obtain ⟨arranged, decoded, others⟩ := toMiddle decoded
    exact ⟨arranged, decoded, others.trans perm⟩

end

namespace Json

@[elab_as_elim]
theorem inductionOn {motive : Json → Prop} (json : Json) (null : motive .null)
    (bool : ∀ value, motive (.bool value)) (int : ∀ value, motive (.int value))
    (float : ∀ value, motive (.float value)) (string : ∀ text, motive (.string text))
    (array : ∀ items, (∀ item ∈ items, motive item) → motive (.array items))
    (object : ∀ members : List (String × Json), (∀ member ∈ members, motive member.2) →
      motive (.object members)) : motive json :=
  @Json.rec motive (fun items => ∀ item ∈ items, motive item)
    (fun members => ∀ member ∈ members, motive member.2) (fun member => motive member.2)
    null bool int float string array object
    (fun _ found => nomatch found)
    (fun _ _ first others => List.forall_mem_cons.2 ⟨first, others⟩)
    (fun _ found => nomatch found)
    (fun _ _ first others => List.forall_mem_cons.2 ⟨first, others⟩)
    (fun _ _ value => value) json

/-- No object, at any depth, has two members of one name. -/
inductive Distinct : Json → Prop
  | null : Distinct .null
  | bool (value : Bool) : Distinct (.bool value)
  | int (value : Int) : Distinct (.int value)
  | float (value : Float) : Distinct (.float value)
  | string (text : String) : Distinct (.string text)
  | array {items : List Json} (each : ∀ item ∈ items, Distinct item) : Distinct (.array items)
  | object {members : List (String × Json)} (names : (members.map Prod.fst).Nodup)
      (each : ∀ member ∈ members, Distinct member.2) : Distinct (.object members)

attribute [simp] Distinct.null Distinct.bool Distinct.int Distinct.float Distinct.string

@[simp] theorem distinct_array {items : List Json} :
    Distinct (.array items) ↔ ∀ item ∈ items, item.Distinct := by
  refine ⟨fun distinct => ?_, .array⟩
  cases distinct
  assumption

@[simp] theorem distinct_object {members : List (String × Json)} :
    Distinct (.object members) ↔
      (members.map Prod.fst).Nodup ∧ ∀ member ∈ members, member.2.Distinct := by
  refine ⟨fun distinct => ?_, fun ⟨names, each⟩ => .object names each⟩
  cases distinct
  exact ⟨‹_›, ‹_›⟩

/-- The value as it is held once it was read, with every object made from its members. -/
def settle : Json → Json
  | .array items => .array (settleAll items)
  | .object members => ofMembers (settleMembers members)
  | other => other
where
  settleAll : List Json → List Json
    | [] => []
    | item :: rest => item.settle :: settleAll rest
  settleMembers : List (String × Json) → List (String × Json)
    | [] => []
    | (name, value) :: rest => (name, value.settle) :: settleMembers rest

theorem settleAll_eq_map (items : List Json) : settle.settleAll items = items.map settle := by
  induction items with
  | nil => rfl
  | cons item rest ih => rw [settle.settleAll, ih, List.map_cons]

theorem settleMembers_eq_map (members : List (String × Json)) :
    settle.settleMembers members = members.map (Prod.map id settle) := by
  induction members with
  | nil => rfl
  | cons member rest ih => rw [settle.settleMembers, ih, List.map_cons, Prod.map, id]

theorem distinct_settle (json : Json) : json.settle.Distinct := by
  induction json using inductionOn with
  | null => exact .null
  | bool value => exact .bool value
  | int value => exact .int value
  | float value => exact .float value
  | string text => exact .string text
  | array items each =>
    rw [settle, settleAll_eq_map]
    refine .array fun json found => ?_
    obtain ⟨item, listed, rfl⟩ := List.mem_map.1 found
    exact each item listed
  | object members each =>
    rw [settle, settleMembers_eq_map, ofMembers]
    refine .object (NameMap.distinct_entries _) fun entry found => ?_
    have put := NameMap.mem_of_find?_ofList (NameMap.find?_eq_some_iff.2 found)
    obtain ⟨member, listed, same⟩ := List.mem_map.1 put
    exact (congrArg Prod.snd same) ▸ each member listed

theorem depth_item_lt {item : Json} {items : List Json} (found : item ∈ items) :
    item.depth < (array items).depth := by
  rw [depth, Nat.lt_succ_iff]
  induction items with
  | nil => cases found
  | cons first rest ih =>
    rw [depth.depthAll]
    rcases List.mem_cons.1 found with rfl | found
    · exact Nat.le_max_left _ _
    · exact Nat.le_trans (ih found) (Nat.le_max_right _ _)

theorem depth_member_lt {member : String × Json} {members : List (String × Json)}
    (found : member ∈ members) : member.2.depth < (object members).depth := by
  rw [depth, Nat.lt_succ_iff]
  induction members with
  | nil => cases found
  | cons first rest ih =>
    rw [depth.depthMembers]
    rcases List.mem_cons.1 found with rfl | found
    · exact Nat.le_max_left _ _
    · exact Nat.le_trans (ih found) (Nat.le_max_right _ _)

/--
Fuel beyond the depth of the JSON value is enough to decode it. Parts are less deep than the whole,
so that what is left of the fuel is enough for each of them.
-/
def DecodesTo {α : Type} (decode? : Nat → Json → Option α) (json : Json) (value : α) : Prop :=
  ∀ fuel, json.depth < fuel → decode? fuel json = some value

theorem DecodesTo.intro {α : Type} {decode? : Nat → Json → Option α} {json : Json} {value : α}
    (step : ∀ fuel, json.depth ≤ fuel → decode? (fuel + 1) json = some value) :
    DecodesTo decode? json value
  | 0, enough => absurd enough (Nat.not_lt_zero _)
  | fuel + 1, enough => step fuel (Nat.le_of_lt_succ enough)

/-- A way to hold values, which is free in the order of members where their names are distinct. -/
structure Arrangement where
  hold : Json → Json
  null : hold .null = .null
  bool : ∀ value, hold (.bool value) = .bool value
  int : ∀ value, hold (.int value) = .int value
  string : ∀ text, hold (.string text) = .string text
  array : ∀ items, hold (.array items) = .array (items.map hold)
  object : ∀ members : List (String × Json), (members.map Prod.fst).Nodup →
    ∃ others : List (String × Json), others.Perm (members.map (Prod.map id hold)) ∧
      hold (.object members) = .object others

namespace Arrangement

def written : Arrangement where
  hold := id
  null := rfl
  bool _ := rfl
  int _ := rfl
  string _ := rfl
  array items := by rw [List.map_id]; rfl
  object members _ := ⟨members, by rw [Prod.map_id, List.map_id], rfl⟩

def settled : Arrangement where
  hold := settle
  null := rfl
  bool _ := rfl
  int _ := rfl
  string _ := rfl
  array items := by rw [settle, settleAll_eq_map]
  object members distinct := by
    refine ⟨_, ?_, by rw [settle, settleMembers_eq_map, ofMembers]⟩
    have names : ((members.map (Prod.map id settle)).map Prod.fst).Nodup := by
      rw [List.map_map]
      exact distinct
    -- As the names are distinct, no member takes the place of another.
    refine (List.perm_ext_iff_of_nodup ?_ ?_).2 fun entry => ?_
    · exact List.Nodup.of_map _ (NameMap.distinct_entries _)
    · exact List.Nodup.of_map _ names
    · rw [← NameMap.find?_eq_some_iff, NameMap.find?_ofList_eq_some_iff names]

variable (arrangement : Arrangement)

attribute [simp] null bool int string

@[simp] theorem member?_hold {members : List (String × Json)}
    (distinct : (members.map Prod.fst).Nodup) (name : String) :
    (arrangement.hold (.object members)).member? name =
      (members.lookup name).map arrangement.hold := by
  obtain ⟨others, perm, same⟩ := arrangement.object members distinct
  have names : (others.map Prod.fst).Nodup := by
    rw [(perm.map Prod.fst).nodup_iff, List.map_map]
    exact distinct
  rw [same, Json.member?]
  refine Option.ext fun value => ?_
  rw [NameMap.lookup_eq_some_iff_mem names, perm.mem_iff, List.mem_map, Option.map_eq_some_iff]
  constructor
  · rintro ⟨⟨_, part⟩, found, same⟩
    cases same
    exact ⟨part, NameMap.lookup_of_mem distinct found, rfl⟩
  · rintro ⟨part, found, rfl⟩
    exact ⟨(name, part), NameMap.mem_of_lookup found, rfl⟩

@[simp] theorem field?_hold {α : Type} {decode? : Json → Option α} {members : List (String × Json)}
    (distinct : (members.map Prod.fst).Nodup) (name : String) :
    (arrangement.hold (.object members)).field? name decode? =
      (members.lookup name).bind fun part => decode? (arrangement.hold part) := by
  rw [Json.field?, arrangement.member?_hold distinct, Option.bind_map]
  rfl

@[simp] theorem listOf?_hold {α : Type} {encode : α → Json} {decode? : Json → Option α}
    {values : List α}
    (each : ∀ value ∈ values, decode? (arrangement.hold (encode value)) = some value) :
    Json.listOf? decode? (arrangement.hold (.array (values.map encode))) = some values := by
  rw [arrangement.array, List.map_map, Json.listOf?]
  exact mapM_map_eq_some each

theorem depth_member_lt {part : Json} {members : List (String × Json)}
    (distinct : (members.map Prod.fst).Nodup) (found : part ∈ members.map Prod.snd) :
    (arrangement.hold part).depth < (arrangement.hold (.object members)).depth := by
  obtain ⟨others, perm, same⟩ := arrangement.object members distinct
  obtain ⟨member, listed, rfl⟩ := List.mem_map.1 found
  have kept : (member.1, arrangement.hold member.2) ∈ others :=
    perm.mem_iff.2 (List.mem_map.2 ⟨member, listed, rfl⟩)
  rw [same]
  exact Json.depth_member_lt kept

theorem depth_part_lt {part : Json} {members : List (String × Json)} {fuel : Nat}
    (distinct : (members.map Prod.fst).Nodup) (found : part ∈ members.map Prod.snd)
    (enough : (arrangement.hold (.object members)).depth ≤ fuel) :
    (arrangement.hold part).depth < fuel :=
  Nat.lt_of_lt_of_le (arrangement.depth_member_lt distinct found) enough

theorem depth_item_lt {item : Json} {items : List Json} (found : item ∈ items) :
    (arrangement.hold item).depth < (arrangement.hold (.array items)).depth := by
  rw [arrangement.array]
  exact Json.depth_item_lt (List.mem_map_of_mem found)

theorem decodesTo_list {α : Type} {encode : α → Json} {decode? : Nat → Json → Option α}
    {values : List α}
    (each : ∀ value ∈ values, DecodesTo decode? (arrangement.hold (encode value)) value) :
    DecodesTo (fun fuel => Json.listOf? (decode? fuel))
      (arrangement.hold (.array (values.map encode))) values :=
  fun fuel enough => arrangement.listOf?_hold fun value found =>
    each value found fuel
      (Nat.lt_trans (arrangement.depth_item_lt (List.mem_map_of_mem found)) enough)

end Arrangement

end Json

end Schemata
