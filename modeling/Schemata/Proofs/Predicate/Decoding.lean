import Schemata.Predicate.Encoding
import Schemata.Proofs.Predicate.Induction
import Schemata.Proofs.Syntax.Decoding

set_option autoImplicit false

namespace Schemata

open Json (Arrangement DecodesTo)

mutual

def Predicate.values : Predicate → List Json
  | .const _ => []
  | .test operand => operand.values
  | .not predicate => predicate.values
  | .and predicates | .or predicates => Predicate.valuesOfAll predicates
  | .comparison _ left right => left.values ++ right.values
  | .any collection predicate => collection.values ++ predicate.values

def Operand.values : Operand → List Json
  | .value value => [value]
  | .field _ _ | .principal _ | .future _ => []
  | .arithmetic _ left right => left.values ++ right.values
  | .negate operand => operand.values
  | .list items => Operand.valuesOfAll items
  | .call _ arguments => Operand.valuesOfAll arguments
  | .predicate predicate => predicate.values

def Predicate.valuesOfAll : List Predicate → List Json
  | [] => []
  | predicate :: rest => predicate.values ++ Predicate.valuesOfAll rest

def Operand.valuesOfAll : List Operand → List Json
  | [] => []
  | operand :: rest => operand.values ++ Operand.valuesOfAll rest

end

theorem Predicate.values_subset {parts : List Predicate} {part : Predicate} (found : part ∈ parts) :
    part.values ⊆ valuesOfAll parts := by
  induction parts with
  | nil => cases found
  | cons first rest ih =>
    rw [valuesOfAll]
    rcases List.mem_cons.1 found with rfl | found
    · exact List.subset_append_left _ _
    · exact List.subset_append_of_subset_right _ (ih found)

theorem Operand.values_subset {items : List Operand} {item : Operand} (found : item ∈ items) :
    item.values ⊆ valuesOfAll items := by
  induction items with
  | nil => cases found
  | cons first rest ih =>
    rw [valuesOfAll]
    rcases List.mem_cons.1 found with rfl | found
    · exact List.subset_append_left _ _
    · exact List.subset_append_of_subset_right _ (ih found)

@[simp] theorem Predicate.toJsons_eq_map (parts : List Predicate) :
    toJsons parts = parts.map toJson := by
  induction parts with
  | nil => rfl
  | cons part rest ih => rw [toJsons, ih, List.map_cons]

@[simp] theorem Operand.toJsons_eq_map (items : List Operand) :
    toJsons items = items.map toJson := by
  induction items with
  | nil => rfl
  | cons item rest ih => rw [toJsons, ih, List.map_cons]

@[simp] theorem Comparison.named?_name (op : Comparison) :
    Json.named? all name (.string op.name) = some op := by
  cases op <;> rfl

@[simp] theorem Arithmetic.named?_name (op : Arithmetic) :
    Json.named? all name (.string op.name) = some op := by
  cases op <;> rfl

@[simp] theorem distinct_encodePath (path : List String) : (encodePath path).Distinct := by
  simp [encodePath]

@[simp] theorem decodePath?_hold (arrangement : Arrangement) (path : List String) :
    decodePath? (arrangement.hold (encodePath path)) = some path := by
  simp [encodePath, decodePath?, Json.string?]

theorem distinct_toJson_and :
    (∀ predicate : Predicate, (∀ value ∈ predicate.values, value.Distinct) →
      predicate.toJson.Distinct) ∧
    ∀ operand : Operand, (∀ value ∈ operand.values, value.Distinct) → operand.toJson.Distinct := by
  refine Predicate.induction_and ?const ?test ?not ?and ?or ?comparison ?any ?value ?field
    ?principal ?future ?arithmetic ?negate ?list ?call ?predicate
  case const => simp [Predicate.toJson]
  case test =>
    intro operand ih distinct
    simpa [Predicate.toJson] using ih distinct
  case not =>
    intro predicate ih distinct
    simpa [Predicate.toJson] using ih distinct
  case and | or =>
    intro parts ih distinct
    have each : ∀ part ∈ parts, part.toJson.Distinct := fun part found =>
      ih part found fun value held => distinct value (Predicate.values_subset found held)
    simpa [Predicate.toJson] using each
  case comparison =>
    intro op left right left_ih right_ih distinct
    simp only [Predicate.values, List.forall_mem_append] at distinct
    simp [Predicate.toJson, left_ih distinct.1, right_ih distinct.2]
  case any =>
    intro collection predicate collection_ih ih distinct
    simp only [Predicate.values, List.forall_mem_append] at distinct
    simp [Predicate.toJson, collection_ih distinct.1, ih distinct.2]
  case value =>
    intro value distinct
    simpa [Operand.toJson] using distinct value List.mem_cons_self
  case field | principal | future => simp [Operand.toJson]
  case arithmetic =>
    intro op left right left_ih right_ih distinct
    simp only [Operand.values, List.forall_mem_append] at distinct
    simp [Operand.toJson, left_ih distinct.1, right_ih distinct.2]
  case negate =>
    intro operand ih distinct
    simpa [Operand.toJson] using ih distinct
  case list =>
    intro items ih distinct
    have each : ∀ item ∈ items, item.toJson.Distinct := fun item found =>
      ih item found fun value held => distinct value (Operand.values_subset found held)
    simpa [Operand.toJson] using each
  case call =>
    intro function arguments ih distinct
    have each : ∀ argument ∈ arguments, argument.toJson.Distinct := fun argument found =>
      ih argument found fun value held => distinct value (Operand.values_subset found held)
    simpa [Operand.toJson] using each
  case predicate =>
    intro predicate ih distinct
    simpa [Operand.toJson] using ih distinct

theorem decodesTo_and (arrangement : Arrangement) :
    (∀ predicate : Predicate, (∀ value ∈ predicate.values, arrangement.hold value = value) →
      DecodesTo Predicate.ofJsonWith? (arrangement.hold predicate.toJson) predicate) ∧
    ∀ operand : Operand, (∀ value ∈ operand.values, arrangement.hold value = value) →
      DecodesTo Operand.ofJsonWith? (arrangement.hold operand.toJson) operand := by
  -- Each part is one level less deep than the whole, so that what is left of the fuel is enough.
  refine Predicate.induction_and ?const ?test ?not ?and ?or ?comparison ?any ?value ?field
    ?principal ?future ?arithmetic ?negate ?list ?call ?predicate
  case const =>
    refine fun value _ => .intro fun fuel _ => ?_
    simp [Predicate.toJson, Predicate.ofJsonWith?, lookup_entry, Json.string?, Json.bool?]
  case test =>
    refine fun operand ih kept => .intro fun fuel enough => ?_
    have part := ih kept fuel (arrangement.depth_part_lt (by simp) (by simp) enough)
    simp [Predicate.toJson, Predicate.ofJsonWith?, lookup_entry, Json.string?, part]
  case not =>
    refine fun predicate ih kept => .intro fun fuel enough => ?_
    have part := ih kept fuel (arrangement.depth_part_lt (by simp) (by simp) enough)
    simp [Predicate.toJson, Predicate.ofJsonWith?, lookup_entry, Json.string?, part]
  case and | or =>
    refine fun parts ih kept => .intro fun fuel enough => ?_
    have each := arrangement.decodesTo_list fun part found =>
      ih part found fun value held => kept value (Predicate.values_subset found held)
    have decoded := each fuel (arrangement.depth_part_lt (by simp) (by simp) enough)
    simp [Predicate.toJson, Predicate.ofJsonWith?, lookup_entry, Json.string?, decoded]
  case comparison =>
    refine fun op left right left_ih right_ih kept => .intro fun fuel enough => ?_
    simp only [Predicate.values, List.forall_mem_append] at kept
    have first := left_ih kept.1 fuel (arrangement.depth_part_lt (by simp) (by simp) enough)
    have second := right_ih kept.2 fuel (arrangement.depth_part_lt (by simp) (by simp) enough)
    simp [Predicate.toJson, Predicate.ofJsonWith?, lookup_entry, Json.string?, first, second]
  case any =>
    refine fun collection predicate collection_ih ih kept => .intro fun fuel enough => ?_
    simp only [Predicate.values, List.forall_mem_append] at kept
    have first := collection_ih kept.1 fuel (arrangement.depth_part_lt (by simp) (by simp) enough)
    have second := ih kept.2 fuel (arrangement.depth_part_lt (by simp) (by simp) enough)
    simp [Predicate.toJson, Predicate.ofJsonWith?, lookup_entry, Json.string?, first, second]
  case value =>
    refine fun value kept => .intro fun fuel _ => ?_
    have same := kept value List.mem_cons_self
    simp [Operand.toJson, Operand.ofJsonWith?, lookup_entry, Json.string?, same]
  case field =>
    refine fun scope path _ => .intro fun fuel _ => ?_
    simp [Operand.toJson, Operand.ofJsonWith?, lookup_entry, Json.string?, Json.nat?]
  case principal =>
    refine fun path _ => .intro fun fuel _ => ?_
    simp [Operand.toJson, Operand.ofJsonWith?, lookup_entry, Json.string?]
  case future =>
    refine fun path _ => .intro fun fuel _ => ?_
    simp [Operand.toJson, Operand.ofJsonWith?, lookup_entry, Json.string?]
  case arithmetic =>
    refine fun op left right left_ih right_ih kept => .intro fun fuel enough => ?_
    simp only [Operand.values, List.forall_mem_append] at kept
    have first := left_ih kept.1 fuel (arrangement.depth_part_lt (by simp) (by simp) enough)
    have second := right_ih kept.2 fuel (arrangement.depth_part_lt (by simp) (by simp) enough)
    simp [Operand.toJson, Operand.ofJsonWith?, lookup_entry, Json.string?, first, second]
  case negate =>
    refine fun operand ih kept => .intro fun fuel enough => ?_
    have part := ih kept fuel (arrangement.depth_part_lt (by simp) (by simp) enough)
    simp [Operand.toJson, Operand.ofJsonWith?, lookup_entry, Json.string?, part]
  case list =>
    refine fun items ih kept => .intro fun fuel enough => ?_
    have each := arrangement.decodesTo_list fun item found =>
      ih item found fun value held => kept value (Operand.values_subset found held)
    have decoded := each fuel (arrangement.depth_part_lt (by simp) (by simp) enough)
    simp [Operand.toJson, Operand.ofJsonWith?, lookup_entry, Json.string?, decoded]
  case call =>
    refine fun function arguments ih kept => .intro fun fuel enough => ?_
    have each := arrangement.decodesTo_list fun argument found =>
      ih argument found fun value held => kept value (Operand.values_subset found held)
    have decoded := each fuel (arrangement.depth_part_lt (by simp) (by simp) enough)
    simp [Operand.toJson, Operand.ofJsonWith?, lookup_entry, Json.string?, decoded]
  case predicate =>
    refine fun predicate ih kept => .intro fun fuel enough => ?_
    have part := ih kept fuel (arrangement.depth_part_lt (by simp) (by simp) enough)
    simp [Operand.toJson, Operand.ofJsonWith?, lookup_entry, Json.string?, part]

theorem Predicate.distinct_toJson {predicate : Predicate}
    (distinct : ∀ value ∈ predicate.values, value.Distinct) : predicate.toJson.Distinct :=
  distinct_toJson_and.1 predicate distinct

theorem Predicate.ofJson?_hold {arrangement : Arrangement} {predicate : Predicate}
    (kept : ∀ value ∈ predicate.values, arrangement.hold value = value) :
    ofJson? (arrangement.hold predicate.toJson) = some predicate :=
  (decodesTo_and arrangement).1 predicate kept _ (Nat.lt_succ_self _)

end Schemata
