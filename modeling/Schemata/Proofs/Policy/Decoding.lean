import Schemata.Policy.Encoding
import Schemata.Proofs.Predicate.Decoding

set_option autoImplicit false

namespace Schemata

open Json (Arrangement)

variable {arrangement : Arrangement}

namespace NameMap

variable {α : Type} {encode : α → Json} {decode? : Json → Option α} {map : NameMap α}

theorem ofList_entries (map : NameMap α) : ofList map.entries = map := by
  refine ext_find? fun name => Option.ext fun value => ?_
  rw [find?_ofList_eq_some_iff map.distinct_entries, find?_eq_some_iff]

theorem isEmpty_iff : map.isEmpty = true ↔ map = empty := by
  refine ⟨fun isEmpty => ext (List.isEmpty_iff.1 isEmpty), ?_⟩
  rintro rfl
  rfl

theorem distinct_members (encode : α → Json) (map : NameMap α) :
    ((map.entries.map fun entry => (entry.1, encode entry.2)).map Prod.fst).Nodup := by
  rw [List.map_map]
  exact map.distinct_entries

theorem distinct_toJson (each : ∀ entry ∈ map.entries, (encode entry.2).Distinct) :
    (map.toJson encode).Distinct := by
  refine .object (map.distinct_members encode) fun member found => ?_
  obtain ⟨entry, listed, rfl⟩ := List.mem_map.1 found
  exact each entry listed

theorem ofJson?_hold
    (each : ∀ entry ∈ map.entries, decode? (arrangement.hold (encode entry.2)) = some entry.2) :
    ofJson? decode? (arrangement.hold (map.toJson encode)) = some map := by
  obtain ⟨others, perm, same⟩ := arrangement.object _ (map.distinct_members encode)
  rw [List.map_map] at perm
  have inOrder : (map.entries.map fun entry => (entry.1, arrangement.hold (encode entry.2))).mapM
      (fun entry => (decode? entry.2).map fun value => (entry.1, value)) = some map.entries :=
    mapM_map_eq_some fun entry found => by simp [each entry found]
  obtain ⟨arranged, decoded, perm⟩ := mapM_perm perm inOrder
  rw [toJson, same, ofJson?, decoded, Option.map_some, ofList_perm perm map.distinct_entries,
    ofList_entries]

end NameMap

@[simp] theorem Operation.ofJson?_hold (operation : Operation) :
    ofJson? (arrangement.hold operation.toJson) = some operation := by
  rw [toJson, arrangement.string]
  cases operation <;> rfl

@[simp] theorem RuleKind.named?_name (kind : RuleKind) :
    Json.named? all name (.string kind.name) = some kind := by
  cases kind <;> rfl

namespace Rule

def values (rule : Rule) : List Json := rule.predicate.values

theorem distinct_toJson {rule : Rule} (distinct : ∀ value ∈ rule.values, value.Distinct) :
    rule.toJson.Distinct := by
  simp [toJson, Operation.toJson, Predicate.distinct_toJson distinct]

theorem ofJson?_hold {rule : Rule} (kept : ∀ value ∈ rule.values, arrangement.hold value = value) :
    ofJson? (arrangement.hold rule.toJson) = some rule := by
  simp [toJson, ofJson?, lookup_entry, Json.string?, Predicate.ofJson?_hold kept]

end Rule

namespace ModelPolicy

def values (policy : ModelPolicy) : List Json :=
  policy.rules.flatMap Rule.values ++
    policy.fieldRules.entries.flatMap fun entry => entry.2.flatMap Rule.values

theorem distinct_encodeRules {rules : List Rule}
    (distinct : ∀ value ∈ rules.flatMap Rule.values, value.Distinct) :
    (encodeRules rules).Distinct := by
  refine .array fun json found => ?_
  obtain ⟨rule, listed, rfl⟩ := List.mem_map.1 found
  exact Rule.distinct_toJson fun value held =>
    distinct value (List.mem_flatMap.2 ⟨rule, listed, held⟩)

theorem decodeRules?_hold {rules : List Rule}
    (kept : ∀ value ∈ rules.flatMap Rule.values, arrangement.hold value = value) :
    decodeRules? (arrangement.hold (encodeRules rules)) = some rules :=
  arrangement.listOf?_hold fun rule listed => Rule.ofJson?_hold fun value held =>
    kept value (List.mem_flatMap.2 ⟨rule, listed, held⟩)

theorem member?_fieldRules (policy : ModelPolicy) :
    policy.toJson.member? "field_rules" = none ↔ policy.fieldRules = NameMap.empty := by
  rw [← NameMap.isEmpty_iff]
  cases isEmpty : policy.fieldRules.isEmpty <;> simp [toJson, isEmpty, Json.member?, lookup_entry]

theorem distinct_toJson {policy : ModelPolicy}
    (distinct : ∀ value ∈ policy.values, value.Distinct) : policy.toJson.Distinct := by
  rw [values, List.forall_mem_append] at distinct
  have rules := distinct_encodeRules distinct.1
  have fieldRules : (policy.fieldRules.toJson encodeRules).Distinct :=
    NameMap.distinct_toJson fun entry found => distinct_encodeRules fun value held =>
      distinct.2 value (List.mem_flatMap.2 ⟨entry, found, held⟩)
  cases isEmpty : policy.fieldRules.isEmpty <;> simp [toJson, isEmpty, rules, fieldRules]

theorem ofJson?_hold {policy : ModelPolicy}
    (kept : ∀ value ∈ policy.values, arrangement.hold value = value) :
    ofJson? (arrangement.hold policy.toJson) = some policy := by
  rw [values, List.forall_mem_append] at kept
  have rules := decodeRules?_hold kept.1
  have fieldRules : NameMap.ofJson? decodeRules?
      (arrangement.hold (policy.fieldRules.toJson encodeRules)) = some policy.fieldRules :=
    NameMap.ofJson?_hold fun entry found => decodeRules?_hold fun value held =>
      kept.2 value (List.mem_flatMap.2 ⟨entry, found, held⟩)
  cases isEmpty : policy.fieldRules.isEmpty with
  | true =>
    have none := NameMap.isEmpty_iff.1 isEmpty
    simp [toJson, ofJson?, isEmpty, lookup_entry, Json.string?, rules, ← none]
  | false =>
    simp [toJson, ofJson?, isEmpty, lookup_entry, Json.string?, rules, fieldRules]

end ModelPolicy

namespace Bundle

def values (bundle : Bundle) : List Json :=
  bundle.models.entries.flatMap fun entry => entry.2.values

theorem distinct_toJson {bundle : Bundle} (distinct : ∀ value ∈ bundle.values, value.Distinct) :
    bundle.toJson.Distinct := by
  have models : (bundle.models.toJson ModelPolicy.toJson).Distinct :=
    NameMap.distinct_toJson fun entry found => ModelPolicy.distinct_toJson fun value held =>
      distinct value (List.mem_flatMap.2 ⟨entry, found, held⟩)
  simp [toJson, models]

theorem ofJson?_hold {bundle : Bundle}
    (kept : ∀ value ∈ bundle.values, arrangement.hold value = value) :
    ofJson? (arrangement.hold bundle.toJson) = some bundle := by
  have models : NameMap.ofJson? ModelPolicy.ofJson?
      (arrangement.hold (bundle.models.toJson ModelPolicy.toJson)) = some bundle.models :=
    NameMap.ofJson?_hold fun entry found => ModelPolicy.ofJson?_hold fun value held =>
      kept value (List.mem_flatMap.2 ⟨entry, found, held⟩)
  simp [toJson, ofJson?, models]

end Bundle

/--
Documents and bundles are decoded to what was encoded, in the order in which members are written as
well as in the order of their names. No object has two members of one name, so that no tag stands
for a part, and only rules for fields are left out, where there are none. The JSON values in a
bundle are held as they are once they were read.
-/
theorem decode_encode (document : Document) (bundle : Bundle) :
    (Document.ofJson? document.toJson = some document ∧
      Document.ofJson? document.toJson.settle = some document ∧ document.toJson.Distinct) ∧
    Bundle.ofJson? bundle.toJson = some bundle ∧
    ((∀ value ∈ bundle.values, value.settle = value) →
      Bundle.ofJson? bundle.toJson.settle = some bundle ∧ bundle.toJson.Distinct) ∧
    ∀ policy : ModelPolicy,
      policy.toJson.member? "field_rules" = none ↔ policy.fieldRules = NameMap.empty := by
  have written : Bundle.ofJson? (Arrangement.written.hold bundle.toJson) = some bundle :=
    Bundle.ofJson?_hold fun _ _ => rfl
  refine ⟨⟨?_, ?_, document.distinct_toJson⟩, written, fun settled => ⟨?_, ?_⟩, ?_⟩
  · exact Document.ofJson?_hold .written document
  · exact Document.ofJson?_hold .settled document
  · have kept : ∀ value ∈ bundle.values, Arrangement.settled.hold value = value := settled
    exact Bundle.ofJson?_hold kept
  · exact Bundle.distinct_toJson fun value held => settled value held ▸ value.distinct_settle
  · exact ModelPolicy.member?_fieldRules

namespace Tags

/-- A value whose members are named like tags. -/
def value : Json :=
  .object [("declaration", .null), ("kind", .string "value"),
    ("op", .array [.object [("tag", .int 1)]])]

def rule : Rule where
  kind := .deny
  operations := [.read, .update]
  predicate := .not (.any (.field 0 ["posts"]) (.comparison .eq (.value value) (.future ["kind"])))
  source := "posts^[kind == future().kind]"

def bundle : Bundle where
  models := NameMap.ofList
    [("User", ⟨"User", [rule], NameMap.ofList [("op", [rule])]⟩), ("Post", ⟨"Post", [], .empty⟩)]

def document : Document where
  declarations :=
    [.function ⟨⟨"kind", ⟨9, 13⟩⟩, [], ⟨.scalar .int, true, false, ⟨17, 22⟩⟩, none, ⟨0, 25⟩⟩]

end Tags

theorem Tags.decode_encode_bundle :
    (∀ value ∈ bundle.values, value.settle = value) ∧
      Bundle.ofJson? bundle.toJson.settle = some bundle ∧ bundle.toJson.Distinct ∧
      Document.ofJson? document.toJson.settle = some document := by
  have settled : ∀ value ∈ bundle.values, value.settle = value := by
    intro value found
    have values : bundle.values = [Tags.value, Tags.value] := rfl
    rw [values] at found
    simp only [List.mem_cons, List.not_mem_nil, or_false, or_self] at found
    rw [found]
    rfl
  obtain ⟨⟨_, decoded, _⟩, _, inOrder, _⟩ := decode_encode document bundle
  exact ⟨settled, (inOrder settled).1, (inOrder settled).2, decoded⟩

end Schemata
