import Schemata.Proofs.Schema.Ancestors

set_option autoImplicit false

namespace Schemata

namespace SymbolTable

theorem distinct_of_clean (declarations : List Declaration) : ∀ symbols : List Symbol,
    Clean (extend symbols declarations).2 →
      (declarations.map fun declaration => declaration.name.name).Nodup ∧
        ∀ declaration ∈ declarations, find? symbols declaration.name.name = none := by
  induction declarations with
  | nil => exact fun symbols _ => ⟨List.Pairwise.nil, nofun⟩
  | cons declaration rest ih =>
    intro symbols clean
    rw [extend] at clean
    split at clean
    next => simp at clean
    next => simp at clean
    next free =>
      obtain ⟨distinct, others⟩ := ih _ clean
      -- The table holds the declaration when the later ones are looked at.
      have apart : ∀ other ∈ rest, find? symbols other.name.name = none ∧
          declaration.name.name ≠ other.name.name := by
        intro other found
        have none := others other found
        rw [find?, List.find?_append, Option.or_eq_none_iff] at none
        exact ⟨none.1, by simpa [Symbol.name] using none.2⟩
      refine ⟨?_, List.forall_mem_cons.2 ⟨free, fun other found => (apart other found).1⟩⟩
      refine List.nodup_cons.2 ⟨fun taken => ?_, distinct⟩
      obtain ⟨other, found, same⟩ := List.mem_map.1 taken
      exact (apart other found).2 same.symm

end SymbolTable

def UniqueNames (models : List Model) : Prop := (models.map fun model => model.name.name).Nodup

theorem Document.uniqueNames_of_nodup {document : Document}
    (distinct : (document.declarations.map fun declaration => declaration.name.name).Nodup) :
    UniqueNames document.models := by
  rw [List.Nodup, List.pairwise_map] at distinct
  rw [UniqueNames, List.Nodup, List.pairwise_map, Document.models, List.pairwise_filterMap]
  refine distinct.imp fun apart first isFirst second isSecond => ?_
  split at isFirst <;> cases isFirst
  split at isSecond <;> cases isSecond
  exact apart

theorem Document.uniqueNames {document : Document}
    (clean : Clean (SymbolTable.clashes document)) : UniqueNames document.models :=
  document.uniqueNames_of_nodup (SymbolTable.distinct_of_clean _ _ clean).1

namespace Hierarchy

variable {models : List Model}

theorem index_eq_of_name (unique : UniqueNames models) {first second : Nat} {model other : Model}
    (here : models[first]? = some model) (there : models[second]? = some other)
    (same : model.name.name = other.name.name) : first = second := by
  -- The names are a list without duplicates, and so their places are told apart by them.
  have inside : first < (models.map fun model => model.name.name).length := by
    rw [List.length_map]
    exact (List.getElem?_eq_some_iff.1 here).1
  refine (List.getElem?_inj inside unique).1 ?_
  rw [List.getElem?_map, List.getElem?_map, here, there, Option.map_some, Option.map_some, same]

theorem indexOf?_eq_some_iff (unique : UniqueNames models) {name : String} {index : Nat} :
    indexOf? models name = some index ↔
      ∃ model, models[index]? = some model ∧ model.name.name = name := by
  rw [indexOf?, List.findIdx?_eq_some_iff_getElem]
  constructor
  · rintro ⟨inside, named, _⟩
    exact ⟨models[index], List.getElem?_eq_getElem inside, by simpa using named⟩
  · rintro ⟨model, here, rfl⟩
    obtain ⟨inside, rfl⟩ := List.getElem?_eq_some_iff.1 here
    refine ⟨inside, by simp, fun earlier before same => ?_⟩
    have there : models[earlier]? = some models[earlier] := List.getElem?_eq_getElem _
    have := index_eq_of_name unique there here (by simpa using same)
    omega

theorem find?_name (unique : UniqueNames models) {index : Nat} {model : Model}
    (here : models[index]? = some model) :
    models.find? (·.name.name == model.name.name) = some model := by
  have place := (indexOf?_eq_some_iff unique).2 ⟨model, here, rfl⟩
  rw [indexOf?] at place
  rw [List.find?_eq_bind_findIdx?_getElem?, place]
  exact here

theorem mem_basesOf (unique : UniqueNames models) {model : Model} {base : Base} :
    base ∈ basesOf models model ↔
      ∃ name ∈ model.bases, ∃ target, models[base.index]? = some target ∧
        target.name.name = name.name ∧ base.kind = target.baseKind? := by
  constructor
  · intro member
    obtain ⟨name, listed, resolved⟩ := List.mem_filterMap.1 member
    obtain ⟨index, place, resolved⟩ := Option.bind_eq_some_iff.1 resolved
    obtain ⟨target, known, same⟩ := Option.bind_eq_some_iff.1 resolved
    cases same
    obtain ⟨other, there, named⟩ := (indexOf?_eq_some_iff unique).1 place
    cases Option.some.inj (known.symm.trans there)
    exact ⟨name, listed, target, known, named, rfl⟩
  · rintro ⟨name, listed, target, known, named, kind⟩
    refine List.mem_filterMap.2 ⟨name, listed, ?_⟩
    have place := (indexOf?_eq_some_iff unique).2 ⟨target, known, named⟩
    simp only [place, known, Option.bind_eq_bind, Option.bind_some, ← kind]

end Hierarchy

def Document.IsBase (document : Document) (base model : Model) : Prop :=
  base ∈ document.models ∧ ∃ name ∈ model.bases, name.name = base.name.name

/-- The models that a model extends, directly or not, each of them once and behind its bases. -/
structure Document.Ancestry (document : Document) (model : Model) (ancestors : List Model) :
    Prop where
  once : ancestors.Nodup
  mem_iff : ∀ ancestor, ancestor ∈ ancestors ↔ Relation.TransGen document.IsBase ancestor model
  basesFirst : BasesFirst document.IsBase ancestors

namespace Hierarchy

variable {document : Document}

theorem isBase_iff (unique : UniqueNames document.models) {place index : Nat} {base model : Model}
    (there : document.models[place]? = some base) (here : document.models[index]? = some model) :
    IsBase document.models place index ↔ document.IsBase base model := by
  have bases : basesAt document.models index = basesOf document.models model := by
    rw [basesAt, here]
  rw [IsBase, bases]
  constructor
  · intro isBase
    obtain ⟨found, member, rfl⟩ := List.mem_map.1 isBase
    obtain ⟨name, listed, target, known, named, _⟩ := (mem_basesOf unique).1 member
    cases Option.some.inj (there.symm.trans known)
    exact ⟨List.mem_of_getElem? there, name, listed, named.symm⟩
  · rintro ⟨_, name, listed, named⟩
    exact List.mem_map.2 ⟨⟨place, base.baseKind?⟩,
      (mem_basesOf unique).2 ⟨name, listed, base, there, named.symm, rfl⟩, rfl⟩

theorem transGen_isBase_of_places (unique : UniqueNames document.models) {place index : Nat}
    (below : Relation.TransGen (IsBase document.models) place index) :
    ∀ {base model : Model}, document.models[place]? = some base →
      document.models[index]? = some model → Relation.TransGen document.IsBase base model := by
  induction below with
  | single isBase => exact fun there here => .single ((isBase_iff unique there here).1 isBase)
  | tail _ isBase ih =>
    intro base model there here
    have between := List.getElem?_eq_getElem (lt_length_of_isBase isBase)
    exact (ih there between).tail ((isBase_iff unique between here).1 isBase)

theorem transGen_isBase_of_models (unique : UniqueNames document.models) {base model : Model}
    (below : Relation.TransGen document.IsBase base model) :
    ∀ {index : Nat}, document.models[index]? = some model →
      ∃ place, document.models[place]? = some base ∧
        Relation.TransGen (IsBase document.models) place index := by
  induction below with
  | single isBase =>
    intro index here
    obtain ⟨place, there⟩ := List.mem_iff_getElem?.1 isBase.1
    exact ⟨place, there, .single ((isBase_iff unique there here).2 isBase)⟩
  | tail _ isBase ih =>
    intro index here
    obtain ⟨between, known⟩ := List.mem_iff_getElem?.1 isBase.1
    obtain ⟨place, there, below⟩ := ih known
    exact ⟨place, there, below.tail ((isBase_iff unique known here).2 isBase)⟩

def ancestorModels (models : List Model) (index : Nat) : List Model :=
  (ancestorsAt models index).filterMap fun ancestor => models[ancestor.index]?

theorem ancestry_ancestorModels (unique : UniqueNames document.models)
    (lawful : Lawful document.models) {index : Nat} {model : Model}
    (here : document.models[index]? = some model) :
    document.Ancestry model (ancestorModels document.models index) := by
  have places := places_ancestorsAt lawful (List.getElem?_eq_some_iff.1 here).1
  have same : ancestorModels document.models index =
      ((ancestorsAt document.models index).map Ancestor.index).filterMap
        fun place => document.models[place]? := by
    rw [ancestorModels, List.filterMap_map]
    rfl
  rw [same]
  refine ⟨?_, fun ancestor => ?_, ?_⟩
  · rw [List.Nodup, List.pairwise_filterMap]
    refine places.once.imp fun apart first there second known => ?_
    -- Different places hold models of different names.
    rintro rfl
    exact apart (index_eq_of_name unique there known rfl)
  · rw [List.mem_filterMap]
    constructor
    · rintro ⟨place, found, there⟩
      exact transGen_isBase_of_places unique ((places.mem_iff place).1 found) there here
    · intro below
      obtain ⟨place, there, below⟩ := transGen_isBase_of_models unique below here
      exact ⟨place, (places.mem_iff place).2 below, there⟩
  · refine places.basesFirst.filterMap fun place ancestor base there isBase => ?_
    obtain ⟨under, known⟩ := List.mem_iff_getElem?.1 isBase.1
    exact ⟨under, (isBase_iff unique known there).2 isBase, known⟩

theorem lawful_of_clean {models : List Model} (unique : UniqueNames models)
    (clean : Clean (check models)) : Lawful models := by
  rw [check, Clean.append, Clean.append] at clean
  refine ⟨wellFounded_of_clean clean.1.2, fun index base member => ?_⟩
  unfold basesAt at member
  split at member
  next model here =>
    obtain ⟨name, listed, target, there, named, kind⟩ := (mem_basesOf unique).1 member
    -- A base that may not be extended is reported where the model names it.
    have legal := Clean.flatMap.1 clean.1.1 model (List.mem_of_getElem? here)
    simp only [checkBases, Clean.append, Clean.map_error, List.filter_eq_nil_iff] at legal
    have found := find?_name unique there
    rw [named] at found
    have allowed := legal.1 name listed
    simp only [found, ← kind] at allowed
    exact Option.isSome_iff_ne_none.2 (by simpa using allowed)
  next => cases member

end Hierarchy

end Schemata
