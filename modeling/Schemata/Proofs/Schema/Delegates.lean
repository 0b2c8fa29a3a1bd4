import Mathlib.Data.List.Nodup
import Schemata.Proofs.Schema.Members

/-!
# Chains of delegates

Each model extends at most one delegate by itself. If no mixin brings along another one, then the
delegates that a model reaches, however far away, extend one another: they form a chain.
-/

set_option autoImplicit false

namespace Schemata

def Document.ExtendsBy (document : Document) (kind : BaseKind) (base model : Model) : Prop :=
  base ∈ document.models ∧
    ⟨model.name.name, base.name.name, kind⟩ ∈ (Schema.ofDocument document).hierarchy.edges

/-- An edge to the delegate `base` starts from the model or from a model that it extends. -/
def Document.ReachesDelegate (document : Document) (base model : Model) : Prop :=
  ∃ heir, Relation.ReflTransGen document.IsBase heir model ∧
    document.ExtendsBy .delegate base heir

/-- The delegate of a mixin is the only one of every model that the mixin goes into. -/
def Document.MixesInDelegates (document : Document) : Prop :=
  ∀ model ∈ document.models, ∀ mixin via base other,
    Relation.TransGen (document.ExtendsBy .mixin) mixin model →
      Relation.ReflTransGen (document.ExtendsBy .mixin) via model →
        document.ExtendsBy .delegate base mixin → document.ExtendsBy .delegate other via →
          base = other

namespace Hierarchy

variable {models : List Model} {model : Model}

theorem mem_edgesOf (unique : UniqueNames models) {edge : InheritanceEdge} :
    edge ∈ edgesOf models model ↔
      ∃ base ∈ basesOf models model, ∃ target, models[base.index]? = some target ∧
        ∃ kind, target.baseKind? = some kind ∧
          edge = ⟨model.name.name, target.name.name, kind⟩ := by
  unfold edgesOf
  rw [List.mem_filterMap]
  refine exists_congr fun base => and_congr_right fun member => ?_
  obtain ⟨_, _, target, known, _, isKind⟩ := (mem_basesOf unique).1 member
  simp only [isKind, known, Option.bind_eq_bind, Option.bind_some, Option.bind_eq_some_iff,
    Option.some.injEq]
  constructor
  · rintro ⟨kind, same, rfl⟩
    exact ⟨target, rfl, kind, same, rfl⟩
  · rintro ⟨_, rfl, kind, same, rfl⟩
    exact ⟨kind, same, rfl⟩

theorem mem_edges_ofModels (unique : UniqueNames models) {index : Nat}
    (here : models[index]? = some model) {name : String} {kind : BaseKind} :
    ⟨model.name.name, name, kind⟩ ∈ (ofModels models).edges ↔
      ∃ base ∈ basesOf models model, base.kind = some kind ∧
        ∃ target, models[base.index]? = some target ∧ target.name.name = name := by
  have edges : (ofModels models).edges = models.flatMap (edgesOf models) := rfl
  rw [edges, List.mem_flatMap]
  constructor
  · rintro ⟨source, declared, listed⟩
    obtain ⟨base, member, target, known, kind', isKind, same⟩ := (mem_edgesOf unique).1 listed
    obtain ⟨sameName, rfl, rfl⟩ : model.name.name = source.name.name ∧ name = target.name.name ∧
        kind = kind' := by simpa using same
    -- The edge starts from the only model of the name.
    obtain ⟨place, there⟩ := List.mem_iff_getElem?.1 declared
    cases index_eq_of_name unique here there sameName
    cases Option.some.inj (here.symm.trans there)
    obtain ⟨_, _, other, known', _, kindOf⟩ := (mem_basesOf unique).1 member
    cases Option.some.inj (known.symm.trans known')
    exact ⟨base, member, kindOf.trans isKind, target, known, rfl⟩
  · rintro ⟨base, member, isKind, target, known, rfl⟩
    obtain ⟨_, _, other, known', _, kindOf⟩ := (mem_basesOf unique).1 member
    cases Option.some.inj (known.symm.trans known')
    exact ⟨model, List.mem_of_getElem? here, (mem_edgesOf unique).2
      ⟨base, member, target, known, kind, kindOf ▸ isKind, rfl⟩⟩

theorem eq_of_delegate (clean : Clean (checkBases models model)) {first second : Base}
    (isFirst : first ∈ basesOf models model) (isSecond : second ∈ basesOf models model)
    (firstKind : first.kind = some .delegate) (secondKind : second.kind = some .delegate) :
    first = second := by
  simp only [checkBases, Clean.append, Clean.reportIf_error, decide_eq_false_iff_not, Nat.not_lt,
    List.countP_eq_length_filter] at clean
  have first' : first ∈ (basesOf models model).filter (·.kind == some .delegate) :=
    List.mem_filter.2 ⟨isFirst, by simp [firstKind]⟩
  have second' : second ∈ (basesOf models model).filter (·.kind == some .delegate) :=
    List.mem_filter.2 ⟨isSecond, by simp [secondKind]⟩
  revert first' second' clean
  generalize (basesOf models model).filter (·.kind == some .delegate) = delegates
  rintro ⟨_, short⟩ first' second'
  rcases delegates with _ | ⟨only, _ | ⟨another, rest⟩⟩
  · cases first'
  · rw [List.mem_singleton.1 first', List.mem_singleton.1 second']
  · simp at short

end Hierarchy

namespace Document

variable {document : Document} {options : ValidationOptions} {base model : Model}

theorem extendsBy_iff (unique : UniqueNames document.models) (member : model ∈ document.models)
    {kind : BaseKind} : document.ExtendsBy kind base model ↔
      document.IsBase base model ∧ base.baseKind? = some kind := by
  obtain ⟨index, here⟩ := List.mem_iff_getElem?.1 member
  rw [ExtendsBy, IsBase, and_assoc]
  refine and_congr_right fun declared => ?_
  obtain ⟨place, there⟩ := List.mem_iff_getElem?.1 declared
  constructor
  · intro edge
    obtain ⟨found, listed, isKind, target, known, sameName⟩ :=
      (Hierarchy.mem_edges_ofModels unique here).1 edge
    cases Hierarchy.index_eq_of_name unique there known sameName.symm
    obtain ⟨name, named, other, known', same, kindOf⟩ := (Hierarchy.mem_basesOf unique).1 listed
    cases Option.some.inj (there.symm.trans known')
    exact ⟨⟨name, named, same.symm⟩, kindOf ▸ isKind⟩
  · rintro ⟨⟨name, named, same⟩, isKind⟩
    exact (Hierarchy.mem_edges_ofModels unique here).2 ⟨⟨place, base.baseKind?⟩,
      (Hierarchy.mem_basesOf unique).2 ⟨name, named, base, there, same.symm, rfl⟩, isKind, base,
      there, rfl⟩

theorem mem_models_of_reflTransGen {relation : Model → Model → Prop}
    (declared : ∀ base model, relation base model → base ∈ document.models)
    (member : model ∈ document.models) {heir : Model}
    (below : Relation.ReflTransGen relation heir model) : heir ∈ document.models := by
  cases below using Relation.ReflTransGen.head_induction_on with
  | refl => exact member
  | head isBase _ _ => exact declared _ _ isBase

section

variable (unique : UniqueNames document.models) (clean : Clean (Hierarchy.check document.models))

include unique clean

theorem wellFounded_isBase : WellFounded document.IsBase := by
  have founded := (Hierarchy.lawful_of_clean unique clean).founded
  have declared (index : Nat) : ∀ model, document.models[index]? = some model →
      Acc document.IsBase model := by
    induction index using founded.induction with
    | h index ih =>
      refine fun model here => Acc.intro model fun base isBase => ?_
      obtain ⟨place, there⟩ := List.mem_iff_getElem?.1 isBase.1
      exact ih place ((Hierarchy.isBase_iff unique there here).2 isBase) base there
  refine ⟨fun model => Acc.intro model fun base isBase => ?_⟩
  obtain ⟨place, there⟩ := List.mem_iff_getElem?.1 isBase.1
  exact declared place base there

theorem extendsBy_of_isBase (member : model ∈ document.models)
    (isBase : document.IsBase base model) :
    document.ExtendsBy .mixin base model ∨ document.ExtendsBy .delegate base model := by
  obtain ⟨index, here⟩ := List.mem_iff_getElem?.1 member
  obtain ⟨place, there⟩ := List.mem_iff_getElem?.1 isBase.1
  have listed : ⟨place, base.baseKind?⟩ ∈ Hierarchy.basesAt document.models index := by
    obtain ⟨name, named, same⟩ := isBase.2
    rw [Hierarchy.basesAt, here]
    exact (Hierarchy.mem_basesOf unique).2 ⟨name, named, base, there, same.symm, rfl⟩
  have legal := (Hierarchy.lawful_of_clean unique clean).legal index _ listed
  obtain ⟨kind, isKind⟩ := Option.isSome_iff_exists.1 legal
  have edge := (extendsBy_iff unique member).2 ⟨isBase, isKind⟩
  cases kind with
  | mixin => exact .inl edge
  | delegate => exact .inr edge

theorem eq_of_extendsBy (member : model ∈ document.models) {other : Model}
    (isDelegate : document.ExtendsBy .delegate base model)
    (isOther : document.ExtendsBy .delegate other model) : base = other := by
  obtain ⟨index, here⟩ := List.mem_iff_getElem?.1 member
  obtain ⟨first, isFirst, firstKind, target, known, firstName⟩ :=
    (Hierarchy.mem_edges_ofModels unique here).1 isDelegate.2
  obtain ⟨second, isSecond, secondKind, target', known', secondName⟩ :=
    (Hierarchy.mem_edges_ofModels unique here).1 isOther.2
  rw [Hierarchy.check, Clean.append, Clean.append] at clean
  cases Hierarchy.eq_of_delegate (Clean.flatMap.1 clean.1.1 model member) isFirst isSecond
    firstKind secondKind
  cases Option.some.inj (known.symm.trans known')
  obtain ⟨place, there⟩ := List.mem_iff_getElem?.1 isDelegate.1
  obtain ⟨place', there'⟩ := List.mem_iff_getElem?.1 isOther.1
  cases Hierarchy.index_eq_of_name unique there there' (firstName.symm.trans secondName)
  exact Option.some.inj (there.symm.trans there')

/-- What a model extends is a mixin through and through, or it is above a first delegate. -/
theorem mixin_or_delegate (member : model ∈ document.models) {heir : Model}
    (below : Relation.ReflTransGen document.IsBase heir model) :
    Relation.ReflTransGen (document.ExtendsBy .mixin) heir model ∨
      ∃ entry via, Relation.ReflTransGen (document.ExtendsBy .mixin) via model ∧
        document.ExtendsBy .delegate entry via ∧
        Relation.ReflTransGen document.IsBase heir entry := by
  induction below using Relation.ReflTransGen.head_induction_on with
  | refl => exact .inl .refl
  | @head heir next isBase below ih =>
    rcases ih with mixins | ⟨entry, via, mixins, entered, above⟩
    · have declared := mem_models_of_reflTransGen (fun _ _ edge => edge.1) member mixins
      rcases extendsBy_of_isBase unique clean declared isBase with isMixin | isDelegate
      · exact .inl (.head isMixin mixins)
      · exact .inr ⟨heir, next, mixins, isDelegate, .refl⟩
    · exact .inr ⟨entry, via, mixins, entered, .head isBase above⟩

end

theorem exists_entry (unique : UniqueNames document.models)
    (clean : Clean (Hierarchy.check document.models)) (member : model ∈ document.models)
    (reaches : document.ReachesDelegate base model) :
    ∃ entry via, Relation.ReflTransGen (document.ExtendsBy .mixin) via model ∧
      document.ExtendsBy .delegate entry via ∧
      (base = entry ∨ document.ReachesDelegate base entry) := by
  obtain ⟨heir, below, entered⟩ := reaches
  rcases mixin_or_delegate unique clean member below with mixins | ⟨entry, via, mixins, first, above⟩
  · exact ⟨base, heir, mixins, entered, .inl rfl⟩
  · exact ⟨entry, via, mixins, first, .inr ⟨heir, above, entered⟩⟩

theorem eq_of_entries (unique : UniqueNames document.models)
    (clean : Clean (Hierarchy.check document.models)) (member : model ∈ document.models)
    (single : document.MixesInDelegates) {via way other : Model}
    (viaMixins : Relation.ReflTransGen (document.ExtendsBy .mixin) via model)
    (wayMixins : Relation.ReflTransGen (document.ExtendsBy .mixin) way model)
    (isDelegate : document.ExtendsBy .delegate base via)
    (isOther : document.ExtendsBy .delegate other way) : base = other := by
  rcases Relation.reflTransGen_iff_eq_or_transGen.1 viaMixins with rfl | isMixin
  · rcases Relation.reflTransGen_iff_eq_or_transGen.1 wayMixins with rfl | isMixin
    · exact eq_of_extendsBy unique clean member isDelegate isOther
    · exact (single _ member way _ other base isMixin .refl isOther isDelegate).symm
  · exact single model member via way base other isMixin wayMixins isDelegate isOther

theorem reflTransGen_of_mixins (unique : UniqueNames document.models)
    (member : model ∈ document.models) {via : Model}
    (mixins : Relation.ReflTransGen (document.ExtendsBy .mixin) via model) :
    Relation.ReflTransGen document.IsBase via model := by
  induction mixins using Relation.ReflTransGen.head_induction_on with
  | refl => exact .refl
  | head edge mixins ih =>
    have declared := mem_models_of_reflTransGen (fun _ _ edge => edge.1) member mixins
    exact .head ((extendsBy_iff unique declared).1 edge).1 ih

theorem ReachesDelegate.transGen (unique : UniqueNames document.models)
    (member : model ∈ document.models) (reaches : document.ReachesDelegate base model) :
    Relation.TransGen document.IsBase base model := by
  obtain ⟨heir, below, entered⟩ := reaches
  have declared := mem_models_of_reflTransGen (fun _ _ isBase => isBase.1) member below
  exact .head' ((extendsBy_iff unique declared).1 entered).1 below

/-- Of two different delegates that a model reaches, one extends the other. -/
theorem transGen_of_reachesDelegate (valid : (document.validate options).isValid = true)
    (single : document.MixesInDelegates) (member : model ∈ document.models) {first second : Model}
    (reachesFirst : document.ReachesDelegate first model)
    (reachesSecond : document.ReachesDelegate second model) (differ : first ≠ second) :
    Relation.TransGen document.IsBase first second ∨
      Relation.TransGen document.IsBase second first := by
  have unique : UniqueNames document.models :=
    Document.uniqueNames (document.clean_of_isValid valid .symbols)
  have clean : Clean (Hierarchy.check document.models) :=
    document.clean_of_isValid valid .inheritance
  -- The induction goes up the hierarchy: both delegates are above the same first one.
  induction model using (wellFounded_isBase unique clean).transGen.induction with
  | h model ih =>
    obtain ⟨entry, via, mixins, entered, above⟩ := exists_entry unique clean member reachesFirst
    obtain ⟨entry', way, mixins', entered', above'⟩ :=
      exists_entry unique clean member reachesSecond
    cases eq_of_entries unique clean member single mixins mixins' entered entered'
    rcases above with rfl | above
    · rcases above' with rfl | above'
      · exact absurd rfl differ
      · exact .inr (above'.transGen unique entered.1)
    · rcases above' with rfl | above'
      · exact .inl (above.transGen unique entered.1)
      · have reached : document.ReachesDelegate entry model :=
          ⟨via, reflTransGen_of_mixins unique member mixins, entered⟩
        exact ih entry (reached.transGen unique member) entered.1 above above'

end Document

namespace Media

open Library

def field (name : String) (type : TypeRef) (marks : List String) : Field :=
  ⟨ident name, type, marks.map fun mark => ⟨ident mark, [], Span.zero⟩, Span.zero⟩

def delegate (discriminator : String) : Attribute :=
  ⟨ident "@@delegate", [.positional (.reference (ident discriminator) Span.zero)], Span.zero⟩

def asset : Model :=
  ⟨ident "Asset", false, [],
    [field "id" (scalar .int) ["@id"], field "kind" (scalar .string) []], [delegate "kind"],
    Span.zero⟩

def recording : Model :=
  ⟨ident "Recording", false, [ident "Asset"], [field "form" (scalar .string) []],
    [delegate "form"], Span.zero⟩

/-- A mixin that brings along a delegate. -/
def stored (base : String) : Model :=
  ⟨ident "Stored", true, [ident base], [field "size" (scalar .int) []], [], Span.zero⟩

def video (bases : List String) : Model :=
  ⟨ident "Video", false, bases.map ident, [field "title" (scalar .string) []], [], Span.zero⟩

def product : Model :=
  ⟨ident "Product", false, [],
    [field "code" (scalar .int) ["@unique"], field "price" (scalar .string) []],
    [delegate "price"], Span.zero⟩

def library : Document :=
  ⟨[.model asset, .model recording, .model (stored "Recording"), .model (video ["Stored"])]⟩

def shop : Document :=
  ⟨[.model asset, .model product, .model (stored "Asset"), .model (video ["Stored", "Product"])]⟩

end Media

namespace Media

theorem isBase_of_ident {document : Document} {base model : Model}
    (member : base ∈ document.models) (named : base.name ∈ model.bases) :
    document.IsBase base model :=
  ⟨member, base.name, named, rfl⟩

theorem mixesInDelegates_library : library.MixesInDelegates := by
  have edges : (Schema.ofDocument library).hierarchy.edges =
      [⟨"Recording", "Asset", .delegate⟩, ⟨"Stored", "Recording", .delegate⟩,
        ⟨"Video", "Stored", .mixin⟩] := by decide +kernel
  have mixin {base model : Model} (edge : library.ExtendsBy .mixin base model) :
      model.name.name = "Video" ∧ base.name.name = "Stored" := by
    simpa [edges] using edge.2
  have above {base model : Model}
      (mixins : Relation.TransGen (library.ExtendsBy .mixin) base model) :
      model.name.name = "Video" ∧ base.name.name = "Stored" := by
    obtain ⟨_, first, _⟩ := Relation.TransGen.head'_iff.1 mixins
    obtain ⟨_, _, last⟩ := Relation.TransGen.tail'_iff.1 mixins
    exact ⟨(mixin last).1, (mixin first).2⟩
  have delegate {base model : Model} (edge : library.ExtendsBy .delegate base model)
      (notRecording : model.name.name ≠ "Recording") :
      model.name.name = "Stored" ∧ base.name.name = "Recording" := by
    have listed := edge.2
    simp only [edges, List.mem_cons, InheritanceEdge.mk.injEq, notRecording, false_and, false_or]
      at listed
    simpa using listed
  have distinct : (library.models.map fun model => model.name.name).Nodup := by decide
  intro model _ brought via base other mixins ways isDelegate isOther
  obtain ⟨isVideo, isStored⟩ := above mixins
  have baseName := (delegate isDelegate (by simp [isStored])).2
  have otherName : other.name.name = "Recording" := by
    rcases Relation.reflTransGen_iff_eq_or_transGen.1 ways with rfl | ways
    · have wrong := (delegate isOther (by simp [isVideo])).1
      simp [isVideo] at wrong
    · exact (delegate isOther (by simp [(above ways).2])).2
  exact List.inj_on_of_nodup_map distinct isDelegate.1 isOther.1 (baseName.trans otherName.symm)

end Media

theorem Media.transGen_library :
    (library.validate .standard).isValid = true ∧ library.MixesInDelegates ∧
      library.ReachesDelegate recording (video ["Stored"]) ∧
      library.ReachesDelegate asset (video ["Stored"]) ∧ recording ≠ asset ∧
      (Relation.TransGen library.IsBase recording asset ∨
        Relation.TransGen library.IsBase asset recording) := by
  have valid : (library.validate .standard).isValid = true := by decide +kernel
  have reachesRecording : library.ReachesDelegate recording (video ["Stored"]) := by
    refine ⟨stored "Recording", .single (isBase_of_ident ?_ ?_), ?_, by decide +kernel⟩ <;>
      simp [library, Document.models, video, stored]
  have reachesAsset : library.ReachesDelegate asset (video ["Stored"]) := by
    have below : library.IsBase recording (stored "Recording") := by
      refine isBase_of_ident ?_ ?_ <;> simp [library, Document.models, stored, recording]
    refine ⟨recording, .tail (.single below) (isBase_of_ident ?_ ?_), ?_, by decide +kernel⟩ <;>
      simp [library, Document.models, video, stored]
  have differ : recording ≠ asset := fun same => by
    have names := congrArg (fun model => model.name.name) same
    revert names
    decide
  have member : video ["Stored"] ∈ library.models := by simp [library, Document.models]
  exact ⟨valid, mixesInDelegates_library, reachesRecording, reachesAsset, differ,
    Document.transGen_of_reachesDelegate valid mixesInDelegates_library member reachesRecording
      reachesAsset differ⟩

/-- A video gets one delegate through a mixin and another one directly. -/
theorem Media.not_transGen_shop :
    (shop.validate .standard).isValid = true ∧ video ["Stored", "Product"] ∈ shop.models ∧
      shop.ReachesDelegate asset (video ["Stored", "Product"]) ∧
      shop.ReachesDelegate product (video ["Stored", "Product"]) ∧ asset ≠ product ∧
      ¬ Relation.TransGen shop.IsBase asset product ∧
      ¬ Relation.TransGen shop.IsBase product asset := by
  have noBase {base model : Model} (bases : model.bases = []) :
      ¬ Relation.TransGen shop.IsBase base model := by
    intro below
    obtain ⟨_, _, last⟩ := Relation.TransGen.tail'_iff.1 below
    obtain ⟨_, name, listed, _⟩ := last
    rw [bases] at listed
    cases listed
  refine ⟨by decide +kernel, by simp [shop, Document.models], ?_, ?_, ?_, noBase rfl, noBase rfl⟩
  · refine ⟨stored "Asset", .single (isBase_of_ident ?_ ?_), ?_, by decide +kernel⟩ <;>
      simp [shop, Document.models, video, stored]
  · refine ⟨video ["Stored", "Product"], .refl, ?_, by decide +kernel⟩
    simp [shop, Document.models]
  · intro same
    have names := congrArg (fun model => model.name.name) same
    revert names
    decide

end Schemata
