import Schemata.Proofs.Schema.Members

set_option autoImplicit false

namespace Schemata

def VisibleField.origin (visible : VisibleField) : Field × String × Bool :=
  (visible.field, visible.declaredIn, visible.inherited)

namespace Document

structure Flattens (document : Document) (model : Model) (ancestors : List Model) : Prop where
  ancestry : document.Ancestry model ancestors
  fields : ((Hierarchy.ofModels document.models).fields model.name.name).map VisibleField.origin =
    (ancestors.flatMap fun base => base.fields.map (·, base.name.name, true)) ++
      model.fields.map (·, model.name.name, false)
  attributes : (Hierarchy.ofModels document.models).attributes model.name.name =
    (ancestors.flatMap fun base =>
      (base.attributes.filter fun applied =>
        applied.name.name != "@@delegate" && applied.name.name != "@@map").map
          (⟨·, base.name.name⟩)) ++
      model.attributes.map (⟨·, model.name.name⟩)

variable {document : Document} {model : Model}

theorem exists_flattens
    (distinct : (document.declarations.map fun declaration => declaration.name.name).Nodup)
    (clean : Hierarchy.check document.models = []) (member : model ∈ document.models) :
    ∃ ancestors, document.Flattens model ancestors := by
  have unique := document.uniqueNames_of_nodup distinct
  have noError : Clean (Hierarchy.check document.models) := clean ▸ Clean.nil
  obtain ⟨index, here⟩ := List.mem_iff_getElem?.1 member
  have sees := Hierarchy.sees_of_clean unique noError here
  refine ⟨Hierarchy.ancestorModels document.models index, ?_, ?_, ?_⟩
  · exact Hierarchy.ancestry_ancestorModels unique (Hierarchy.lawful_of_clean unique noError) here
  · rw [sees.fields]
    exact Hierarchy.map_reachingFields_eq fun _ _ => rfl
  · rw [sees.attributes, Hierarchy.visibleAttributes_eq]
    refine congrArg (· ++ _) (List.flatMap_congr fun base _ => congrArg (List.map _) ?_)
    refine List.filter_congr fun applied _ => ?_
    simp [Hierarchy.ownAttributes, Bool.beq_eq_decide_eq, bne]

/-- No member is lost on the way, and none reaches a model twice. -/
theorem flattens (document : Document) :
    (∀ name, (((Hierarchy.ofModels document.models).fields name).map VisibleField.name).Nodup) ∧
      ((document.declarations.map fun declaration => declaration.name.name).Nodup →
        Hierarchy.check document.models = [] →
          ∀ model ∈ document.models, ∃ ancestors, document.Flattens model ancestors) :=
  ⟨Hierarchy.nodup_fields_ofModels, fun distinct clean _ member =>
    exists_flattens distinct clean member⟩

end Document

namespace Newsroom

open Library

def field (name : String) (type : TypeRef) (marks : List String) : Field :=
  ⟨ident name, type, marks.map fun mark => ⟨ident mark, [], Span.zero⟩, Span.zero⟩

def mapped (table : String) : Attribute :=
  ⟨ident "@@map", [.positional (.literal (.string table) Span.zero)], Span.zero⟩

def hidden : Attribute := ⟨ident "@@ignore", [], Span.zero⟩

def tracked : Model :=
  ⟨ident "Tracked", true, [], [field "id" int ["@id"]], [mapped "tracked", hidden], Span.zero⟩

def signed : Model :=
  ⟨ident "Signed", true, [ident "Tracked"], [field "author" string []], [], Span.zero⟩

def dated : Model :=
  ⟨ident "Dated", true, [ident "Tracked"], [field "day" int []], [], Span.zero⟩

def article : Model :=
  ⟨ident "Article", false, [ident "Signed", ident "Dated"], [field "title" string []],
    [mapped "articles"], Span.zero⟩

def articles : Document := ⟨[.model article, .model dated, .model signed, .model tracked]⟩

theorem flattens_articles :
    (articles.declarations.map fun declaration => declaration.name.name).Nodup ∧
      Hierarchy.check articles.models = [] ∧ article ∈ articles.models ∧
      ∃ ancestors, articles.Flattens article ancestors := by
  have distinct : (articles.declarations.map fun declaration => declaration.name.name).Nodup := by
    decide
  have clean : Hierarchy.check articles.models = [] := by
    rw [← List.isEmpty_iff]
    decide +kernel
  have member : article ∈ articles.models := List.mem_cons_self
  exact ⟨distinct, clean, member, articles.flattens.2 distinct clean article member⟩

example :
    ((Hierarchy.ofModels articles.models).fields "Article").map
        (fun visible => (visible.name, visible.declaredIn)) =
      [("id", "Tracked"), ("author", "Signed"), ("day", "Dated"), ("title", "Article")] := by
  decide +kernel

end Newsroom

end Schemata
