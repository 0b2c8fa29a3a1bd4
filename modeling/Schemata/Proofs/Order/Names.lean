import Mathlib.Data.List.Pairwise
import Schemata.Proofs.Order.Reorder
import Schemata.Proofs.Schema.Ancestry

set_option autoImplicit false

namespace Schemata

/-- No declaration has the name of another one, or of a built-in one. -/
structure Document.Unambiguous (document : Document) : Prop where
  distinct : (document.declarations.map fun declaration => declaration.name.name).Nodup
  fresh : ∀ declaration ∈ document.declarations,
    SymbolTable.find? SymbolTable.librarySymbols declaration.name.name = none

variable {order : Model → List Ident} {document other : Document}

theorem Document.unambiguous_of_clean (clean : Clean (SymbolTable.clashes document)) :
    document.Unambiguous :=
  ⟨(SymbolTable.distinct_of_clean _ _ clean).1, (SymbolTable.distinct_of_clean _ _ clean).2⟩

namespace SymbolTable

theorem extend_of_distinct (declarations : List Declaration) : ∀ symbols : List Symbol,
    (declarations.map fun declaration => declaration.name.name).Nodup →
      (∀ declaration ∈ declarations, find? symbols declaration.name.name = none) →
        extend symbols declarations =
          (symbols ++ declarations.map fun declaration => ⟨declaration, .document⟩, []) := by
  induction declarations with
  | nil => exact fun symbols _ _ => by simp [extend]
  | cons declaration rest ih =>
    intro symbols distinct fresh
    rw [List.map_cons, List.nodup_cons] at distinct
    rw [List.forall_mem_cons] at fresh
    -- The first declaration takes none of the names of the later ones.
    have later : ∀ next ∈ rest,
        find? (symbols ++ [⟨declaration, .document⟩]) next.name.name = none := by
      intro next found
      have apart : declaration.name.name ≠ next.name.name := fun same =>
        distinct.1 (same ▸ List.mem_map_of_mem found)
      have free := fresh.2 next found
      unfold find? at free ⊢
      rw [List.find?_append, free, Option.none_or]
      simpa [Symbol.name] using apart
    rw [extend, fresh.1]
    simpa using ih _ distinct.2 later

variable (unambiguous : document.Unambiguous)
include unambiguous

theorem clashes_of_unambiguous : clashes document = [] := by
  rw [clashes, extend_of_distinct _ _ unambiguous.distinct unambiguous.fresh]

theorem symbols_of_unambiguous : (ofDocument document).symbols =
    librarySymbols ++ document.declarations.map fun declaration => ⟨declaration, .document⟩ := by
  rw [ofDocument, extend_of_distinct _ _ unambiguous.distinct unambiguous.fresh]

theorem symbol?_of_unambiguous (name : String) :
    (ofDocument document).symbol? name = (find? librarySymbols name).or
      ((document.declarations.find? (·.name.name == name)).map fun declaration =>
        ⟨declaration, .document⟩) := by
  rw [symbol?, symbols_of_unambiguous unambiguous, find?, find?, List.find?_append, List.find?_map]
  rfl

theorem enums_of_unambiguous :
    (ofDocument document).enums = document.enums ++ Library.document.enums := by
  have append (first second : List Symbol) (origin : Origin) :
      enumsOf ⟨document, first ++ second⟩ origin =
        enumsOf ⟨document, first⟩ origin ++ enumsOf ⟨document, second⟩ origin :=
    List.filterMap_append
  have library (origin : Origin) : enumsOf ⟨document, librarySymbols⟩ origin =
      if origin = .library then Library.document.enums else [] := by
    cases origin <;> rfl
  have own (origin : Origin) : enumsOf ⟨document, document.declarations.map fun declaration =>
      ⟨declaration, .document⟩⟩ origin = if origin = .document then document.enums else [] := by
    rw [enumsOf, List.filterMap_map]
    cases origin with
    | library =>
      refine List.filterMap_eq_nil_iff.2 fun declaration _ => ?_
      cases declaration <;> rfl
    | document =>
      refine congrArg (List.filterMap · document.declarations) (funext fun declaration => ?_)
      cases declaration <;> rfl
  have table : ofDocument document = ⟨document, librarySymbols ++
      document.declarations.map fun declaration => ⟨declaration, .document⟩⟩ := by
    rw [← symbols_of_unambiguous unambiguous]
    rfl
  rw [enums, table, append, append, library, library, own, own]
  simp

end SymbolTable

namespace Document

theorem names_reorder :
    ((document.reorder order).declarations.map fun declaration => declaration.name.name) =
      document.declarations.map fun declaration => declaration.name.name := by
  rw [reorder, List.map_map]
  exact List.map_congr_left fun declaration _ => by simp

namespace Unambiguous

variable (unambiguous : document.Unambiguous)
  (declared : other.declarations.Perm (document.reorder order).declarations)
include unambiguous declared

theorem reordered : other.Unambiguous := by
  have names := declared.map fun declaration => declaration.name.name
  rw [names_reorder] at names
  refine ⟨names.nodup_iff.2 unambiguous.distinct, fun declaration found => ?_⟩
  obtain ⟨original, member, rfl⟩ := List.mem_map.1 (declared.mem_iff.1 found)
  rw [Declaration.name_reorder]
  exact unambiguous.fresh original member

theorem find?_declarations (name : String) :
    other.declarations.find? (·.name.name == name) =
      (document.declarations.find? (·.name.name == name)).map (Declaration.reorder order) := by
  have distinct : ((document.reorder order).declarations.map fun declaration =>
      declaration.name.name).Nodup :=
    names_reorder.symm ▸ unambiguous.distinct
  rw [find?_eq_of_perm declared, reorder, List.find?_map]
  · simp only [Function.comp_def, Declaration.name_reorder]
  · intro first isFirst second isSecond firstNamed secondNamed
    refine List.inj_on_of_nodup_map distinct isFirst isSecond ?_
    rw [eq_of_beq firstNamed, eq_of_beq secondNamed]

theorem declaration? (name : String) :
    (Schema.ofDocument other).symbols.declaration? name =
      ((Schema.ofDocument document).symbols.declaration? name).map (Declaration.reorder order) := by
  have library : (SymbolTable.find? SymbolTable.librarySymbols name).map
      (fun symbol => symbol.declaration.reorder order) =
        (SymbolTable.find? SymbolTable.librarySymbols name).map Symbol.declaration := by
    refine Option.map_congr fun symbol found => ?_
    have notModel := SymbolTable.declaration_ne_model_of_library symbol
      (List.mem_of_find?_eq_some found)
    cases declared : symbol.declaration with
    | model model => exact absurd declared (notModel model)
    | _ => rfl
  have found (document : Document) : (Schema.ofDocument document).symbols =
    SymbolTable.ofDocument document := rfl
  rw [found, found, SymbolTable.declaration?, SymbolTable.declaration?,
    SymbolTable.symbol?_of_unambiguous (unambiguous.reordered declared),
    SymbolTable.symbol?_of_unambiguous unambiguous, unambiguous.find?_declarations declared]
  simp only [Option.map_or, Option.map_map, Function.comp_def, library]

theorem origin? (name : String) :
    (Schema.ofDocument other).symbols.origin? name =
      (Schema.ofDocument document).symbols.origin? name := by
  have found (document : Document) : (Schema.ofDocument document).symbols =
    SymbolTable.ofDocument document := rfl
  rw [found, found, SymbolTable.origin?, SymbolTable.origin?,
    SymbolTable.symbol?_of_unambiguous (unambiguous.reordered declared),
    SymbolTable.symbol?_of_unambiguous unambiguous, unambiguous.find?_declarations declared]
  simp only [Option.map_or, Option.map_map, Function.comp_def]

theorem enumMember? (name : String)
    (same : (other.enums.findSome? fun decl => (decl.member? name).map fun found => (decl, found)) =
      document.enums.findSome? fun decl => (decl.member? name).map fun found => (decl, found)) :
    (Schema.ofDocument other).symbols.enumMember? name =
      (Schema.ofDocument document).symbols.enumMember? name := by
  have found (document : Document) : (Schema.ofDocument document).symbols =
    SymbolTable.ofDocument document := rfl
  rw [found, found, SymbolTable.enumMember?, SymbolTable.enumMember?,
    SymbolTable.enums_of_unambiguous (unambiguous.reordered declared),
    SymbolTable.enums_of_unambiguous unambiguous, List.findSome?_append, List.findSome?_append, same]

end Unambiguous

/-- No name is a member of two different enums. -/
def HasDistinctMembers (document : Document) : Prop :=
  document.enums.Pairwise fun first second =>
    ∀ one ∈ first.members, ∀ another ∈ second.members, one.name.name ≠ another.name.name

instance (document : Document) : Decidable document.HasDistinctMembers :=
  inferInstanceAs (Decidable (List.Pairwise _ _))

theorem HasDistinctMembers.findSome?_perm (apart : document.HasDistinctMembers)
    (perm : other.enums.Perm document.enums) (name : String) :
    (other.enums.findSome? fun decl => (decl.member? name).map fun found => (decl, found)) =
      document.enums.findSome? fun decl => (decl.member? name).map fun found => (decl, found) := by
  have symmetric : Std.Symm fun first second : EnumDecl =>
      ((first.member? name).map fun found => (first, found)).isSome = true →
        ((second.member? name).map fun found => (second, found)).isSome = true →
          ((first.member? name).map fun found => (first, found)) =
            (second.member? name).map fun found => (second, found) :=
    ⟨fun _ _ same hit hitToo => (same hitToo hit).symm⟩
  refine findSome?_eq_of_perm perm (List.Pairwise.forall_of_forall (fun _ _ _ _ => rfl) ?_)
  refine apart.imp fun {first second} apart hit hitToo => ?_
  rw [Option.isSome_map] at hit hitToo
  obtain ⟨one, found⟩ := Option.isSome_iff_exists.1 hit
  obtain ⟨another, foundToo⟩ := Option.isSome_iff_exists.1 hitToo
  have named : one.name.name = name := by simpa using List.find?_some found
  have namedToo : another.name.name = name := by simpa using List.find?_some foundToo
  exact absurd (named.trans namedToo.symm) (apart one (List.mem_of_find?_eq_some found) another
    (List.mem_of_find?_eq_some foundToo))

end Document

end Schemata
