import Schemata.Schema.Basic

set_option autoImplicit false

namespace Schemata.SymbolTable

theorem extend_eq_append (declarations : List Declaration) : ∀ symbols : List Symbol,
    ∃ added, (extend symbols declarations).1 = symbols ++ added ∧
      ∀ symbol ∈ added, symbol.origin = .document ∧ symbol.declaration ∈ declarations := by
  induction declarations with
  | nil => exact fun symbols => ⟨[], by simp [extend]⟩
  | cons declaration rest ih =>
    -- A declaration whose name is taken adds nothing.
    have skip (symbols : List Symbol) : ∃ added, (extend symbols rest).1 = symbols ++ added ∧
        ∀ symbol ∈ added, symbol.origin = .document ∧
          symbol.declaration ∈ declaration :: rest := by
      obtain ⟨added, same, declared⟩ := ih symbols
      exact ⟨added, same, fun symbol found =>
        (declared symbol found).imp id (List.mem_cons_of_mem _)⟩
    intro symbols
    rw [extend]
    split
    · exact skip symbols
    · exact skip symbols
    · obtain ⟨added, same, declared⟩ := skip (symbols ++ [⟨declaration, .document⟩])
      refine ⟨⟨declaration, .document⟩ :: added, ?_, ?_⟩
      · simpa using same
      · exact List.forall_mem_cons.2 ⟨⟨rfl, List.mem_cons_self⟩, declared⟩

theorem symbol?_of_library {document : Document} {name : String} {symbol : Symbol}
    (found : find? librarySymbols name = some symbol) :
    (ofDocument document).symbol? name = some symbol := by
  obtain ⟨added, same, _⟩ := extend_eq_append document.declarations librarySymbols
  unfold symbol? ofDocument
  rw [same]
  unfold find? at found ⊢
  rw [List.find?_append, found]
  rfl

theorem origin?_of_library {document : Document} {name : String}
    (found : (find? librarySymbols name).map Symbol.origin = some .library) :
    (ofDocument document).origin? name = some .library := by
  obtain ⟨symbol, known, origin⟩ := Option.map_eq_some_iff.1 found
  rw [SymbolTable.origin?, symbol?_of_library known, Option.map_some, origin]

theorem origin?_auth (document : Document) :
    (ofDocument document).origin? "auth" = some .library :=
  origin?_of_library (by decide)

theorem origin?_future (document : Document) :
    (ofDocument document).origin? "future" = some .library :=
  origin?_of_library (by decide)

theorem mem_declarations_of_symbol? {document : Document} {name : String} {symbol : Symbol}
    (found : (ofDocument document).symbol? name = some symbol)
    (origin : symbol.origin = .document) :
    symbol.declaration ∈ document.declarations ∧ symbol.declaration.name.name = name := by
  have named : symbol.declaration.name.name = name := by
    simpa [Symbol.name] using List.find?_some found
  refine ⟨?_, named⟩
  obtain ⟨added, same, declared⟩ := extend_eq_append document.declarations librarySymbols
  have member : symbol ∈ librarySymbols ++ added := by
    have listed := List.mem_of_find?_eq_some found
    rwa [ofDocument, same] at listed
  -- The built-in symbols are of another origin.
  rcases List.mem_append.1 member with builtIn | own
  · obtain ⟨declaration, _, rfl⟩ := List.mem_map.1 builtIn
    cases origin
  · exact (declared symbol own).2

section

variable {table : SymbolTable} {name : String}

theorem declaration?_eq_some {declaration : Declaration}
    (found : table.declaration? name = some declaration) :
    ∃ origin, table.symbol? name = some ⟨declaration, origin⟩ ∧
      table.origin? name = some origin := by
  obtain ⟨⟨_, origin⟩, known, rfl⟩ := Option.map_eq_some_iff.1 found
  exact ⟨origin, known, by rw [SymbolTable.origin?, known]; rfl⟩

theorem function?_eq_some {decl : FunctionDecl} (found : table.function? name = some decl) :
    table.declaration? name = some (.function decl) := by
  unfold function? at found
  split at found <;> simp_all

end

theorem declaration_ne_model_of_library :
    ∀ symbol ∈ librarySymbols, ∀ model, symbol.declaration ≠ .model model := by
  have none : Library.document.models = [] := rfl
  intro symbol listed model same
  rcases List.mem_map.1 listed with ⟨declaration, declared, rfl⟩
  cases same
  have found : model ∈ Library.document.models := List.mem_filterMap.2 ⟨_, declared, rfl⟩
  rw [none] at found
  cases found

theorem mem_models_of_declaration? {document : Document} {name : String} {model : Model}
    (found : (ofDocument document).declaration? name = some (.model model)) :
    model ∈ document.models := by
  rcases declaration?_eq_some found with ⟨origin, known, _⟩
  cases origin with
  | document =>
    have declared := (mem_declarations_of_symbol? known rfl).1
    exact List.mem_filterMap.2 ⟨_, declared, rfl⟩
  | library =>
    rcases extend_eq_append document.declarations librarySymbols with ⟨added, same, declared⟩
    have listed := List.mem_of_find?_eq_some known
    rw [ofDocument, same] at listed
    rcases List.mem_append.1 listed with builtIn | own
    · exact absurd rfl (declaration_ne_model_of_library _ builtIn model)
    · cases (declared _ own).1

theorem mem_models_of_resolve {document : Document} {type : TypeRef} {model : Model}
    (resolved : (ofDocument document).resolve type = .model model) : model ∈ document.models := by
  unfold resolve at resolved
  split at resolved
  next => cases resolved
  next => cases resolved
  next => cases resolved
  next =>
    split at resolved
    next found =>
      cases resolved
      exact mem_models_of_declaration? found
    next => cases resolved
    next => cases resolved

end Schemata.SymbolTable
