import Schemata.Proofs.Lowering.Correctness

/-!
# Names that lowering finds

The check and lowering look names up in the same scopes. In a function that is inlined, though, a
parameter stands for an argument, and the check lets a call leave out the arguments of optional
parameters. Lowering finds every name of an expression without issues as long as no call that is
inlined leaves out an argument that the body reads.
-/

set_option autoImplicit false

namespace Schemata

namespace Lower

/-- No name was missing, whatever other error there is. -/
def Resolves {α : Type} (result : Except LowerError α) : Prop :=
  ∀ name, result ≠ .error (.unresolved name)

theorem resolves_iff {α : Type} {result : Except LowerError α} :
    Resolves result ↔ FailsOnly (fun error => ∀ name, error ≠ .unresolved name) result := by
  constructor
  · rintro found error failed name rfl
    exact found name failed
  · exact fun only name failed => only _ failed name rfl

theorem Resolves.ok {α : Type} (value : α) : Resolves (.ok value) := resolves_iff.2 (.ok value)

theorem Resolves.bind {α β : Type} {first : Except LowerError α} {next : α → Except LowerError β}
    (head : Resolves first) (tail : ∀ value, first = .ok value → Resolves (next value)) :
    Resolves (first >>= next) :=
  resolves_iff.2 (.bind (resolves_iff.1 head) fun value here => resolves_iff.1 (tail value here))

end Lower

theorem Expr.failsOnly_of_inherited {lowering : LowerContext} {asked : Scope → Expr → Prop}
    {expected : LowerError → Prop} (inherited : Inherited lowering.schema asked)
    (isOwn : ∀ error : LowerError,
      (∀ name, error ≠ .unresolved name ∧ error ≠ .recursiveFunction name) → expected error)
    (this : ∀ scope span, asked scope (.this span) → FailsOnly expected (Lower.this lowering scope))
    (reference : ∀ scope name span, asked scope (.reference name span) →
      FailsOnly expected (Lower.reference lowering scope name.name))
    (call : ∀ (scope : Scope) (function : Ident) (given : List Argument) (span : Span)
      (parts : List Operand), function.name ≠ "auth" → function.name ≠ "future" →
      asked scope (.call function given span) → parts.length = given.length →
        FailsOnly expected (Lower.call lowering scope function.name parts)) (expr : Expr) :
    ∀ scope : Scope, asked scope expr → FailsOnly expected (expr.lowerWith lowering scope) := by
  have noMember (name : String) : expected (.invalidMemberAccess name) := isOwn _ (by simp)
  induction expr using Expr.inductionOn with
  | literal value span =>
    intro scope _
    rw [lowerWith]
    exact (Lower.failsOnly_literal (fun _ => isOwn _ (by simp)) value).map
  | this span => exact fun scope holds => this scope span holds
  | reference name span => exact fun scope holds => reference scope name span holds
  | access object member span ih =>
    intro scope holds
    exact .bind (ih scope (inherited.object holds)) fun _ _ =>
      Lower.failsOnly_access noMember _ _
  | unary op operand span ih =>
    intro scope holds
    have inner := ih scope (inherited.operand holds)
    cases op with
    | negate | not => exact .bind inner fun _ _ => .ok _
  | binary op left right span leftIh rightIh =>
    intro scope holds
    exact failsOnly_binary (leftIh scope (inherited.left holds))
      (rightIh scope (inherited.right holds)) fun _ _ _ _ _ _ =>
        Lower.failsOnly_compare noMember (fun _ => isOwn _ (by simp)) _ _ _ _ _
  | call function given span ih =>
    intro scope holds
    by_cases isAuth : function.name = "auth"
    · rw [lowerWith_auth _ _ _ _ isAuth]
      exact .ok _
    by_cases isFuture : function.name = "future"
    · rw [lowerWith_future _ _ _ _ isFuture]
      exact .ok _
    rw [lowerWith_call _ _ _ _ isAuth isFuture]
    refine .bind (Argument.failsOnly_lowerAllWith fun argument found => ?_) fun parts lowered => ?_
    · exact ih argument found scope (inherited.argument isAuth isFuture found holds)
    · exact call scope function given span parts isAuth isFuture holds
        (Argument.length_of_lowerAllWith lowered)
  | list items span ih =>
    intro scope holds
    refine .bind (Expr.failsOnly_lowerAllWith fun item found => ?_) fun _ _ => .ok _
    exact ih item found scope (inherited.item found holds)
  | quantified collection quantifier condition span collectionIh conditionIh =>
    intro scope holds
    rw [lowerWith]
    refine .bind (Lower.failsOnly_elementModel (isOwn _ (by simp)) _ _ _) fun model element => ?_
    have kind := Lower.elementModel_eq_ok element
    exact .bind (collectionIh scope (inherited.collection holds)) fun _ _ =>
      .bind (conditionIh _ (inherited.condition kind holds)) fun _ _ => .ok _

mutual

def Expr.callSites (schema : Schema) (scope : Scope) : Expr → List (String × Nat)
  | .literal _ _ | .this _ | .reference _ _ => []
  | .access object _ _ => object.callSites schema scope
  | .unary _ operand _ => operand.callSites schema scope
  | .binary _ left right _ => left.callSites schema scope ++ right.callSites schema scope
  | .call function arguments _ =>
      if function.name = "auth" ∨ function.name = "future" then []
      else (function.name, arguments.length) :: Argument.callSitesOfAll schema scope arguments
  | .list items _ => Expr.callSitesOfAll schema scope items
  | .quantified collection _ condition _ =>
      collection.callSites schema scope ++
        match (collection.typeIn schema scope).kind with
        | .model model => condition.callSites schema (.element model :: scope)
        | _ => []

def Expr.callSitesOfAll (schema : Schema) (scope : Scope) : List Expr → List (String × Nat)
  | [] => []
  | item :: rest => item.callSites schema scope ++ Expr.callSitesOfAll schema scope rest

def Argument.callSitesOfAll (schema : Schema) (scope : Scope) :
    List Argument → List (String × Nat)
  | [] => []
  | .positional value :: rest | .named _ value :: rest =>
      value.callSites schema scope ++ Argument.callSitesOfAll schema scope rest

end

section

variable {schema : Schema} {scope : Scope}

theorem Expr.callSites_subset_ofAll {items : List Expr} {item : Expr} (found : item ∈ items) :
    item.callSites schema scope ⊆ Expr.callSitesOfAll schema scope items := by
  induction items with
  | nil => cases found
  | cons first rest ih =>
    rcases List.mem_cons.1 found with rfl | found
    · exact List.subset_append_left _ _
    · exact List.Subset.trans (ih found) (List.subset_append_right _ _)

theorem Argument.callSites_subset_ofAll {arguments : List Argument} {argument : Argument}
    (found : argument ∈ arguments) :
    argument.value.callSites schema scope ⊆ Argument.callSitesOfAll schema scope arguments := by
  induction arguments with
  | nil => cases found
  | cons first rest ih =>
    have inner : first.value.callSites schema scope ++ Argument.callSitesOfAll schema scope rest =
        Argument.callSitesOfAll schema scope (first :: rest) := by
      cases first <;> rfl
    rw [← inner]
    rcases List.mem_cons.1 found with rfl | found
    · exact List.subset_append_left _ _
    · exact List.Subset.trans (ih found) (List.subset_append_right _ _)

theorem Expr.inherited_paramsRead (good : Nat → Prop) :
    Inherited schema fun scope expr =>
      ∀ index ∈ expr.paramsRead schema false scope, good index where
  object each := each
  operand each := each
  left each := (List.forall_mem_append.1 each).1
  right each := (List.forall_mem_append.1 each).2
  argument notAuth notFuture given each index read := by
    refine each index ?_
    rw [paramsRead, if_neg (by simp [notAuth, notFuture])]
    exact Argument.mem_paramsReadByAll.2 ⟨_, given, read⟩
  item listed each index read := each index (mem_paramsReadByAll.2 ⟨_, listed, read⟩)
  collection each := (List.forall_mem_append.1 each).1
  condition kind each := by
    have inside := (List.forall_mem_append.1 each).2
    rwa [kind] at inside

theorem Expr.inherited_callSites (good : String × Nat → Prop) :
    Inherited schema fun scope expr => ∀ site ∈ expr.callSites schema scope, good site where
  object each := each
  operand each := each
  left each := (List.forall_mem_append.1 each).1
  right each := (List.forall_mem_append.1 each).2
  argument notAuth notFuture given each site called := by
    refine each site ?_
    rw [callSites, if_neg (by simp [notAuth, notFuture])]
    exact List.mem_cons_of_mem _ (Argument.callSites_subset_ofAll given called)
  item listed each site called := each site (callSites_subset_ofAll listed called)
  collection each := (List.forall_mem_append.1 each).1
  condition kind each := by
    have inside := (List.forall_mem_append.1 each).2
    rwa [kind] at inside

end

structure LowerContext.Serves (lowering : LowerContext) (scope : Scope) (expr : Expr) : Prop where
  arguments : ∀ index ∈ expr.paramsRead lowering.schema false scope,
    index < lowering.arguments.length
  inlines : ∀ name given, (name, given) ∈ expr.callSites lowering.schema scope →
    ∀ decl operands depth, Lower.inlinable? lowering.schema name = some decl →
      operands.length = given → Lower.Resolves (lowering.inline decl operands depth)

section

variable {lowering : LowerContext} {scope : Scope}

theorem Lower.resolves_this {span : Span}
    (clean : (Typing.this scope span).diagnostics = []) : Resolves (this lowering scope) := by
  unfold Typing.this at clean
  unfold this
  split
  · exact .ok _
  next none => simp [none, Typing.reject] at clean

theorem Lower.resolves_reference {name : Ident} {span : Span}
    (clean : (Typing.reference lowering.schema scope name).diagnostics = [])
    (given : ∀ index ∈ (Expr.reference name span).paramsRead lowering.schema false scope,
      index < lowering.arguments.length) :
    Resolves (reference lowering scope name.name) := by
  unfold reference
  split
  next frame index param found =>
    have read : index ∈ (Expr.reference name span).paramsRead lowering.schema false scope := by
      simp [Expr.paramsRead, Scope.paramIndex?, found]
    rw [List.getElem?_eq_getElem (given index read)]
    exact .ok _
  next => exact .ok _
  next => exact .ok _
  next none => simp [Typing.reference, none] at clean

theorem Expr.resolves_lowerWith {future : Bool} (expr : Expr) (scope : Scope)
    (clean : (expr.check lowering.schema future scope).diagnostics = [])
    (serves : lowering.Serves scope expr) : Lower.Resolves (expr.lowerWith lowering scope) := by
  let inlined (site : String × Nat) : Prop :=
    ∀ decl operands depth, Lower.inlinable? lowering.schema site.1 = some decl →
      operands.length = site.2 → Lower.Resolves (lowering.inline decl operands depth)
  have inherited := (inherited_clean lowering.schema future).and
    ((inherited_paramsRead (· < lowering.arguments.length)).and (inherited_callSites inlined))
  refine Lower.resolves_iff.2 (failsOnly_of_inherited inherited ?_ ?_ ?_ ?_ expr scope
    ⟨clean, serves.arguments, fun site => serves.inlines site.1 site.2⟩)
  · exact fun error isOwn name => (isOwn name).1
  · exact fun scope span holds => Lower.resolves_iff.1 (Lower.resolves_this holds.1)
  · exact fun scope name span holds =>
      Lower.resolves_iff.1 (Lower.resolves_reference holds.1 holds.2.1)
  · intro scope function given span parts notAuth notFuture holds length
    have site : (function.name, given.length) ∈
        (Expr.call function given span).callSites lowering.schema scope := by
      rw [callSites, if_neg (by simp [notAuth, notFuture])]
      exact List.mem_cons_self
    unfold Lower.call
    split
    next decl defined =>
      exact Lower.resolves_iff.1 (holds.2.2 _ site decl parts _ defined length)
    next => exact .ok _

end

/--
A call of a function is inlined with some number of arguments while an expression is lowered: the
expression makes the call, or the body of a function that is inlined makes it.
-/
inductive Expr.Inlines (schema : Schema) (scope : Scope) (expr : Expr) : FunctionDecl → Nat → Prop
  | called {name : String} {given : Nat} {decl : FunctionDecl}
      (site : (name, given) ∈ expr.callSites schema scope)
      (defined : Lower.inlinable? schema name = some decl) : Inlines schema scope expr decl given
  | within {outer decl : FunctionDecl} {body : Expr} {name : String} {number given : Nat}
      (inlined : Inlines schema scope expr outer number) (isBody : outer.body = some body)
      (site : (name, given) ∈ body.callSites schema [.function outer.params])
      (defined : Lower.inlinable? schema name = some decl) : Inlines schema scope expr decl given

/-- Every call that is inlined has an argument for each parameter that the body reads. -/
def Expr.SuppliesParams (schema : Schema) (scope : Scope) (expr : Expr) : Prop :=
  ∀ decl given, expr.Inlines schema scope decl given → ∀ body, decl.body = some body →
    ∀ index ∈ body.paramsRead schema false [.function decl.params], index < given

section

variable {document : Document} {options : ValidationOptions} {scope : Scope} {expr : Expr}
  {decl : FunctionDecl}

theorem Expr.Inlines.defined {schema : Schema} {given : Nat}
    (inlined : expr.Inlines schema scope decl given) :
    ∃ name, Lower.inlinable? schema name = some decl := by
  cases inlined with
  | called _ defined | within _ _ _ defined => exact ⟨_, defined⟩

theorem Lower.name_mem_of_inlinable? {schema : Schema} {name : String}
    (defined : inlinable? schema name = some decl) :
    decl.name.name ∈ schema.symbols.symbols.map Symbol.name :=
  List.mem_map.2 ⟨_, List.mem_of_find?_eq_some (symbol?_of_inlinable? defined).1, rfl⟩

theorem Lower.resolves_inlineInside (valid : (document.validate options).isValid = true)
    (supplied : expr.SuppliesParams (.ofDocument document) scope) (fuel : Nat) :
    ∀ (inlined : List String) (base : Nat) (decl : FunctionDecl) (operands : List Operand)
      (depth : Nat), inlined.Nodup →
      inlined ⊆ (Schema.ofDocument document).symbols.symbols.map Symbol.name →
      (Schema.ofDocument document).symbols.symbols.length < fuel + inlined.length →
      expr.Inlines (.ofDocument document) scope decl operands.length →
        Resolves (inlineInside (.ofDocument document) fuel inlined base decl operands depth) := by
  -- The functions that are inlined inside each other are different symbols, so that the fuel does
  -- not run out before a function is met again.
  induction fuel with
  | zero =>
    intro inlined base decl operands depth distinct known enough _
    have short := distinct.length_le_of_subset known
    rw [List.length_map] at short
    omega
  | succ fuel ih =>
    intro inlined base decl operands depth distinct known enough inlines
    obtain ⟨name, defined⟩ := inlines.defined
    obtain ⟨member, _, hasBody⟩ := declared_of_inlinable? defined
    obtain ⟨body, isBody⟩ := Option.isSome_iff_exists.1 hasBody
    rw [inlineInside.eq_def]
    simp only [isBody]
    split
    · rintro name ⟨⟩
    next fresh =>
      refine body.resolves_lowerWith _ (document.check_body valid member isBody) ⟨?_, ?_⟩
      · exact supplied decl _ inlines body isBody
      · intro name given site inner arguments depth isInner length
        refine ih _ _ inner arguments depth (List.nodup_cons.2 ⟨fresh, distinct⟩) ?_ ?_ ?_
        · exact List.cons_subset.2 ⟨name_mem_of_inlinable? defined, known⟩
        · rw [List.length_cons]
          omega
        · exact length ▸ .within inlines isBody site isInner

theorem Expr.not_mem_paramsRead {schema : Schema} {index : Nat} (expr : Expr) :
    ∀ scope : Scope, scope.CarriesValues → index ∉ expr.paramsRead schema false scope := by
  induction expr using Expr.inductionOn with
  | literal | this => exact fun scope _ read => nomatch read
  | reference name span =>
    intro scope carries read
    have none : scope.paramIndex? schema name.name = none := by
      unfold Scope.paramIndex?
      split
      next found => exact absurd found carries.lookup?_ne_param
      next => rfl
    simp [paramsRead, none] at read
  | access object member span ih | unary op operand span ih => exact ih
  | binary op left right span leftIh rightIh =>
    intro scope carries read
    exact (List.mem_append.1 read).elim (leftIh scope carries) (rightIh scope carries)
  | call function arguments span ih =>
    intro scope carries read
    rw [paramsRead] at read
    split at read
    · cases read
    · obtain ⟨argument, found, read⟩ := Argument.mem_paramsReadByAll.1 read
      exact ih argument found scope carries read
  | list items span ih =>
    intro scope carries read
    obtain ⟨item, found, read⟩ := Expr.mem_paramsReadByAll.1 read
    exact ih item found scope carries read
  | quantified collection quantifier condition span collectionIh conditionIh =>
    intro scope carries read
    rcases List.mem_append.1 read with read | read
    · exact collectionIh scope carries read
    · split at read
      next model => exact conditionIh _ (List.forall_mem_cons.2 ⟨rfl, carries⟩) read
      next => cases read

/--
Lowering finds every name of an expression without issues, and so do the bodies that are inlined,
if no call that is inlined leaves out an argument that the body reads.
-/
theorem Expr.lower_ne_unresolved {record : Model}
    (valid : (document.validate options).isValid = true)
    (clean : (expr.check (.ofDocument document) true [.record record]).diagnostics = [])
    (supplied : expr.SuppliesParams (.ofDocument document) [.record record]) (name : String) :
    expr.lower (.ofDocument document) [.record record] ≠ .error (.unresolved name) := by
  -- A record has no parameters, and its calls start inlining with all of the fuel.
  have serves : (LowerContext.outside (.ofDocument document)).Serves [.record record] expr := by
    constructor
    · intro index read
      exact absurd read (expr.not_mem_paramsRead _ (List.forall_mem_singleton.2 rfl))
    · intro name given site decl operands depth defined length
      refine Lower.resolves_inlineInside valid supplied _ [] 0 decl operands depth List.nodup_nil
        (List.nil_subset _) (by simp) ?_
      exact length ▸ .called site defined
  have found : Lower.Resolves (expr.lower (.ofDocument document) [.record record]) :=
    .bind (expr.resolves_lowerWith _ clean serves) fun operand _ => .ok _
  exact found name

end

namespace Search

open Library Blog

def post : Model := model "Post" [key, field "title" string []]

/-- The value `title != '' || title == wanted`, which is true of every title but the empty one. -/
def body : Expr :=
  .binary .or
    (.binary .ne (reference "title") (.literal (.string "") Span.zero) Span.zero)
    (.binary .eq (reference "title") (reference "wanted") Span.zero) Span.zero

/-- `function isFound(title: String, wanted: String?): Boolean` with the value for its body -/
def isFound : FunctionDecl :=
  ⟨ident "isFound", [⟨ident "title", string⟩, ⟨ident "wanted", optional string⟩], boolean,
    some body, Span.zero⟩

def document : Document := ⟨[.model post, .function isFound]⟩

def schema : Schema := Schema.ofDocument document

def call (given : List Expr) : Expr :=
  .call (ident "isFound") (given.map .positional) Span.zero

def short : Expr := call [reference "title"]

def full : Expr := call [reference "title", .literal (.string "x") Span.zero]

theorem suppliesParams_full : full.SuppliesParams schema [.record post] := by
  intro decl given inlines
  -- The function is the only one that is called, and its body calls none.
  have only : decl = isFound ∧ given = 2 := by
    induction inlines with
    | called site defined =>
      cases List.mem_singleton.1 site
      exact ⟨(Option.some.inj defined).symm, rfl⟩
    | within _ isBody site _ ih =>
      obtain ⟨rfl, _⟩ := ih
      cases Option.some.inj isBody
      cases site
  obtain ⟨rfl, rfl⟩ := only
  rintro _ ⟨⟩
  decide +kernel

end Search

theorem Search.lower_full :
    (full.check schema true [.record post]).diagnostics = [] ∧
      full.lower schema [.record post] ≠ .error (.unresolved "wanted") := by
  have valid : (document.validate .standard).isValid = true := by decide +kernel
  exact ⟨rfl, Expr.lower_ne_unresolved valid rfl suppliesParams_full "wanted"⟩

/-- The check lets the call leave out the optional parameter, which lowering then does not find. -/
theorem Search.lower_short :
    (document.validate .standard).isValid = true ∧
      schema.symbols.model? "Post" = some post ∧
      (short.check schema true [.record post]).diagnostics = [] ∧
      short.lower schema [.record post] = .error (.unresolved "wanted") :=
  ⟨by decide +kernel, rfl, rfl, rfl⟩

end Schemata
