import Schemata.Syntax.Document

/-!
# Outlines

The outline of a node is its place in the text with the outlines of its parts. An outline is
well-placed if its place is a part of the text, a name stands at its place, and the parts lie inside
the place of the whole, one behind the other.
-/

set_option autoImplicit false

namespace Schemata

/-- A character of the text starts at the offset, or the text ends there. -/
def IsBoundary (text : String) (offset : Nat) : Prop :=
  ∃ before after, text.toList = before ++ after ∧ byteLength before = offset

theorem IsBoundary.le_byteLength {text : String} {offset : Nat}
    (boundary : IsBoundary text offset) : offset ≤ byteLength text.toList := by
  obtain ⟨before, after, same, length⟩ := boundary
  rw [same, byteLength_append, length]
  exact Nat.le_add_right _ _

namespace Span

structure IsWithin (text : String) (span : Span) : Prop where
  start : IsBoundary text span.start
  stop : IsBoundary text span.stop
  ordered : span.start ≤ span.stop

def Shows (text : String) (span : Span) (word : String) : Prop :=
  ∃ before after, text.toList = before ++ word.toList ++ after ∧
    byteLength before = span.start ∧ byteLength (before ++ word.toList) = span.stop

structure Encloses (whole inner : Span) : Prop where
  start : whole.start ≤ inner.start
  stop : inner.stop ≤ whole.stop

end Span

/--
A node has a place, and a name if it is an identifier. Its parts are given in groups, each in the
order in which the parts are to stand in the text.
-/
inductive Outline
  | node (span : Span) (name : Option String) (groups : List (List Outline))

def Outline.span : Outline → Span
  | .node span _ _ => span

inductive Outline.IsWellPlaced (text : String) : Outline → Prop
  | node {span : Span} {name : Option String} {groups : List (List Outline)}
      (within : span.IsWithin text)
      (named : ∀ word ∈ name, span.Shows text word)
      (enclosed : ∀ group ∈ groups, ∀ part ∈ group, span.Encloses part.span)
      (ordered : ∀ group ∈ groups,
        group.Pairwise fun first second => first.span.stop ≤ second.span.start)
      (parts : ∀ group ∈ groups, ∀ part ∈ group, part.IsWellPlaced text) :
      IsWellPlaced text (.node span name groups)

def Ident.outline (ident : Ident) : Outline := .node ident.span (some ident.name) []

mutual

def Expr.outline : Expr → Outline
  | .literal _ span | .this span => .node span none []
  | .reference name span => .node span none [[name.outline]]
  | .access object member span => .node span none [[object.outline, member.outline]]
  | .unary _ operand span => .node span none [[operand.outline]]
  | .binary _ left right span => .node span none [[left.outline, right.outline]]
  | .call function arguments span =>
      .node span none [function.outline :: Argument.outlinesOfAll arguments]
  | .list items span => .node span none [Expr.outlineAll items]
  | .quantified collection _ condition span =>
      .node span none [[collection.outline, condition.outline]]

/-- An argument has no place of its own. -/
def Argument.outlines : Argument → List Outline
  | .positional value => [value.outline]
  | .named name value => [name.outline, value.outline]

def Expr.outlineAll : List Expr → List Outline
  | [] => []
  | item :: rest => item.outline :: Expr.outlineAll rest

def Argument.outlinesOfAll : List Argument → List Outline
  | [] => []
  | argument :: rest => argument.outlines ++ Argument.outlinesOfAll rest

end

theorem Expr.outlineAll_eq_map (items : List Expr) :
    Expr.outlineAll items = items.map Expr.outline := by
  induction items with
  | nil => rfl
  | cons item rest ih => rw [outlineAll, ih, List.map_cons]

theorem Argument.outlinesOfAll_eq_flatMap (arguments : List Argument) :
    Argument.outlinesOfAll arguments = arguments.flatMap Argument.outlines := by
  induction arguments with
  | nil => rfl
  | cons argument rest ih => rw [outlinesOfAll, ih, List.flatMap_cons]

/-- The name of a built-in type has no place of its own. -/
def TypeName.outlines : TypeName → List Outline
  | .named name => [name.outline]
  | _ => []

def TypeRef.outline (type : TypeRef) : Outline := .node type.span none [type.name.outlines]

def Attribute.outline (applied : Attribute) : Outline :=
  .node applied.span none [applied.name.outline :: applied.arguments.flatMap Argument.outlines]

def ConfigEntry.outline (entry : ConfigEntry) : Outline :=
  .node entry.span none [[entry.name.outline, entry.value.outline]]

def ConfigBlock.outline (block : ConfigBlock) : Outline :=
  .node block.span none [block.name.outline :: block.entries.map ConfigEntry.outline]

def EnumMember.outline (enumMember : EnumMember) : Outline :=
  .node enumMember.span none
    [enumMember.name.outline :: enumMember.attributes.map Attribute.outline]

/-- Attributes of the whole may stand between the members. -/
def EnumDecl.outline (decl : EnumDecl) : Outline :=
  .node decl.span none
    [decl.name.outline :: decl.members.map EnumMember.outline,
      decl.name.outline :: decl.attributes.map Attribute.outline]

def Field.outline (field : Field) : Outline :=
  .node field.span none
    [field.name.outline :: field.type.outline :: field.attributes.map Attribute.outline]

def Model.outline (model : Model) : Outline :=
  .node model.span none
    [model.name.outline :: model.bases.map Ident.outline ++ model.fields.map Field.outline,
      model.name.outline :: model.bases.map Ident.outline ++
        model.attributes.map Attribute.outline]

def FunctionParam.outlines (param : FunctionParam) : List Outline :=
  [param.name.outline, param.type.outline]

def FunctionDecl.outline (decl : FunctionDecl) : Outline :=
  .node decl.span none
    [decl.name.outline :: decl.params.flatMap FunctionParam.outlines ++
      decl.result.outline :: decl.body.toList.map Expr.outline]

def AttributeParam.outlines (param : AttributeParam) : List Outline :=
  [param.name.outline, param.type.outline]

def AttributeDecl.outline (decl : AttributeDecl) : Outline :=
  .node decl.span none
    [decl.name.outline :: decl.params.flatMap AttributeParam.outlines ++
      decl.restrictions.map Attribute.outline]

def Declaration.outline : Declaration → Outline
  | .dataSource block | .plugin block => block.outline
  | .enum decl => decl.outline
  | .model decl => decl.outline
  | .function decl => decl.outline
  | .attr decl => decl.outline

def Document.outlines (document : Document) : List Outline :=
  document.declarations.map Declaration.outline

namespace Outline

variable {text : String} {span : Span} {low high : Nat}

theorem IsWellPlaced.within {outline : Outline} (placed : outline.IsWellPlaced text) :
    outline.span.IsWithin text := by
  cases placed with
  | node within => exact within

/-- The outlines are well-placed, one behind the other from the first offset up to the second. -/
def IsRow (text : String) : Nat → List Outline → Nat → Prop
  | low, [], high => low ≤ high
  | low, first :: rest, high =>
      low ≤ first.span.start ∧ first.IsWellPlaced text ∧ IsRow text first.span.stop rest high

namespace IsRow

variable {outlines others : List Outline} {middle : Nat}

theorem single {outline : Outline} (placed : outline.IsWellPlaced text)
    (start : low ≤ outline.span.start) (stop : outline.span.stop ≤ high) :
    IsRow text low [outline] high :=
  ⟨start, placed, stop⟩

theorem widen {lower higher : Nat} (row : IsRow text low outlines high) (start : lower ≤ low)
    (stop : high ≤ higher) : IsRow text lower outlines higher := by
  induction outlines generalizing low lower with
  | nil => exact Nat.le_trans start (Nat.le_trans row stop)
  | cons first rest ih => exact ⟨Nat.le_trans start row.1, row.2.1, ih row.2.2 (Nat.le_refl _)⟩

theorem append (first : IsRow text low outlines middle) (second : IsRow text middle others high) :
    IsRow text low (outlines ++ others) high := by
  induction outlines generalizing low with
  | nil => exact second.widen first (Nat.le_refl _)
  | cons outline rest ih => exact ⟨first.1, first.2.1, ih first.2.2⟩

theorem le (row : IsRow text low outlines high) : low ≤ high := by
  induction outlines generalizing low with
  | nil => exact row
  | cons first rest ih =>
    exact Nat.le_trans row.1 (Nat.le_trans row.2.1.within.ordered (ih row.2.2))

theorem isWellPlaced (row : IsRow text low outlines high) :
    ∀ outline ∈ outlines, outline.IsWellPlaced text := by
  induction outlines generalizing low with
  | nil => exact nofun
  | cons first rest ih => exact List.forall_mem_cons.2 ⟨row.2.1, ih row.2.2⟩

theorem encloses (row : IsRow text low outlines high) :
    ∀ outline ∈ outlines, Span.Encloses ⟨low, high⟩ outline.span := by
  induction outlines generalizing low with
  | nil => exact nofun
  | cons first rest ih =>
    refine List.forall_mem_cons.2 ⟨⟨row.1, row.2.2.le⟩, fun outline found => ?_⟩
    have behind := ih row.2.2 outline found
    exact ⟨Nat.le_trans row.1 (Nat.le_trans row.2.1.within.ordered behind.start), behind.stop⟩

theorem pairwise (row : IsRow text low outlines high) :
    outlines.Pairwise fun first second => first.span.stop ≤ second.span.start := by
  induction outlines generalizing low with
  | nil => exact List.Pairwise.nil
  | cons first rest ih =>
    refine List.pairwise_cons.2 ⟨fun outline found => ?_, ih row.2.2⟩
    exact (row.2.2.encloses outline found).start

end IsRow

theorem IsWellPlaced.ofRows {name : Option String} {groups : List (List Outline)}
    (within : span.IsWithin text) (named : ∀ word ∈ name, span.Shows text word)
    (rows : ∀ group ∈ groups, IsRow text span.start group span.stop) :
    IsWellPlaced text (.node span name groups) :=
  .node within named (fun group found => (rows group found).encloses)
    (fun group found => (rows group found).pairwise)
    fun group found => (rows group found).isWellPlaced

theorem IsWellPlaced.widen {whole : Span} {groups : List (List Outline)}
    (placed : IsWellPlaced text (.node span none groups)) (within : whole.IsWithin text)
    (encloses : whole.Encloses span) : IsWellPlaced text (.node whole none groups) := by
  cases placed with
  | node _ _ enclosed ordered parts =>
    refine .node within nofun (fun group found part member => ?_) ordered parts
    have inner := enclosed group found part member
    exact ⟨Nat.le_trans encloses.start inner.start, Nat.le_trans inner.stop encloses.stop⟩

theorem IsRow.cover {left right : Outline} (row : IsRow text low [left, right] high) :
    IsRow text low [.node (left.span.cover right.span) none [[left, right]]] high := by
  obtain ⟨start, leftPlaced, between, rightPlaced, stop⟩ := row
  have leftOrdered := leftPlaced.within.ordered
  have rightOrdered := rightPlaced.within.ordered
  have covered : left.span.cover right.span = ⟨left.span.start, right.span.stop⟩ := by
    rw [Span.cover, Nat.min_eq_left (Nat.le_trans leftOrdered between),
      Nat.max_eq_right (Nat.le_trans between rightOrdered)]
  have inner : IsRow text left.span.start [left, right] right.span.stop :=
    ⟨Nat.le_refl _, leftPlaced, between, rightPlaced, Nat.le_refl _⟩
  rw [covered]
  refine .single (.ofRows ⟨leftPlaced.within.start, rightPlaced.within.stop, inner.le⟩ nofun ?_)
    start stop
  exact List.forall_mem_singleton.2 inner

end Outline

theorem Expr.exists_outline (expr : Expr) : ∃ groups, expr.outline = .node expr.span none groups ∧
    ∀ span, (expr.withSpan span).outline = .node span none groups := by
  cases expr <;> exact ⟨_, rfl, fun _ => rfl⟩

theorem Expr.span_outline (expr : Expr) : expr.outline.span = expr.span := by
  cases expr <;> rfl

namespace Outline

inductive Has (place : Span) : Outline → Prop
  | whole {name : Option String} {groups : List (List Outline)} :
      Has place (.node place name groups)
  | part {span : Span} {name : Option String} {groups : List (List Outline)}
      {group : List Outline} {part : Outline} (grouped : group ∈ groups) (listed : part ∈ group)
      (inside : part.Has place) : Has place (.node span name groups)

def All (good : Span → Prop) (outline : Outline) : Prop := ∀ place, outline.Has place → good place

variable {good : Span → Prop}

@[simp] theorem all_node {span : Span} {name : Option String} {groups : List (List Outline)} :
    (Outline.node span name groups).All good ↔
      good span ∧ ∀ group ∈ groups, ∀ part ∈ group, part.All good := by
  constructor
  · exact fun all => ⟨all span .whole, fun group grouped part listed place inside =>
      all place (.part grouped listed inside)⟩
  · rintro ⟨whole, parts⟩ place (_ | ⟨grouped, listed, inside⟩)
    · exact whole
    · exact parts _ grouped _ listed place inside

theorem All.here {outline : Outline} (all : outline.All good) : good outline.span := by
  cases outline with
  | node => exact (all_node.1 all).1

theorem IsWellPlaced.all_isWithin {text : String} {outline : Outline}
    (placed : outline.IsWellPlaced text) : outline.All (Span.IsWithin text) := by
  induction placed with
  | node within _ _ _ _ ih => exact all_node.2 ⟨within, ih⟩

end Outline

section

variable {good : Span → Prop}

@[simp] theorem Ident.all_outline {ident : Ident} : ident.outline.All good ↔ good ident.span := by
  simp [outline]

theorem Expr.all_span {expr : Expr} (all : expr.outline.All good) : good expr.span :=
  expr.span_outline ▸ all.here

def Argument.All (good : Span → Prop) (argument : Argument) : Prop :=
  ∀ outline ∈ argument.outlines, outline.All good

@[simp] theorem Argument.all_positional {value : Expr} :
    (positional value).All good ↔ value.outline.All good := by
  simp [All, outlines]

@[simp] theorem Argument.all_named {name : Ident} {value : Expr} :
    (named name value).All good ↔ good name.span ∧ value.outline.All good := by
  simp [All, outlines]

theorem Argument.All.value {argument : Argument} (all : argument.All good) :
    argument.value.outline.All good := by
  cases argument with
  | positional value => exact all_positional.1 all
  | named name value => exact (all_named.1 all).2

theorem Argument.All.name {argument : Argument} {ident : Ident} (all : argument.All good)
    (named : argument.name? = some ident) : good ident.span := by
  cases argument with
  | positional value => cases named
  | named name value =>
    cases named
    exact (all_named.1 all).1

@[simp] theorem Expr.all_call {function : Ident} {arguments : List Argument} {span : Span} :
    (call function arguments span).outline.All good ↔
      good span ∧ good function.span ∧ ∀ argument ∈ arguments, argument.All good := by
  simp only [outline, Argument.outlinesOfAll_eq_flatMap, Outline.all_node,
    List.forall_mem_singleton, List.forall_mem_cons, List.forall_mem_flatMap, Ident.all_outline,
    Argument.All]

@[simp] theorem Expr.all_list {items : List Expr} {span : Span} :
    (list items span).outline.All good ↔ good span ∧ ∀ item ∈ items, item.outline.All good := by
  simp only [outline, outlineAll_eq_map, Outline.all_node, List.forall_mem_singleton,
    List.forall_mem_map]

end

end Schemata
