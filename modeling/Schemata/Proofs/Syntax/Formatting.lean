import Schemata.Format
import Schemata.Proofs.Places.Syntax
import Schemata.Proofs.Syntax.DocumentRoundTrip

set_option autoImplicit false

namespace Schemata

/-- Looking for comments goes through the text from code to code and finds none. -/
def IsBare (text : String) : Prop :=
  ∀ offset rest, ∃ next, commentOffsetsFrom .code offset (text.toList ++ rest) =
    commentOffsetsFrom .code next rest

def isOrdinary (char : Char) : Bool := char != '"' && char != '\'' && char != '/'

theorem commentOffsetsFrom_ordinary {char : Char} (ordinary : isOrdinary char = true)
    (offset : Nat) (rest : List Char) :
    commentOffsetsFrom .code offset (char :: rest) =
      commentOffsetsFrom .code (offset + char.utf8Size) rest := by
  simp only [isOrdinary, Bool.and_eq_true, bne_iff_ne] at ordinary
  simp [commentOffsetsFrom, ordinary]

theorem isOrdinary_of_isIdentPart {char : Char} (part : isIdentPart char = true) :
    isOrdinary char = true := by
  simp only [isOrdinary, Bool.and_eq_true, bne_iff_ne]
  refine ⟨⟨?_, ?_⟩, ?_⟩ <;> rintro rfl <;> revert part <;> decide

namespace IsBare

variable {first second text : String}

theorem commentOffsets_eq_nil (bare : IsBare text) : commentOffsets text = [] := by
  obtain ⟨next, same⟩ := bare 0 []
  rw [List.append_nil] at same
  rw [commentOffsets, same]
  rfl

theorem append (isFirst : IsBare first) (isSecond : IsBare second) : IsBare (first ++ second) := by
  intro offset rest
  obtain ⟨middle, toMiddle⟩ := isFirst offset (second.toList ++ rest)
  obtain ⟨next, toNext⟩ := isSecond middle rest
  refine ⟨next, ?_⟩
  rw [String.toList_append, List.append_assoc, toMiddle, toNext]

theorem ofChars (ordinary : ∀ char ∈ text.toList, isOrdinary char = true) : IsBare text := by
  intro offset rest
  generalize text.toList = chars at ordinary
  induction chars generalizing offset with
  | nil => exact ⟨offset, rfl⟩
  | cons char others ih =>
    obtain ⟨isOrdinary, behind⟩ := List.forall_mem_cons.1 ordinary
    obtain ⟨next, same⟩ := ih (offset + char.utf8Size) behind
    exact ⟨next, (commentOffsetsFrom_ordinary isOrdinary offset (others ++ rest)).trans same⟩

theorem ofAll (ordinary : text.toList.all isOrdinary = true) : IsBare text :=
  ofChars (List.all_eq_true.1 ordinary)

theorem nil : IsBare "" := ofAll rfl

theorem ofIf (condition : Bool) (bare : IsBare text) : IsBare (if condition then text else "") := by
  cases condition with
  | true => exact bare
  | false => exact nil

theorem parenthesized (enclosed : Bool) (bare : IsBare text) :
    IsBare (Schemata.parenthesized enclosed text) := by
  cases enclosed with
  | true => exact ((ofAll rfl : IsBare "(").append bare).append (ofAll rfl)
  | false => exact bare

theorem commaSeparated {texts : List String} (bare : ∀ text ∈ texts, IsBare text) :
    IsBare (Schemata.commaSeparated texts) := by
  induction texts with
  | nil => exact nil
  | cons first others ih =>
    obtain ⟨isFirst, behind⟩ := List.forall_mem_cons.1 bare
    cases others with
    | nil => exact isFirst
    | cons second others => exact (isFirst.append (ofAll rfl)).append (ih behind)

theorem join {texts : List String} (bare : ∀ text ∈ texts, IsBare text) :
    IsBare (String.join texts) := by
  intro offset rest
  induction texts generalizing offset with
  | nil => exact ⟨offset, rfl⟩
  | cons first others ih =>
    obtain ⟨isFirst, behind⟩ := List.forall_mem_cons.1 bare
    obtain ⟨middle, toMiddle⟩ := isFirst offset ((String.join others).toList ++ rest)
    obtain ⟨next, toNext⟩ := ih behind middle
    refine ⟨next, ?_⟩
    rw [← toNext, ← toMiddle]
    simp [String.join_cons]

theorem bodyLine (bare : IsBare text) : IsBare (Schemata.bodyLine text) :=
  ((ofAll rfl : IsBare "    ").append bare).append (ofAll rfl)

end IsBare

theorem IsName.isBare {name : String} (isName : IsName name) : IsBare name :=
  .ofChars fun char found => isOrdinary_of_isIdentPart (isName.parts char found)

theorem IsNumber.isBare {text : String} (isNumber : IsNumber text) : IsBare text := by
  have digit {char : Char} (isDigit : char.isDigit = true) : isOrdinary char = true :=
    isOrdinary_of_isIdentPart (Cursor.isIdentPart_of_isDigit isDigit)
  obtain ⟨whole, _, digits, same | ⟨fraction, _, behind, same⟩⟩ := isNumber
  · exact .ofChars fun char found => digit (digits char (same ▸ found))
  · refine .ofChars fun char found => ?_
    rw [same, List.mem_append, List.mem_cons] at found
    rcases found with found | rfl | found
    · exact digit (digits char found)
    · decide
    · exact digit (behind char found)

namespace Quoted

theorem commentOffsetsFrom_escape (char : Char) (offset : Nat) (rest : List Char) :
    ∃ next, commentOffsetsFrom (.quoted '"') offset (escape char ++ rest) =
      commentOffsetsFrom (.quoted '"') next rest := by
  unfold escape
  split
  case h_6 noQuote noBackslash _ _ _ =>
    refine ⟨offset + char.utf8Size, ?_⟩
    rw [List.singleton_append, commentOffsetsFrom, if_neg noBackslash, if_neg noQuote]
  all_goals exact ⟨_, rfl⟩

theorem isBare_quote (text : String) : IsBare (quote text) := by
  intro offset rest
  have inside (chars : List Char) : ∀ start, ∃ next,
      commentOffsetsFrom (.quoted '"') start (chars.flatMap escape ++ '"' :: rest) =
        commentOffsetsFrom .code next rest := by
    induction chars with
    | nil => exact fun start => ⟨start + Char.utf8Size '"', rfl⟩
    | cons char others ih =>
      intro start
      obtain ⟨middle, escaped⟩ :=
        commentOffsetsFrom_escape char start (others.flatMap escape ++ '"' :: rest)
      obtain ⟨next, closed⟩ := ih middle
      exact ⟨next, by rw [List.flatMap_cons, List.append_assoc, escaped, closed]⟩
  obtain ⟨next, closed⟩ := inside text.toList (offset + Char.utf8Size '"')
  refine ⟨next, ?_⟩
  rw [quote, String.toList_ofList, encode, List.cons_append, List.cons_append, List.append_assoc,
    ← closed]
  rfl

end Quoted

/-- The space behind a division keeps it from opening a comment. -/
theorem BinaryOp.isBare_symbol (op : BinaryOp) : IsBare (op.symbol ++ " ") := by
  cases op with
  | div => exact fun offset rest => ⟨offset + 2, rfl⟩
  | _ => exact .ofAll rfl

theorem Literal.isBare_print {value : Literal} (wellFormed : value.WellFormed) :
    IsBare value.print := by
  cases value with
  | string text => exact Quoted.isBare_quote text
  | number text => exact IsNumber.isBare wellFormed
  | boolean value => cases value <;> exact .ofAll rfl
  | null => exact .ofAll rfl

theorem Argument.isBare_print {argument : Argument} (wellFormed : argument.WellFormed)
    (bare : IsBare argument.value.print) : IsBare argument.print := by
  cases argument with
  | positional value => exact bare
  | named name value => exact (wellFormed.1.isBare.append (.ofAll rfl)).append bare

theorem Argument.isBare_printAll {arguments : List Argument}
    (wellFormed : ∀ argument ∈ arguments, argument.WellFormed)
    (bare : ∀ argument ∈ arguments, argument.value.WellFormed → IsBare argument.value.print) :
    IsBare (commaSeparated (arguments.map Argument.print)) := by
  refine .commaSeparated fun text printed => ?_
  obtain ⟨argument, found, rfl⟩ := List.mem_map.1 printed
  have here := wellFormed argument found
  exact isBare_print here (bare argument found here.value)

theorem Expr.isBare_printAt {expr : Expr} (wellFormed : expr.WellFormed) (binding : Nat) :
    IsBare (expr.printAt binding) := by
  induction expr using Expr.inductionOn generalizing binding with
  | literal value span => exact Literal.isBare_print wellFormed
  | this span => exact (.ofAll rfl : IsBare "this")
  | reference name span => exact IsName.isBare wellFormed.isName
  | access object name span ih =>
    exact ((ih wellFormed.1 8).append (.ofAll rfl)).append wellFormed.2.isBare
  | unary op operand span ih =>
    have sign : IsBare op.symbol.toString := by cases op <;> exact .ofAll rfl
    exact .parenthesized _ (sign.append (ih wellFormed 7))
  | binary op left right span first second =>
    have before := (first wellFormed.1 op.precedence).append (.ofAll rfl : IsBare " ")
    have whole := (before.append op.isBare_symbol).append (second wellFormed.2 (op.precedence + 1))
    rw [← String.append_assoc] at whole
    exact .parenthesized _ whole
  | call function arguments span ih =>
    have listed := Argument.isBare_printAll (Argument.allWellFormed_iff.1 wellFormed.2)
      fun argument found valid => ih argument found valid 0
    rw [printAt, Argument.printAll_eq_map]
    exact ((wellFormed.1.isName.isBare.append (.ofAll rfl)).append listed).append (.ofAll rfl)
  | list items span ih =>
    have valid := Expr.allWellFormed_iff.1 wellFormed
    rw [printAt, printAll_eq_map]
    refine (IsBare.append (.ofAll rfl) (.commaSeparated fun text printed => ?_)).append (.ofAll rfl)
    obtain ⟨item, found, rfl⟩ := List.mem_map.1 printed
    exact ih item found (valid item found) 0
  | quantified collection quantifier condition span ih body =>
    have sign : IsBare quantifier.symbol.toString := by cases quantifier <;> exact .ofAll rfl
    have before := ((ih wellFormed.1 8).append sign).append (.ofAll rfl : IsBare "[")
    exact (before.append (body wellFormed.2 0)).append (.ofAll rfl)

theorem isBare_signs {signs : String} (among : signs ∈ ["@@@", "@@", "@"]) : IsBare signs := by
  simp only [List.mem_cons, List.not_mem_nil, or_false] at among
  rcases among with rfl | rfl | rfl <;> exact .ofAll rfl

namespace Attribute

variable {signs : String} (among : signs ∈ ["@@@", "@@", "@"])

include among

theorem WellFormed.isBare_print {applied : Attribute} (wellFormed : applied.WellFormed signs) :
    IsBare applied.print := by
  obtain ⟨word, isName, named⟩ := wellFormed.name
  have name : IsBare applied.name.name := named ▸ (isBare_signs among).append isName.isBare
  have listed := Argument.isBare_printAll wellFormed.arguments
    fun argument _ valid => Expr.isBare_printAt valid 0
  unfold print
  cases applied.arguments.isEmpty with
  | true => exact name
  | false => exact ((name.append (.ofAll rfl)).append listed).append (.ofAll rfl)

theorem isBare_printTrailing {attributes : List Attribute}
    (wellFormed : ∀ applied ∈ attributes, applied.WellFormed signs) :
    IsBare (printTrailing attributes) := by
  refine .join fun text printed => ?_
  obtain ⟨applied, found, rfl⟩ := List.mem_map.1 printed
  exact IsBare.append (.ofAll rfl) ((wellFormed applied found).isBare_print among)

theorem isBare_printBody {attributes : List Attribute} (size : Nat)
    (wellFormed : ∀ applied ∈ attributes, applied.WellFormed signs) :
    IsBare (printBody size attributes) := by
  refine IsBare.append (.ofIf _ (.ofAll rfl)) (.join fun text printed => ?_)
  obtain ⟨applied, found, rfl⟩ := List.mem_map.1 printed
  exact ((wellFormed applied found).isBare_print among).bodyLine

end Attribute

theorem TypeRef.isBare_print {type : TypeRef} (wellFormed : type.name.WellFormed) :
    IsBare type.print := by
  rcases type with ⟨name, isList, isOptional, span⟩
  have bare : IsBare name.print := by
    cases name with
    | scalar kind => cases kind <;> exact .ofAll rfl
    | builtin kind => cases kind <;> exact .ofAll rfl
    | unsupported text =>
      exact (IsBare.append (.ofAll rfl) (Quoted.isBare_quote text)).append (.ofAll rfl)
    | named name => exact IsName.isBare wellFormed.isName
  exact (bare.append (.ofIf _ (.ofAll rfl))).append (.ofIf _ (.ofAll rfl))

theorem ConfigBlock.WellFormed.isBare_print {block : ConfigBlock} {keyword : String}
    (wellFormed : block.WellFormed) (bare : IsBare keyword) : IsBare (block.print keyword) := by
  have header := ((bare.append (.ofAll rfl : IsBare " ")).append wellFormed.name.isBare).append
    (.ofAll rfl : IsBare " \x7b\n")
  refine (header.append (.join fun text printed => ?_)).append (.ofAll rfl)
  obtain ⟨entry, found, rfl⟩ := List.mem_map.1 printed
  have here := wellFormed.entries entry found
  exact ((here.name.isBare.append (.ofAll rfl)).append (Expr.isBare_printAt here.value 0)).bodyLine

theorem EnumDecl.WellFormed.isBare_print {decl : EnumDecl} (wellFormed : decl.WellFormed) :
    IsBare decl.print := by
  have header := ((.ofAll rfl : IsBare "enum ").append wellFormed.name.isBare).append
    (.ofAll rfl : IsBare " \x7b\n")
  have members : IsBare (String.join (decl.members.map fun enumMember =>
      bodyLine (enumMember.name.name ++ Attribute.printTrailing enumMember.attributes))) := by
    refine .join fun text printed => ?_
    obtain ⟨enumMember, found, rfl⟩ := List.mem_map.1 printed
    have here := wellFormed.members enumMember found
    exact (here.name.isBare.append
      (Attribute.isBare_printTrailing (by decide) here.attributes)).bodyLine
  have attributes := Attribute.isBare_printBody (by decide) decl.members.length wellFormed.attributes
  exact ((header.append members).append attributes).append (.ofAll rfl)

theorem Model.WellFormed.isBare_print {model : Model} (wellFormed : model.WellFormed) :
    IsBare model.print := by
  have bases : IsBare (if model.bases.isEmpty then ""
      else " extends " ++ commaSeparated (model.bases.map Ident.name)) := by
    cases model.bases.isEmpty with
    | true => exact .nil
    | false =>
      refine IsBare.append (.ofAll rfl) (.commaSeparated fun text printed => ?_)
      obtain ⟨base, found, rfl⟩ := List.mem_map.1 printed
      exact (wellFormed.bases base found).isBare
  have fields : IsBare (String.join (model.fields.map fun field =>
      bodyLine (field.name.name ++ " " ++ field.type.print ++
        Attribute.printTrailing field.attributes))) := by
    refine .join fun text printed => ?_
    obtain ⟨field, found, rfl⟩ := List.mem_map.1 printed
    have here := wellFormed.fields field found
    have typed :=
      (here.name.isBare.append (.ofAll rfl : IsBare " ")).append (TypeRef.isBare_print here.type)
    exact (typed.append (Attribute.isBare_printTrailing (by decide) here.attributes)).bodyLine
  have attributes := Attribute.isBare_printBody (by decide) model.fields.length wellFormed.attributes
  have word := IsBare.append (.ofIf model.isAbstract (.ofAll rfl : IsBare "abstract "))
    (.ofAll rfl : IsBare "model ")
  have header := ((word.append wellFormed.name.isBare).append bases).append
    (.ofAll rfl : IsBare " \x7b\n")
  exact ((header.append fields).append attributes).append (.ofAll rfl)

theorem FunctionDecl.WellFormed.isBare_print {decl : FunctionDecl} (wellFormed : decl.WellFormed) :
    IsBare decl.print := by
  have params : IsBare (commaSeparated (decl.params.map FunctionParam.print)) := by
    refine .commaSeparated fun text printed => ?_
    obtain ⟨param, found, rfl⟩ := List.mem_map.1 printed
    have here := wellFormed.params param found
    exact (here.name.isBare.append (.ofAll rfl)).append (TypeRef.isBare_print here.type)
  have header := ((.ofAll rfl : IsBare "function ").append wellFormed.name.isBare).append
    (.ofAll rfl : IsBare "(")
  have signature := ((header.append params).append (.ofAll rfl : IsBare "): ")).append
    (TypeRef.isBare_print wellFormed.result)
  refine signature.append ?_
  cases body : decl.body with
  | none => exact (.ofAll rfl : IsBare " \x7b\x7d\n")
  | some expr =>
    have printed := (Expr.isBare_printAt (wellFormed.body expr body) 0).bodyLine
    exact (IsBare.append (.ofAll rfl) printed).append (.ofAll rfl)

theorem AttributeDecl.WellFormed.isBare_print {decl : AttributeDecl}
    (wellFormed : decl.WellFormed) : IsBare decl.print := by
  obtain ⟨signs, among, word, isName, named⟩ := wellFormed.name
  have name : IsBare decl.name.name := named ▸ (isBare_signs among).append isName.isBare
  have params : IsBare (commaSeparated (decl.params.map AttributeParam.print)) := by
    refine .commaSeparated fun text printed => ?_
    obtain ⟨param, found, rfl⟩ := List.mem_map.1 printed
    have here := wellFormed.params param found
    have marked := IsBare.append (.ofIf param.isPositional (.ofAll rfl : IsBare "_ "))
      here.name.isBare
    exact (marked.append (.ofAll rfl)).append (TypeRef.isBare_print here.type)
  have header := ((.ofAll rfl : IsBare "attribute ").append name).append (.ofAll rfl : IsBare "(")
  have closed := (header.append params).append (.ofAll rfl : IsBare ")")
  exact (closed.append (Attribute.isBare_printTrailing (by decide) wellFormed.restrictions)).append
    (.ofAll rfl)

theorem Declaration.isBare_print {declared : Declaration} (wellFormed : declared.WellFormed) :
    IsBare declared.print := by
  cases declared with
  | dataSource block => exact ConfigBlock.WellFormed.isBare_print wellFormed (.ofAll rfl)
  | plugin block => exact ConfigBlock.WellFormed.isBare_print wellFormed (.ofAll rfl)
  | enum decl => exact EnumDecl.WellFormed.isBare_print wellFormed
  | model decl => exact Model.WellFormed.isBare_print wellFormed
  | function decl => exact FunctionDecl.WellFormed.isBare_print wellFormed
  | attr decl => exact AttributeDecl.WellFormed.isBare_print wellFormed

theorem Document.WellFormed.isBare_print {document : Document} (wellFormed : document.WellFormed) :
    IsBare document.print := by
  rcases document with ⟨declarations⟩
  have each (declarations : List Declaration)
      (wellFormed : ∀ declared ∈ declarations, declared.WellFormed) :
      IsBare (Declaration.printAll declarations) := by
    induction declarations with
    | nil => exact .nil
    | cons first others ih =>
      obtain ⟨here, behind⟩ := List.forall_mem_cons.1 wellFormed
      cases others with
      | nil => exact Declaration.isBare_print here
      | cons second others =>
        exact ((Declaration.isBare_print here).append (.ofAll rfl)).append (ih behind)
  exact each declarations wellFormed

theorem format_eq_ok {text output : String} {stripComments : Bool}
    (formatted : format text stripComments = .ok output) :
    ∃ document, Document.read text = .ok document ∧ document.print = output := by
  unfold format at formatted
  split at formatted
  next => cases formatted
  next =>
    split at formatted
    next document read =>
      cases formatted
      exact ⟨document, read, rfl⟩
    next => cases formatted

theorem format_of_read {text : String} {document : Document} (bare : IsBare text)
    (read : Document.read text = .ok document) : format text false = .ok document.print := by
  simp [format, bare.commentOffsets_eq_nil, read]

/--
A formatted text holds no comments, reads back to the document that was formatted, and is its own
canonical form.
-/
theorem format_canonical {text output : String} {stripComments : Bool}
    (formatted : format text stripComments = .ok output) :
    commentOffsets output = [] ∧
      (∃ document again, Document.read text = .ok document ∧
        Document.read output = .ok again ∧ again.erase = document.erase) ∧
      format output false = .ok output := by
  obtain ⟨document, read, rfl⟩ := format_eq_ok formatted
  have bare := Document.WellFormed.isBare_print (Document.wellFormed_of_readWith read)
  obtain ⟨again, readAgain, same⟩ :=
    Document.readWith_print true (Document.wellFormed_of_readWith read)
  refine ⟨bare.commentOffsets_eq_nil, ⟨document, again, read, readAgain, same⟩, ?_⟩
  -- What is read again is printed alike, as it differs from the document in its places only.
  rw [format_of_read bare readAgain, ← again.print_erase, same, document.print_erase]

namespace Quotes

/-- A comment, a quoted text that looks like quotes and comments, and a division. -/
def text : String :=
  "model A\x7b/* gone */u String @default('\\'//*\\\\')@@b(4/2)\x7d"

def formatted : String :=
  "model A \x7b\n    u String @default(\"'//*\\\\\")\n\n    @@b(4 / 2)\n\x7d\n"

end Quotes

theorem Quotes.format_canonical_text :
    format text true = .ok formatted ∧ commentOffsets text ≠ [] ∧ commentOffsets formatted = [] ∧
      (∃ document again, Document.read text = .ok document ∧
        Document.read formatted = .ok again ∧ again.erase = document.erase) ∧
      format formatted false = .ok formatted := by
  have output : (format text true).toOption = some formatted := by decide +kernel
  have isFormatted := Except.toOption_eq_some.1 output
  exact ⟨isFormatted, by decide, format_canonical isFormatted⟩

end Schemata
