import KoreanLox.Proofs.Grammar.Linearisation
import KoreanLox.Proofs.Number.Text
import KoreanLox.Proofs.Tree.Form
import KoreanLox.Tree.Printer

/-!
# Trees told by their forms

The text of a tree is that of a form (`Expr.text_eq`, `Stmt.text_eq`). The form is legible if the
names, strings and numbers of the tree are such as stand in a text (`Stmt.legible_form`), and then
it tells the tree but for its places and labels (`Stmt.bare_eq_of_form`).
-/

namespace KoreanLox

section

variable {ι : Type}

/-! ## The forms of trees -/

/-- The form of a constant. -/
def Literal.form : Literal → Form
  | .nil => .word "nil"
  | .boolean value => .word (toString value)
  | .number value => .word (Number.plain value)
  | .string text => .quote text

mutual

/-- The form of an expression. -/
def Expr.form : Expr ι → Form
  | .literal value => value.form
  | .grouping inner => .list "group" [inner.form]
  | .unary operator _ operand => .list operator.text [operand.form]
  | .binary operator _ left right => .list operator.text [left.form, right.form]
  | .logical operator left right => .list operator.text [left.form, right.form]
  | .read reference => .word reference.target.name
  | .assign reference value => .list "=" [.word reference.target.name, value.form]
  | .call callee arguments _ => .list "call" (callee.form :: Expr.formAll arguments)
  | .get object property => .list "." [object.form, .word property.name]
  | .set object property value =>
    .list "=" [.list "." [object.form, .word property.name], value.form]
  | .receiver _ _ => .word "this"
  | .inherited _ method _ => .list "super" [.word method.name]

/-- The forms of some expressions. -/
def Expr.formAll : List (Expr ι) → List Form
  | [] => []
  | first :: rest => first.form :: Expr.formAll rest

end

mutual

/-- The form of a statement. -/
def Stmt.form : Stmt ι → Form
  | .expression value => .list ";" [value.form]
  | .print value => .list "print" [value.form]
  | .declare name none => .list "var" [.word name.name]
  | .declare name (some initial) => .list "var" [.word name.name, .word "=", initial.form]
  | .block body => .list "block" (Stmt.formAll body)
  | .choose condition thenBranch none => .list "if" [condition.form, thenBranch.form]
  | .choose condition thenBranch (some elseBranch) =>
    .list "if" [condition.form, thenBranch.form, elseBranch.form]
  | .loop condition body => .list "while" [condition.form, body.form]
  | .function declaration => .list "fun" (Stmt.functionForms declaration)
  | .finish _ none => .list "return" []
  | .finish _ (some value) => .list "return" [value.form]
  | .classDeclaration name none methods =>
    .list "class" (.word name.name :: Stmt.methodForms methods)
  | .classDeclaration name (some parent) methods =>
    .list "class"
      (.word name.name :: .word "<" :: .word parent.target.name :: Stmt.methodForms methods)

/-- The forms of some statements. -/
def Stmt.formAll : List (Stmt ι) → List Form
  | [] => []
  | first :: rest => first.form :: Stmt.formAll rest

/-- The forms of a function: its name with its parameters, and its body. -/
def Stmt.functionForms : FunctionDecl ι → List Form
  | ⟨name, parameters, body⟩ =>
    [.header name.name (parameters.map Identifier.name), .list "block" (Stmt.formAll body)]

/-- The forms of some methods. -/
def Stmt.methodForms : List (FunctionDecl ι) → List Form
  | [] => []
  | first :: rest => Stmt.functionForms first ++ Stmt.methodForms rest

end

/-! ## Texts are those of forms -/

/-- The texts of some forms and of others after them stand one after the other. -/
theorem Form.textAll_append (forms others : List Form) :
    Form.textAll (forms ++ others) = Form.textAll forms ++ Form.textAll others := by
  induction forms with
  | nil => rfl
  | cons first rest ih => simp [textAll, ih]

/-- Words with a space between every two of them. -/
theorem toList_intercalate_space (words : List String) :
    (" ".intercalate words).toList = spaced words := by
  induction words using spaced.induct with
  | case1 => rfl
  | case2 first => simp [spaced]
  | case3 first second rest ih =>
    rw [String.toList_intercalate] at ih ⊢
    rw [List.map_cons, List.map_cons, List.intercalate_cons_cons, spaced, ← ih]
    simp

/-- The text of a constant is that of its form. -/
theorem Literal.text_eq (value : Literal) : value.text.toList = value.form.text := by
  cases value with
  | string text => simp [Literal.text, Literal.form, Form.text]
  | _ => rfl

mutual

/-- The text of an expression is that of its form. -/
theorem Expr.text_eq : ∀ expression : Expr ι, expression.text.toList = expression.form.text
  | .literal value => value.text_eq
  | .grouping inner => by
    simp [Expr.text, Expr.form, Form.text, Form.textAll, inner.text_eq]
  | .unary operator _ operand => by
    simp [Expr.text, Expr.form, Form.text, Form.textAll, operand.text_eq]
  | .binary operator _ left right => by
    simp [Expr.text, Expr.form, Form.text, Form.textAll, left.text_eq, right.text_eq]
  | .logical operator left right => by
    simp [Expr.text, Expr.form, Form.text, Form.textAll, left.text_eq, right.text_eq]
  | .read reference => rfl
  | .assign reference value => by
    simp [Expr.text, Expr.form, Form.text, Form.textAll, value.text_eq]
  | .call callee arguments _ => by
    simp [Expr.text, Expr.form, Form.text, Form.textAll, callee.text_eq,
      Expr.textAll_eq arguments]
  | .get object property => by
    simp [Expr.text, Expr.form, Form.text, Form.textAll, object.text_eq]
  | .set object property value => by
    simp [Expr.text, Expr.form, Form.text, Form.textAll, object.text_eq, value.text_eq]
  | .receiver _ _ => rfl
  | .inherited _ method _ => by simp [Expr.text, Expr.form, Form.text, Form.textAll]

/-- The texts of some expressions are those of their forms. -/
theorem Expr.textAll_eq : ∀ expressions : List (Expr ι),
    (Expr.textAll expressions).toList = Form.textAll (Expr.formAll expressions)
  | [] => rfl
  | first :: rest => by
    simp [Expr.textAll, Expr.formAll, Form.textAll, first.text_eq, Expr.textAll_eq rest]

end

mutual

/-- The text of a statement is that of its form. -/
theorem Stmt.text_eq : ∀ statement : Stmt ι, statement.text.toList = statement.form.text
  | .expression value => by
    simp [Stmt.text, Stmt.form, Form.text, Form.textAll, value.text_eq]
  | .print value => by simp [Stmt.text, Stmt.form, Form.text, Form.textAll, value.text_eq]
  | .declare name none => by simp [Stmt.text, Stmt.form, Form.text, Form.textAll]
  | .declare name (some initial) => by
    simp [Stmt.text, Stmt.form, Form.text, Form.textAll, initial.text_eq]
  | .block body => by simp [Stmt.text, Stmt.form, Form.text, Stmt.textAll_eq body]
  | .choose condition thenBranch none => by
    simp [Stmt.text, Stmt.form, Form.text, Form.textAll, condition.text_eq, thenBranch.text_eq]
  | .choose condition thenBranch (some elseBranch) => by
    simp [Stmt.text, Stmt.form, Form.text, Form.textAll, condition.text_eq, thenBranch.text_eq,
      elseBranch.text_eq]
  | .loop condition body => by
    simp [Stmt.text, Stmt.form, Form.text, Form.textAll, condition.text_eq, body.text_eq]
  | .function declaration => by
    simp [Stmt.text, Stmt.form, Form.text, ← Stmt.functionText_eq declaration]
  | .finish _ none => by simp [Stmt.text, Stmt.form, Form.text, Form.textAll]
  | .finish _ (some value) => by
    simp [Stmt.text, Stmt.form, Form.text, Form.textAll, value.text_eq]
  | .classDeclaration name none methods => by
    simp [Stmt.text, Stmt.form, Form.text, Form.textAll, Stmt.methodsText_eq methods]
  | .classDeclaration name (some parent) methods => by
    simp [Stmt.text, Stmt.form, Form.text, Form.textAll, Stmt.methodsText_eq methods]

/-- The texts of some statements are those of their forms. -/
theorem Stmt.textAll_eq : ∀ statements : List (Stmt ι),
    (Stmt.textAll statements).toList = Form.textAll (Stmt.formAll statements)
  | [] => rfl
  | first :: rest => by
    simp [Stmt.textAll, Stmt.formAll, Form.textAll, first.text_eq, Stmt.textAll_eq rest]

/-- The text of a function, after a space, is that of its forms. -/
theorem Stmt.functionText_eq : ∀ declaration : FunctionDecl ι,
    ' ' :: (Stmt.functionText declaration).toList = Form.textAll (Stmt.functionForms declaration)
  | ⟨name, parameters, body⟩ => by
    have words := toList_intercalate_space (parameters.map Identifier.name)
    simp [Stmt.functionText, Stmt.functionForms, Form.text, Form.textAll, Stmt.textAll_eq body,
      ← words]

/-- The texts of some methods are those of their forms. -/
theorem Stmt.methodsText_eq : ∀ methods : List (FunctionDecl ι),
    (Stmt.methodsText methods).toList = Form.textAll (Stmt.methodForms methods)
  | [] => rfl
  | first :: rest => by
    simp [Stmt.methodsText, Stmt.methodForms, Form.textAll_append,
      ← Stmt.functionText_eq first, Stmt.methodsText_eq rest]

end

/-- The text of a program is that of the lines of its forms. -/
theorem Program.text_eq (program : Program ι) :
    program.text.toList = Form.lines (Stmt.formAll program) := by
  induction program with
  | nil => rfl
  | cons first rest ih =>
    have split : Program.text (first :: rest) = first.text ++ "\n" ++ Program.text rest := by
      simp [Program.text]
    rw [split, Stmt.formAll, Form.lines, String.toList_append, String.toList_append, ih,
      first.text_eq]
    simp

/-! ## Trees that can be read -/

/-- A kind of token is such as stands in a text: names are words, strings have no quote inside, and
numbers are finite. -/
def Kind.Legible : Kind → Prop
  | .identifier name => Spells (.identifier name) name.toList
  | .string text => '"' ∉ text.toList
  | .number value => (Number.value? value).isSome = true
  | _ => True

/-- Name characters may stand in words. -/
theorem isWordCharacter_of_isNameCharacter {c : Char} (inner : isNameCharacter c) :
    isWordCharacter c := by
  by_contra other
  simp only [isWordCharacter, Bool.not_eq_true', Bool.not_eq_false, Bool.or_eq_true,
    beq_iff_eq] at other
  rcases other with (((rfl | rfl) | rfl) | rfl) | rfl <;> exact absurd inner (by decide)

/-- A name begins with a letter. -/
theorem Spells.exists_letter {name : String} {text : List Char}
    (spelled : Spells (.identifier name) text) :
    ∃ first rest, text = first :: rest ∧ isLetter first := by
  cases spelled with
  | @name first rest begins => exact ⟨first, rest, rfl, begins⟩

/-- Names are words. -/
theorem IsWord.of_legible {name : String} (legible : (Kind.identifier name).Legible) :
    IsWord name := by
  have spelled : Spells (.identifier name) name.toList := legible
  generalize same : name.toList = text at spelled
  cases spelled with
  | @name first rest begins goesOn _ =>
    have pure : ∀ c ∈ first :: rest, isWordCharacter c := by
      intro c mem
      apply isWordCharacter_of_isNameCharacter
      rcases List.mem_cons.mp mem with rfl | mem
      · simp [isNameCharacter, begins]
      · exact goesOn c mem
    exact ⟨by simp, by simpa using pure⟩

/-- The plain text of a finite number is a word. -/
theorem IsWord.plain {value : Float} (finite : (Number.value? value).isSome = true) :
    IsWord (Number.plain value) := by
  obtain ⟨first, rest, text, begins, goesOn⟩ := Number.exists_plain finite
  have digit {c : Char} (decimal : c.isDigit) : isWordCharacter c :=
    isWordCharacter_of_isNameCharacter (by simp [isNameCharacter, decimal])
  refine ⟨by simp [text], ?_⟩
  rw [text, List.forall_mem_cons]
  constructor
  · rcases begins with decimal | rfl
    · exact digit decimal
    · decide
  · intro c mem
    rcases goesOn c mem with decimal | rfl
    · exact digit decimal
    · decide

/-- The form of a constant that can be read is legible. -/
theorem Literal.legible_form {value : Literal} (legible : value.kind.Legible) :
    value.form.Legible := by
  cases value with
  | nil => exact ⟨by decide, List.all_eq_true.mp (by decide)⟩
  | boolean value => cases value <;> exact ⟨by decide, List.all_eq_true.mp (by decide)⟩
  | number value => exact IsWord.plain legible
  | string text => exact legible

/-- The kinds of the first of some arguments and of the others are among those of all. -/
theorem Expr.mem_kindsAll_cons {first : Expr ι} {rest : List (Expr ι)} {kind : Kind}
    (listed : kind ∈ first.kinds ∨ kind ∈ Expr.kindsAll rest) :
    kind ∈ Expr.kindsAll (first :: rest) := by
  cases rest with
  | nil => simpa [kindsAll] using listed
  | cons second rest =>
    rw [kindsAll, List.mem_append, List.mem_cons]
    rcases listed with listed | listed
    · exact .inl listed
    · exact .inr (.inr listed)

/-- The names of parameters are among the kinds of tokens that they are written as. -/
theorem Identifier.mem_kindsAll {names : List Identifier} {name : Identifier}
    (listed : name ∈ names) : .identifier name.name ∈ Identifier.kindsAll names := by
  induction names using Identifier.kindsAll.induct with
  | case1 => simp at listed
  | case2 first => simp_all [kindsAll]
  | case3 first second rest ih =>
    rw [kindsAll, List.mem_cons, List.mem_cons]
    rcases List.mem_cons.mp listed with rfl | listed
    · exact .inl rfl
    · exact .inr (.inr (ih listed))

/-- The operators are words. -/
theorem UnaryOperator.isWord_text (operator : UnaryOperator) : IsWord operator.text := by
  cases operator <;> exact ⟨by decide, List.all_eq_true.mp (by decide)⟩

/-- The operators are words. -/
theorem BinaryOperator.isWord_text (operator : BinaryOperator) : IsWord operator.text := by
  cases operator <;> exact ⟨by decide, List.all_eq_true.mp (by decide)⟩

/-- The operators are words. -/
theorem LogicalOperator.isWord_text (operator : LogicalOperator) : IsWord operator.text := by
  cases operator <;> exact ⟨by decide, List.all_eq_true.mp (by decide)⟩

mutual

/-- The form of an expression that can be read is legible. -/
theorem Expr.legible_form : ∀ expression : Expr ι,
    (∀ kind ∈ expression.kinds, kind.Legible) → expression.form.Legible
  | .literal value, legible => Literal.legible_form (legible _ (by simp [kinds]))
  | .grouping inner, legible => by
    have first := inner.legible_form fun kind mem => legible kind (by simp [kinds, mem])
    exact ⟨List.all_eq_true.mp (by decide), first, trivial⟩
  | .unary operator _ operand, legible => by
    have first := operand.legible_form fun kind mem => legible kind (by simp [kinds, mem])
    exact ⟨operator.isWord_text.pure, first, trivial⟩
  | .binary operator _ left right, legible => by
    have first := left.legible_form fun kind mem => legible kind (by simp [kinds, mem])
    have second := right.legible_form fun kind mem => legible kind (by simp [kinds, mem])
    exact ⟨operator.isWord_text.pure, first, second, trivial⟩
  | .logical operator left right, legible => by
    have first := left.legible_form fun kind mem => legible kind (by simp [kinds, mem])
    have second := right.legible_form fun kind mem => legible kind (by simp [kinds, mem])
    exact ⟨operator.isWord_text.pure, first, second, trivial⟩
  | .read reference, legible => IsWord.of_legible (legible _ (by simp [kinds]))
  | .assign reference value, legible => by
    have name : IsWord reference.target.name := .of_legible (legible _ (by simp [kinds]))
    have second := value.legible_form fun kind mem => legible kind (by simp [kinds, mem])
    exact ⟨List.all_eq_true.mp (by decide), name, second, trivial⟩
  | .call callee arguments _, legible => by
    have first := callee.legible_form fun kind mem => legible kind (by simp [kinds, mem])
    have rest := Expr.legible_formAll arguments fun kind mem => legible kind (by simp [kinds, mem])
    exact ⟨List.all_eq_true.mp (by decide), first, rest⟩
  | .get object property, legible => by
    have first := object.legible_form fun kind mem => legible kind (by simp [kinds, mem])
    have name : IsWord property.name := .of_legible (legible _ (by simp [kinds]))
    exact ⟨List.all_eq_true.mp (by decide), first, name, trivial⟩
  | .set object property value, legible => by
    have first := object.legible_form fun kind mem => legible kind (by simp [kinds, mem])
    have name : IsWord property.name := .of_legible (legible _ (by simp [kinds]))
    have second := value.legible_form fun kind mem => legible kind (by simp [kinds, mem])
    exact ⟨List.all_eq_true.mp (by decide),
      ⟨List.all_eq_true.mp (by decide), first, name, trivial⟩, second, trivial⟩
  | .receiver _ _, _ => ⟨by decide, List.all_eq_true.mp (by decide)⟩
  | .inherited _ method _, legible => by
    have name : IsWord method.name := .of_legible (legible _ (by simp [kinds]))
    exact ⟨List.all_eq_true.mp (by decide), name, trivial⟩

/-- The forms of expressions that can be read are legible. -/
theorem Expr.legible_formAll : ∀ expressions : List (Expr ι),
    (∀ kind ∈ Expr.kindsAll expressions, kind.Legible) →
      Form.LegibleAll (Expr.formAll expressions)
  | [], _ => trivial
  | first :: rest, legible =>
    ⟨first.legible_form fun kind mem => legible kind (mem_kindsAll_cons (.inl mem)),
      Expr.legible_formAll rest fun kind mem => legible kind (mem_kindsAll_cons (.inr mem))⟩

end

/-- Forms and others after them are legible if all of them are. -/
theorem Form.LegibleAll.append {forms others : List Form} (legible : Form.LegibleAll forms)
    (legible' : Form.LegibleAll others) : Form.LegibleAll (forms ++ others) := by
  rw [legibleAll_iff] at *
  intro form mem
  rcases List.mem_append.mp mem with mem | mem
  · exact legible form mem
  · exact legible' form mem

mutual

/-- The form of a statement that can be read is legible. -/
theorem Stmt.legible_form : ∀ statement : Stmt ι,
    (∀ kind ∈ statement.kinds, kind.Legible) → statement.form.Legible
  | .expression value, legible => by
    have first := value.legible_form fun kind mem => legible kind (by simp [kinds, mem])
    exact ⟨List.all_eq_true.mp (by decide), first, trivial⟩
  | .print value, legible => by
    have first := value.legible_form fun kind mem => legible kind (by simp [kinds, mem])
    exact ⟨List.all_eq_true.mp (by decide), first, trivial⟩
  | .declare name none, legible => by
    have named : IsWord name.name := .of_legible (legible _ (by simp [kinds]))
    exact ⟨List.all_eq_true.mp (by decide), named, trivial⟩
  | .declare name (some initial), legible => by
    have named : IsWord name.name := .of_legible (legible _ (by simp [kinds]))
    have value := initial.legible_form fun kind mem => legible kind (by simp [kinds, mem])
    exact ⟨List.all_eq_true.mp (by decide), named,
      ⟨by decide, List.all_eq_true.mp (by decide)⟩, value, trivial⟩
  | .block body, legible =>
    ⟨List.all_eq_true.mp (by decide),
      Stmt.legible_formAll body fun kind mem => legible kind (by simp [kinds, mem])⟩
  | .choose condition thenBranch none, legible => by
    have first := condition.legible_form fun kind mem => legible kind (by simp [kinds, mem])
    have second := thenBranch.legible_form fun kind mem => legible kind (by simp [kinds, mem])
    exact ⟨List.all_eq_true.mp (by decide), first, second, trivial⟩
  | .choose condition thenBranch (some elseBranch), legible => by
    have first := condition.legible_form fun kind mem => legible kind (by simp [kinds, mem])
    have second := thenBranch.legible_form fun kind mem => legible kind (by simp [kinds, mem])
    have third := elseBranch.legible_form fun kind mem => legible kind (by simp [kinds, mem])
    exact ⟨List.all_eq_true.mp (by decide), first, second, third, trivial⟩
  | .loop condition body, legible => by
    have first := condition.legible_form fun kind mem => legible kind (by simp [kinds, mem])
    have second := body.legible_form fun kind mem => legible kind (by simp [kinds, mem])
    exact ⟨List.all_eq_true.mp (by decide), first, second, trivial⟩
  | .function declaration, legible =>
    ⟨List.all_eq_true.mp (by decide),
      Stmt.legible_functionForms declaration fun kind mem => legible kind (by simp [kinds, mem])⟩
  | .finish _ none, _ => ⟨List.all_eq_true.mp (by decide), trivial⟩
  | .finish _ (some value), legible => by
    have first := value.legible_form fun kind mem => legible kind (by simp [kinds, mem])
    exact ⟨List.all_eq_true.mp (by decide), first, trivial⟩
  | .classDeclaration name none methods, legible => by
    have named : IsWord name.name := .of_legible (legible _ (by simp [kinds]))
    have made := Stmt.legible_methodForms methods
      fun kind mem => legible kind (by simp [kinds, mem])
    exact ⟨List.all_eq_true.mp (by decide), named, made⟩
  | .classDeclaration name (some parent) methods, legible => by
    have named : IsWord name.name := .of_legible (legible _ (by simp [kinds]))
    have above : IsWord parent.target.name := .of_legible (legible _ (by simp [kinds]))
    have made := Stmt.legible_methodForms methods
      fun kind mem => legible kind (by simp [kinds, mem])
    exact ⟨List.all_eq_true.mp (by decide), named,
      ⟨by decide, List.all_eq_true.mp (by decide)⟩, above, made⟩

/-- The forms of statements that can be read are legible. -/
theorem Stmt.legible_formAll : ∀ statements : List (Stmt ι),
    (∀ kind ∈ Stmt.kindsAll statements, kind.Legible) →
      Form.LegibleAll (Stmt.formAll statements)
  | [], _ => trivial
  | first :: rest, legible =>
    ⟨first.legible_form fun kind mem => legible kind (by simp [kindsAll, mem]),
      Stmt.legible_formAll rest fun kind mem => legible kind (by simp [kindsAll, mem])⟩

/-- The forms of a function that can be read are legible. -/
theorem Stmt.legible_functionForms : ∀ declaration : FunctionDecl ι,
    (∀ kind ∈ Stmt.functionKinds declaration, kind.Legible) →
      Form.LegibleAll (Stmt.functionForms declaration)
  | ⟨name, parameters, body⟩, legible => by
    have named : IsWord name.name := .of_legible (legible _ (by simp [functionKinds]))
    have given : ∀ parameter ∈ parameters.map Identifier.name, IsWord parameter := by
      intro parameter mem
      obtain ⟨identifier, listed, rfl⟩ := List.mem_map.mp mem
      exact .of_legible (legible _ (by simp [functionKinds, Identifier.mem_kindsAll listed]))
    have inside := Stmt.legible_formAll body
      fun kind mem => legible kind (by simp [functionKinds, mem])
    exact ⟨⟨named, given⟩, ⟨List.all_eq_true.mp (by decide), inside⟩, trivial⟩

/-- The forms of methods that can be read are legible. -/
theorem Stmt.legible_methodForms : ∀ methods : List (FunctionDecl ι),
    (∀ kind ∈ Stmt.methodKinds methods, kind.Legible) →
      Form.LegibleAll (Stmt.methodForms methods)
  | [], _ => trivial
  | first :: rest, legible => by
    have made := Stmt.legible_functionForms first
      fun kind mem => legible kind (by simp [methodKinds, mem])
    have others := Stmt.legible_methodForms rest
      fun kind mem => legible kind (by simp [methodKinds, mem])
    exact made.append others

end

/-! ## Forms determine trees -/

/-- The operators are told by their texts. -/
theorem UnaryOperator.text_injective {first second : UnaryOperator}
    (same : first.text = second.text) : first = second := by
  cases first <;> cases second <;> first | rfl | exact absurd same (by decide)

/-- The operators are told by their texts. -/
theorem BinaryOperator.text_injective {first second : BinaryOperator}
    (same : first.text = second.text) : first = second := by
  cases first <;> cases second <;> first | rfl | exact absurd same (by decide)

/-- The operators are told by their texts. -/
theorem LogicalOperator.text_injective {first second : LogicalOperator}
    (same : first.text = second.text) : first = second := by
  cases first <;> cases second <;> first | rfl | exact absurd same (by decide)

/-- Identifiers of one name are the same but for their places. -/
theorem Identifier.bare_eq {first second : Identifier} (same : first.name = second.name) :
    first.bare = second.bare := by
  rw [bare, bare, same]

/-- References to one name are the same but for their places and labels. -/
theorem Reference.bare_eq {first second : Reference ι}
    (same : first.target.name = second.target.name) : first.bare = second.bare := by
  rw [bare, bare, Identifier.bare_eq same]

/-- The expression that a word of a kind stands for alone. -/
def Kind.atom? : Kind → Option RawExpr
  | .keyword .nilWord => some (.literal .nil)
  | .keyword .trueWord => some (.literal (.boolean true))
  | .keyword .falseWord => some (.literal (.boolean false))
  | .keyword .thisWord => some (.receiver .nowhere ())
  | .identifier name => some (.read ⟨⟨name, .nowhere⟩, ()⟩)
  | _ => none

/-- An expression whose form is a word is a finite number, or it is told by the kind of the word,
which begins with a letter. -/
theorem Expr.word_cases {expression : Expr ι} {text : String} (shown : expression.form = .word text)
    (legible : ∀ kind ∈ expression.kinds, kind.Legible) :
    (∃ value, expression.bare = .literal (.number value) ∧ text = Number.plain value ∧
        (Number.value? value).isSome = true) ∨
      ∃ kind, kind.atom? = some expression.bare ∧ Spells kind text.toList ∧
        ∃ first rest, text.toList = first :: rest ∧ isLetter first := by
  have reserved (word : Keyword) : Spells (.keyword word) word.english.toList ∧
      ∃ first rest, word.english.toList = first :: rest ∧ isLetter first := by
    obtain ⟨-, first, rest, text, begins, -⟩ := Keyword.ofText?_spelling word (.inl rfl)
    exact ⟨.keyword (.inl rfl), first, rest, text, begins⟩
  cases expression with
  | literal value =>
    cases value with
    | nil =>
      obtain rfl := Form.word.inj shown
      exact .inr ⟨.keyword .nilWord, rfl, reserved .nilWord⟩
    | boolean value =>
      obtain rfl := Form.word.inj shown
      cases value
      · exact .inr ⟨.keyword .falseWord, rfl, reserved .falseWord⟩
      · exact .inr ⟨.keyword .trueWord, rfl, reserved .trueWord⟩
    | number value =>
      exact .inl ⟨value, rfl, (Form.word.inj shown).symm,
        legible (.number value) (by simp [kinds, Literal.kind])⟩
    | string value => simp [form, Literal.form] at shown
  | read reference =>
    obtain rfl := Form.word.inj shown
    have spelled : Spells (.identifier reference.target.name) reference.target.name.toList :=
      legible (.identifier reference.target.name) (by simp [kinds])
    exact .inr ⟨_, rfl, spelled, spelled.exists_letter⟩
  | receiver _ _ =>
    obtain rfl := Form.word.inj shown
    exact .inr ⟨.keyword .thisWord, rfl, reserved .thisWord⟩
  | _ => simp [form] at shown

/-- Expressions whose forms are one word are the same. -/
theorem Expr.bare_eq_of_word {first second : Expr ι} {text : String}
    (shown : first.form = .word text) (shown' : second.form = .word text)
    (legible : ∀ kind ∈ first.kinds, kind.Legible)
    (legible' : ∀ kind ∈ second.kinds, kind.Legible) : first.bare = second.bare := by
  -- No text begins both with a letter and as a number does.
  have apart {value : Float} (finite : (Number.value? value).isSome = true) {c : Char}
      {rest : List Char} (written : text = Number.plain value)
      (characters : text.toList = c :: rest) (letter : isLetter c) : False := by
    obtain ⟨first, more, plain, begins, -⟩ := Number.exists_plain finite
    rw [written, plain] at characters
    obtain ⟨rfl, -⟩ := List.cons.inj characters
    rcases begins with digit | rfl
    · rw [isDigit_of_isLetter letter] at digit
      simp at digit
    · exact absurd letter (by decide)
  rcases word_cases shown legible with
    ⟨value, same, written, finite⟩ | ⟨kind, same, spelled, c, rest, characters, letter⟩
  · rcases word_cases shown' legible' with
      ⟨value', same', written', finite'⟩ | ⟨kind', -, -, c, rest, characters, letter⟩
    · rw [same, same', Number.plain_injective finite finite' (written.symm.trans written')]
    · exact (apart finite written characters letter).elim
  · rcases word_cases shown' legible' with
      ⟨value', -, written', finite'⟩ | ⟨kind', same', spelled', -⟩
    · exact (apart finite' written' characters letter).elim
    · rw [spelled.kind_unique spelled', same'] at same
      exact (Option.some.inj same).symm

mutual

/-- Expressions of one form that can be read are the same but for places and labels. -/
theorem Expr.bare_eq_of_form : ∀ first second : Expr ι,
    (∀ kind ∈ first.kinds, kind.Legible) → (∀ kind ∈ second.kinds, kind.Legible) →
      first.form = second.form → first.bare = second.bare
  | .literal value, second, legible, legible', same => by
    cases value with
    | string text =>
      cases second with
      | literal other => cases other <;> simp_all [form, Literal.form, bare]
      | _ => simp [form, Literal.form] at same
    | _ => exact bare_eq_of_word rfl same.symm legible legible'
  | .read reference, second, legible, legible', same =>
    bare_eq_of_word rfl same.symm legible legible'
  | .receiver _ _, second, legible, legible', same =>
    bare_eq_of_word rfl same.symm legible legible'
  | .grouping inner, second, legible, legible', same => by
    cases second with
    | grouping other =>
      have inner := inner.bare_eq_of_form other
        (fun kind mem => legible kind (by simp [kinds, mem]))
        (fun kind mem => legible' kind (by simp [kinds, mem])) (by simpa [form] using same)
      rw [bare, bare, inner]
    | literal other => cases other <;> simp [form, Literal.form] at same
    | unary operator => cases operator <;> simp [form, UnaryOperator.text] at same
    | binary operator => cases operator <;> simp [form] at same
    | logical operator => cases operator <;> simp [form] at same
    | _ => simp [form] at same
  | .unary operator _ operand, second, legible, legible', same => by
    cases second with
    | unary operator' _ other =>
      simp only [form, Form.list.injEq, List.cons.injEq, and_true] at same
      have inner := operand.bare_eq_of_form other
        (fun kind mem => legible kind (by simp [kinds, mem]))
        (fun kind mem => legible' kind (by simp [kinds, mem])) same.2
      rw [bare, bare, UnaryOperator.text_injective same.1, inner]
    | literal other => cases other <;> simp [form, Literal.form] at same
    | grouping => cases operator <;> simp [form, UnaryOperator.text] at same
    | inherited => cases operator <;> simp [form, UnaryOperator.text] at same
    | call => cases operator <;> simp [form, UnaryOperator.text] at same
    | _ => simp [form] at same
  | .binary operator _ left right, second, legible, legible', same => by
    cases second with
    | binary operator' _ left' right' =>
      simp only [form, Form.list.injEq, List.cons.injEq, and_true] at same
      have first := left.bare_eq_of_form left'
        (fun kind mem => legible kind (by simp [kinds, mem]))
        (fun kind mem => legible' kind (by simp [kinds, mem])) same.2.1
      have second := right.bare_eq_of_form right'
        (fun kind mem => legible kind (by simp [kinds, mem]))
        (fun kind mem => legible' kind (by simp [kinds, mem])) same.2.2
      rw [bare, bare, BinaryOperator.text_injective same.1, first, second]
    | literal other => cases other <;> simp [form, Literal.form] at same
    | logical operator' =>
      cases operator <;> cases operator' <;>
        simp [form, BinaryOperator.text, LogicalOperator.text] at same
    | _ => cases operator <;> simp [form, BinaryOperator.text] at same
  | .logical operator left right, second, legible, legible', same => by
    cases second with
    | logical operator' left' right' =>
      simp only [form, Form.list.injEq, List.cons.injEq, and_true] at same
      have first := left.bare_eq_of_form left'
        (fun kind mem => legible kind (by simp [kinds, mem]))
        (fun kind mem => legible' kind (by simp [kinds, mem])) same.2.1
      have second := right.bare_eq_of_form right'
        (fun kind mem => legible kind (by simp [kinds, mem]))
        (fun kind mem => legible' kind (by simp [kinds, mem])) same.2.2
      rw [bare, bare, LogicalOperator.text_injective same.1, first, second]
    | literal other => cases other <;> simp [form, Literal.form] at same
    | binary operator' =>
      cases operator <;> cases operator' <;>
        simp [form, BinaryOperator.text, LogicalOperator.text] at same
    | _ => cases operator <;> simp [form, LogicalOperator.text] at same
  | .assign reference value, second, legible, legible', same => by
    cases second with
    | assign reference' value' =>
      simp only [form, Form.list.injEq, List.cons.injEq, and_true, true_and,
        Form.word.injEq] at same
      have given := value.bare_eq_of_form value'
        (fun kind mem => legible kind (by simp [kinds, mem]))
        (fun kind mem => legible' kind (by simp [kinds, mem])) same.2
      rw [bare, bare, Reference.bare_eq same.1, given]
    | literal other => cases other <;> simp [form, Literal.form] at same
    | binary operator => cases operator <;> simp [form, BinaryOperator.text] at same
    | logical operator => cases operator <;> simp [form, LogicalOperator.text] at same
    | _ => simp [form] at same
  | .call callee arguments _, second, legible, legible', same => by
    cases second with
    | call callee' arguments' _ =>
      simp only [form, Form.list.injEq, List.cons.injEq, true_and] at same
      have called := callee.bare_eq_of_form callee'
        (fun kind mem => legible kind (by simp [kinds, mem]))
        (fun kind mem => legible' kind (by simp [kinds, mem])) same.1
      have given := Expr.bareAll_eq_of_formAll arguments arguments'
        (fun kind mem => legible kind (by simp [kinds, mem]))
        (fun kind mem => legible' kind (by simp [kinds, mem])) same.2
      rw [bare, bare, called, given]
    | literal other => cases other <;> simp [form, Literal.form] at same
    | unary operator => cases operator <;> simp [form, UnaryOperator.text] at same
    | binary operator => cases operator <;> simp [form, BinaryOperator.text] at same
    | logical operator => cases operator <;> simp [form, LogicalOperator.text] at same
    | _ => simp [form] at same
  | .get object property, second, legible, legible', same => by
    cases second with
    | get object' property' =>
      simp only [form, Form.list.injEq, List.cons.injEq, and_true, true_and,
        Form.word.injEq] at same
      have owner := object.bare_eq_of_form object'
        (fun kind mem => legible kind (by simp [kinds, mem]))
        (fun kind mem => legible' kind (by simp [kinds, mem])) same.1
      rw [bare, bare, owner, Identifier.bare_eq same.2]
    | literal other => cases other <;> simp [form, Literal.form] at same
    | binary operator => cases operator <;> simp [form, BinaryOperator.text] at same
    | logical operator => cases operator <;> simp [form, LogicalOperator.text] at same
    | _ => simp [form] at same
  | .set object property value, second, legible, legible', same => by
    cases second with
    | set object' property' value' =>
      simp only [form, Form.list.injEq, List.cons.injEq, and_true, true_and,
        Form.word.injEq] at same
      have owner := object.bare_eq_of_form object'
        (fun kind mem => legible kind (by simp [kinds, mem]))
        (fun kind mem => legible' kind (by simp [kinds, mem])) same.1.1
      have given := value.bare_eq_of_form value'
        (fun kind mem => legible kind (by simp [kinds, mem]))
        (fun kind mem => legible' kind (by simp [kinds, mem])) same.2
      rw [bare, bare, owner, Identifier.bare_eq same.1.2, given]
    | literal other => cases other <;> simp [form, Literal.form] at same
    | binary operator => cases operator <;> simp [form, BinaryOperator.text] at same
    | logical operator => cases operator <;> simp [form, LogicalOperator.text] at same
    | _ => simp [form] at same
  | .inherited _ method _, second, legible, legible', same => by
    cases second with
    | inherited _ method' _ =>
      simp only [form, Form.list.injEq, List.cons.injEq, and_true, true_and,
        Form.word.injEq] at same
      rw [bare, bare, Identifier.bare_eq same]
    | literal other => cases other <;> simp [form, Literal.form] at same
    | unary operator => cases operator <;> simp [form, UnaryOperator.text] at same
    | _ => simp [form] at same

/-- Expressions of the same forms that can be read are the same but for places and labels. -/
theorem Expr.bareAll_eq_of_formAll : ∀ expressions others : List (Expr ι),
    (∀ kind ∈ Expr.kindsAll expressions, kind.Legible) →
      (∀ kind ∈ Expr.kindsAll others, kind.Legible) →
        Expr.formAll expressions = Expr.formAll others →
          Expr.bareAll expressions = Expr.bareAll others
  | [], [], _, _, _ => rfl
  | [], _ :: _, _, _, same => by simp [formAll] at same
  | _ :: _, [], _, _, same => by simp [formAll] at same
  | first :: rest, second :: others, legible, legible', same => by
    rw [formAll, formAll, List.cons.injEq] at same
    have head := first.bare_eq_of_form second
      (fun kind mem => legible kind (mem_kindsAll_cons (.inl mem)))
      (fun kind mem => legible' kind (mem_kindsAll_cons (.inl mem))) same.1
    have tail := Expr.bareAll_eq_of_formAll rest others
      (fun kind mem => legible kind (mem_kindsAll_cons (.inr mem)))
      (fun kind mem => legible' kind (mem_kindsAll_cons (.inr mem))) same.2
    rw [bareAll, bareAll, head, tail]

end

/-- Parameters of the same names are the same but for their places. -/
theorem Identifier.map_bare_eq {first second : List Identifier}
    (same : first.map Identifier.name = second.map Identifier.name) :
    first.map Identifier.bare = second.map Identifier.bare := by
  have bare (names : List Identifier) : names.map Identifier.bare =
      (names.map Identifier.name).map fun name => ⟨name, .nowhere⟩ := by
    rw [List.map_map]
    rfl
  rw [bare, bare, same]

/-- The forms of methods do not begin with a word. -/
theorem Stmt.methodForms_ne_word (methods : List (FunctionDecl ι)) {text : String}
    {rest : List Form} : Stmt.methodForms methods ≠ .word text :: rest := by
  rcases methods with _ | ⟨⟨_, _, _⟩, _⟩ <;> simp [methodForms, functionForms]

/-- The statements by what they are and by which of their parts are present. -/
@[elab_as_elim]
theorem Stmt.formCases {motive : Stmt ι → Prop} (expression : ∀ value, motive (.expression value))
    (print : ∀ value, motive (.print value)) (declareNothing : ∀ name, motive (.declare name none))
    (declare : ∀ name initial, motive (.declare name (some initial)))
    (block : ∀ body, motive (.block body))
    (chooseOnly : ∀ condition branch, motive (.choose condition branch none))
    (choose : ∀ condition branch other, motive (.choose condition branch (some other)))
    (loop : ∀ condition body, motive (.loop condition body))
    (function : ∀ declaration, motive (.function declaration))
    (finishPlain : ∀ keyword, motive (.finish keyword none))
    (finish : ∀ keyword value, motive (.finish keyword (some value)))
    (classAlone : ∀ name methods, motive (.classDeclaration name none methods))
    (classDeclaration : ∀ name parent methods,
      motive (.classDeclaration name (some parent) methods)) : ∀ statement, motive statement
  | .expression value => expression value
  | .print value => print value
  | .declare name none => declareNothing name
  | .declare name (some initial) => declare name initial
  | .block body => block body
  | .choose condition branch none => chooseOnly condition branch
  | .choose condition branch (some other) => choose condition branch other
  | .loop condition body => loop condition body
  | .function declaration => function declaration
  | .finish keyword none => finishPlain keyword
  | .finish keyword (some value) => finish keyword value
  | .classDeclaration name none methods => classAlone name methods
  | .classDeclaration name (some parent) methods => classDeclaration name parent methods

mutual

/-- Statements of one form that can be read are the same but for places and labels. -/
theorem Stmt.bare_eq_of_form : ∀ first second : Stmt ι,
    (∀ kind ∈ first.kinds, kind.Legible) → (∀ kind ∈ second.kinds, kind.Legible) →
      first.form = second.form → first.bare = second.bare
  | .expression value, second, legible, legible', same => by
    cases second using Stmt.formCases with
    | expression value' =>
      simp only [form, Form.list.injEq, List.cons.injEq, and_true, true_and] at same
      have inner := value.bare_eq_of_form value'
        (fun kind mem => legible kind (by simp [kinds, mem]))
        (fun kind mem => legible' kind (by simp [kinds, mem])) same
      rw [bare, bare, inner]
    | _ => simp [form] at same
  | .print value, second, legible, legible', same => by
    cases second using Stmt.formCases with
    | print value' =>
      simp only [form, Form.list.injEq, List.cons.injEq, and_true, true_and] at same
      have inner := value.bare_eq_of_form value'
        (fun kind mem => legible kind (by simp [kinds, mem]))
        (fun kind mem => legible' kind (by simp [kinds, mem])) same
      rw [bare, bare, inner]
    | _ => simp [form] at same
  | .declare name none, second, _, _, same => by
    cases second using Stmt.formCases with
    | declareNothing name' =>
      simp only [form, Form.list.injEq, List.cons.injEq, and_true, true_and,
        Form.word.injEq] at same
      simp only [bare, Identifier.bare_eq same, Option.map_none]
    | _ => simp [form] at same
  | .declare name (some initial), second, legible, legible', same => by
    cases second using Stmt.formCases with
    | declare name' initial' =>
      simp only [form, Form.list.injEq, List.cons.injEq, and_true, true_and,
        Form.word.injEq] at same
      have inner := initial.bare_eq_of_form initial'
        (fun kind mem => legible kind (by simp [kinds, mem]))
        (fun kind mem => legible' kind (by simp [kinds, mem])) same.2
      rw [bare, bare, Identifier.bare_eq same.1, Option.map_some, Option.map_some, inner]
    | _ => simp [form] at same
  | .block body, second, legible, legible', same => by
    cases second using Stmt.formCases with
    | block body' =>
      simp only [form, Form.list.injEq, true_and] at same
      have inner := Stmt.bareAll_eq_of_formAll body body'
        (fun kind mem => legible kind (by simp [kinds, mem]))
        (fun kind mem => legible' kind (by simp [kinds, mem])) same
      rw [bare, bare, inner]
    | _ => simp [form] at same
  | .choose condition thenBranch none, second, legible, legible', same => by
    cases second using Stmt.formCases with
    | chooseOnly condition' thenBranch' =>
      simp only [form, Form.list.injEq, List.cons.injEq, and_true, true_and] at same
      have first := condition.bare_eq_of_form condition'
        (fun kind mem => legible kind (by simp [kinds, mem]))
        (fun kind mem => legible' kind (by simp [kinds, mem])) same.1
      have second := thenBranch.bare_eq_of_form thenBranch'
        (fun kind mem => legible kind (by simp [kinds, mem]))
        (fun kind mem => legible' kind (by simp [kinds, mem])) same.2
      rw [bare, bare, first, second]
    | _ => simp [form] at same
  | .choose condition thenBranch (some elseBranch), second, legible, legible', same => by
    cases second using Stmt.formCases with
    | choose condition' thenBranch' elseBranch' =>
      simp only [form, Form.list.injEq, List.cons.injEq, and_true, true_and] at same
      have first := condition.bare_eq_of_form condition'
        (fun kind mem => legible kind (by simp [kinds, mem]))
        (fun kind mem => legible' kind (by simp [kinds, mem])) same.1
      have second := thenBranch.bare_eq_of_form thenBranch'
        (fun kind mem => legible kind (by simp [kinds, mem]))
        (fun kind mem => legible' kind (by simp [kinds, mem])) same.2.1
      have third := elseBranch.bare_eq_of_form elseBranch'
        (fun kind mem => legible kind (by simp [kinds, mem]))
        (fun kind mem => legible' kind (by simp [kinds, mem])) same.2.2
      rw [bare, bare, first, second, third]
    | _ => simp [form] at same
  | .loop condition body, second, legible, legible', same => by
    cases second using Stmt.formCases with
    | loop condition' body' =>
      simp only [form, Form.list.injEq, List.cons.injEq, and_true, true_and] at same
      have first := condition.bare_eq_of_form condition'
        (fun kind mem => legible kind (by simp [kinds, mem]))
        (fun kind mem => legible' kind (by simp [kinds, mem])) same.1
      have second := body.bare_eq_of_form body'
        (fun kind mem => legible kind (by simp [kinds, mem]))
        (fun kind mem => legible' kind (by simp [kinds, mem])) same.2
      rw [bare, bare, first, second]
    | _ => simp [form] at same
  | .function declaration, second, legible, legible', same => by
    cases second using Stmt.formCases with
    | function declaration' =>
      simp only [form, Form.list.injEq, true_and] at same
      have inner := (Stmt.bareFunction_eq_of_forms declaration declaration' [] []
        (fun kind mem => legible kind (by simp [kinds, mem]))
        (fun kind mem => legible' kind (by simp [kinds, mem]))
        (by simpa using same)).1
      rw [bare, bare, inner]
    | _ => simp [form] at same
  | .finish _ none, second, _, _, same => by
    cases second using Stmt.formCases with
    | finishPlain _ => rfl
    | _ => simp [form] at same
  | .finish _ (some value), second, legible, legible', same => by
    cases second using Stmt.formCases with
    | finish _ value' =>
      simp only [form, Form.list.injEq, List.cons.injEq, and_true, true_and] at same
      have inner := value.bare_eq_of_form value'
        (fun kind mem => legible kind (by simp [kinds, mem]))
        (fun kind mem => legible' kind (by simp [kinds, mem])) same
      rw [bare, bare, Option.map_some, Option.map_some, inner]
    | _ => simp [form] at same
  | .classDeclaration name none methods, second, legible, legible', same => by
    cases second using Stmt.formCases with
    | classAlone name' methods' =>
      simp only [form, Form.list.injEq, List.cons.injEq, true_and, Form.word.injEq] at same
      have made := Stmt.bareMethods_eq_of_forms methods methods'
        (fun kind mem => legible kind (by simp [kinds, mem]))
        (fun kind mem => legible' kind (by simp [kinds, mem])) same.2
      simp only [bare, Identifier.bare_eq same.1, Option.map_none, made]
    | classDeclaration _ _ _ =>
      simp only [form, Form.list.injEq, List.cons.injEq, true_and] at same
      exact absurd same.2 (methodForms_ne_word methods)
    | _ => simp [form] at same
  | .classDeclaration name (some parent) methods, second, legible, legible', same => by
    cases second using Stmt.formCases with
    | classDeclaration name' parent' methods' =>
      simp only [form, Form.list.injEq, List.cons.injEq, true_and, Form.word.injEq] at same
      have made := Stmt.bareMethods_eq_of_forms methods methods'
        (fun kind mem => legible kind (by simp [kinds, mem]))
        (fun kind mem => legible' kind (by simp [kinds, mem])) same.2.2
      rw [bare, bare, Identifier.bare_eq same.1, Option.map_some, Option.map_some,
        Reference.bare_eq same.2.1, made]
    | classAlone _ methods' =>
      simp only [form, Form.list.injEq, List.cons.injEq, true_and] at same
      exact absurd same.2.symm (methodForms_ne_word methods')
    | _ => simp [form] at same

/-- Statements of the same forms that can be read are the same but for places and labels. -/
theorem Stmt.bareAll_eq_of_formAll : ∀ statements others : List (Stmt ι),
    (∀ kind ∈ Stmt.kindsAll statements, kind.Legible) →
      (∀ kind ∈ Stmt.kindsAll others, kind.Legible) →
        Stmt.formAll statements = Stmt.formAll others →
          Stmt.bareAll statements = Stmt.bareAll others
  | [], [], _, _, _ => rfl
  | [], _ :: _, _, _, same => by simp [formAll] at same
  | _ :: _, [], _, _, same => by simp [formAll] at same
  | first :: rest, second :: others, legible, legible', same => by
    rw [formAll, formAll, List.cons.injEq] at same
    have head := first.bare_eq_of_form second
      (fun kind mem => legible kind (by simp [kindsAll, mem]))
      (fun kind mem => legible' kind (by simp [kindsAll, mem])) same.1
    have tail := Stmt.bareAll_eq_of_formAll rest others
      (fun kind mem => legible kind (by simp [kindsAll, mem]))
      (fun kind mem => legible' kind (by simp [kindsAll, mem])) same.2
    rw [bareAll, bareAll, head, tail]

/-- Functions of the same forms that can be read are the same but for places and labels, whatever
forms come after theirs. -/
theorem Stmt.bareFunction_eq_of_forms : ∀ (declaration other : FunctionDecl ι)
    (rest others : List Form), (∀ kind ∈ Stmt.functionKinds declaration, kind.Legible) →
      (∀ kind ∈ Stmt.functionKinds other, kind.Legible) →
        Stmt.functionForms declaration ++ rest = Stmt.functionForms other ++ others →
          Stmt.bareFunction declaration = Stmt.bareFunction other ∧ rest = others
  | ⟨name, parameters, body⟩, ⟨name', parameters', body'⟩, rest, others, legible, legible',
      same => by
    simp only [functionForms, List.cons_append, List.nil_append, List.cons.injEq,
      Form.header.injEq, Form.list.injEq, true_and] at same
    obtain ⟨⟨named, given⟩, inside, after⟩ := same
    have inner := Stmt.bareAll_eq_of_formAll body body'
      (fun kind mem => legible kind (by simp [functionKinds, mem]))
      (fun kind mem => legible' kind (by simp [functionKinds, mem])) inside
    rw [bareFunction, bareFunction, Identifier.bare_eq named, Identifier.map_bare_eq given, inner]
    exact ⟨rfl, after⟩

/-- Methods of the same forms that can be read are the same but for places and labels. -/
theorem Stmt.bareMethods_eq_of_forms : ∀ methods others : List (FunctionDecl ι),
    (∀ kind ∈ Stmt.methodKinds methods, kind.Legible) →
      (∀ kind ∈ Stmt.methodKinds others, kind.Legible) →
        Stmt.methodForms methods = Stmt.methodForms others →
          Stmt.bareMethods methods = Stmt.bareMethods others
  | [], [], _, _, _ => rfl
  | [], ⟨_, _, _⟩ :: _, _, _, same => by simp [methodForms, functionForms] at same
  | ⟨_, _, _⟩ :: _, [], _, _, same => by simp [methodForms, functionForms] at same
  | first :: rest, second :: others, legible, legible', same => by
    rw [methodForms, methodForms] at same
    obtain ⟨head, after⟩ := Stmt.bareFunction_eq_of_forms first second _ _
      (fun kind mem => legible kind (by simp [methodKinds, mem]))
      (fun kind mem => legible' kind (by simp [methodKinds, mem])) same
    have tail := Stmt.bareMethods_eq_of_forms rest others
      (fun kind mem => legible kind (by simp [methodKinds, mem]))
      (fun kind mem => legible' kind (by simp [methodKinds, mem])) after
    rw [bareMethods, bareMethods, head, tail]

end

end

end KoreanLox
