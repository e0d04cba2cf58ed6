import KoreanLox.Proofs.Tree.Printing

/-!
# Trees told by their texts

The names, strings and numbers of a tree that is read come from its tokens
(`DerivesStmt.legible`), and those of a scanned text are such as stand in a text
(`Scan.legible_tokens`). So the text that a program is printed as tells the program but for its
places and labels (`Program.text_determines_tree`).
-/

namespace KoreanLox

/-! ## Names, strings and numbers come from the tokens -/

@[simp]
theorem Kind.legible_mark (symbol : Mark) : (Kind.mark symbol).Legible := trivial

@[simp]
theorem Kind.legible_keyword (word : Keyword) : (Kind.keyword word).Legible := trivial

/-- All tokens are such as stand in a text. -/
def LegibleTokens (tokens : List Token) : Prop := ∀ token ∈ tokens, token.kind.Legible

section

variable {used : List Token}

@[simp]
theorem legibleTokens_cons {token : Token} :
    LegibleTokens (token :: used) ↔ token.kind.Legible ∧ LegibleTokens used := by
  simp [LegibleTokens]

@[simp]
theorem legibleTokens_append {more : List Token} :
    LegibleTokens (used ++ more) ↔ LegibleTokens used ∧ LegibleTokens more := by
  simp [LegibleTokens, or_imp, forall_and]

/-- The pieces of tokens are such as stand in a text if all of them are. -/
theorem LegibleTokens.of_flatten {pieces : List (List Token)}
    (legible : LegibleTokens pieces.flatten) {piece : List Token} (listed : piece ∈ pieces) :
    LegibleTokens piece :=
  fun token mem => legible token (List.mem_flatten.mpr ⟨piece, listed, mem⟩)

/-- The names that tokens spell are such as stand in a text if the tokens are. -/
theorem Token.Spells.legible {token : Token} {name : Identifier} (named : token.Spells name)
    (legible : token.kind.Legible) : (Kind.identifier name.name).Legible := by
  rw [← named.1]
  exact legible

/-- A name that is derived is such as stands in a text. -/
theorem DerivesName.legible {name : Identifier} (derived : DerivesName used name)
    (legible : LegibleTokens used) : (Kind.identifier name.name).Legible := by
  cases derived with
  | name named => exact named.legible (legible _ List.mem_cons_self)

/-- Pieces between commas are such as stand in a text if all tokens are. -/
theorem LegibleTokens.of_separated {pieces : List (List Token)} (separated : Separated pieces used)
    (legible : LegibleTokens used) {piece : List Token} (listed : piece ∈ pieces) :
    LegibleTokens piece := by
  induction separated with
  | none => simp at listed
  | one piece =>
    rw [List.mem_singleton.mp listed]
    exact legible
  | more between others ih =>
    rw [legibleTokens_append, legibleTokens_cons] at legible
    rcases List.mem_cons.mp listed with rfl | listed
    · exact legible.1
    · exact ih legible.2.2 listed

/-- All kinds are such as stand in a text. -/
def LegibleKinds (kinds : List Kind) : Prop := ∀ kind ∈ kinds, kind.Legible

@[simp]
theorem legibleKinds_nil : LegibleKinds [] := by simp [LegibleKinds]

@[simp]
theorem legibleKinds_cons {kind : Kind} {kinds : List Kind} :
    LegibleKinds (kind :: kinds) ↔ kind.Legible ∧ LegibleKinds kinds := by
  simp [LegibleKinds]

@[simp]
theorem legibleKinds_append {kinds more : List Kind} :
    LegibleKinds (kinds ++ more) ↔ LegibleKinds kinds ∧ LegibleKinds more := by
  simp [LegibleKinds, or_imp, forall_and]

/-- Arguments are written as legible kinds if each is. -/
theorem Expr.legible_kindsAll {values : List RawExpr}
    (all : ∀ value ∈ values, LegibleKinds value.kinds) : LegibleKinds (Expr.kindsAll values) := by
  induction values with
  | nil => simp [kindsAll]
  | cons first rest ih =>
    rw [List.forall_mem_cons] at all
    cases rest with
    | nil => simpa [kindsAll] using all.1
    | cons second rest => simpa [kindsAll] using ⟨all.1, ih all.2⟩

/-- Parameters are written as legible kinds if each is. -/
theorem Identifier.legible_kindsAll {names : List Identifier}
    (all : ∀ name ∈ names, (Kind.identifier name.name).Legible) :
    LegibleKinds (Identifier.kindsAll names) := by
  induction names with
  | nil => simp [kindsAll]
  | cons first rest ih =>
    rw [List.forall_mem_cons] at all
    cases rest with
    | nil => simpa [kindsAll] using all.1
    | cons second rest => simpa [kindsAll] using ⟨all.1, ih all.2⟩

/-- Methods are written as legible kinds if each is. -/
theorem Stmt.legible_methodKinds {methods : List (FunctionDecl Unit)}
    (all : ∀ method ∈ methods, LegibleKinds (Stmt.functionKinds method)) :
    LegibleKinds (Stmt.methodKinds methods) := by
  induction methods with
  | nil => simp [methodKinds]
  | cons first rest ih =>
    rw [List.forall_mem_cons] at all
    simpa [methodKinds] using ⟨all.1, ih all.2⟩

/-- Statements are written as legible kinds if each is. -/
theorem Stmt.legible_kindsAll {statements : List RawStmt}
    (all : ∀ statement ∈ statements, LegibleKinds statement.kinds) :
    LegibleKinds (Stmt.kindsAll statements) := by
  induction statements with
  | nil => simp [kindsAll]
  | cons first rest ih =>
    rw [List.forall_mem_cons] at all
    simpa [kindsAll] using ⟨all.1, ih all.2⟩

/-- The kinds of an expression that is derived come from its tokens. -/
theorem DerivesExpr.legible {level : Level} {value : RawExpr}
    (derived : DerivesExpr level used value) (legible : LegibleTokens used) :
    LegibleKinds value.kinds := by
  induction derived with
  | @literal token value written => simp_all [Expr.kinds]
  | receiver => simp [Expr.kinds]
  | inherited written dotted named =>
    simp only [legibleTokens_cons] at legible
    simp [Expr.kinds, named.legible legible.2.2.1]
  | read named =>
    simp only [legibleTokens_cons] at legible
    simp [Expr.kinds, named.legible legible.1]
  | grouping opened _ closed ih => simp_all [Expr.kinds]
  | call _ opened _ listed _ closed called values =>
    simp only [legibleTokens_cons, legibleTokens_append] at legible
    have given : LegibleKinds (Expr.kindsAll (List.map Prod.snd _)) :=
      Expr.legible_kindsAll fun value mem => by
        obtain ⟨entry, member, rfl⟩ := List.mem_map.mp mem
        exact values entry member
          (.of_separated listed legible.2.2.1 (List.mem_map_of_mem member))
    simp [Expr.kinds, called legible.1, given]
  | get _ _ named owner =>
    simp only [legibleTokens_cons, legibleTokens_append] at legible
    simp [Expr.kinds, owner legible.1, named.legible legible.2.2.1]
  | unary written _ ih => simp_all [Expr.kinds]
  | binary own _ written _ first second => simp_all [Expr.kinds]
  | logical own _ written _ first second => simp_all [Expr.kinds]
  | assign named written _ given =>
    simp only [legibleTokens_cons] at legible
    simp [Expr.kinds, named.legible legible.1, given legible.2.2]
  | set _ dotted named written _ owner given =>
    simp only [legibleTokens_cons, legibleTokens_append] at legible
    simp [Expr.kinds, owner legible.1, named.legible legible.2.2.1, given legible.2.2.2.2]
  | tighter _ _ ih => exact ih legible

/-- The kinds of the declaration of a variable come from its tokens. -/
theorem DerivesVariable.legible {statement : RawStmt} (derived : DerivesVariable used statement)
    (legible : LegibleTokens used) : LegibleKinds statement.kinds := by
  cases derived with
  | declare written named given ended =>
    simp only [legibleTokens_cons, legibleTokens_append] at legible
    have name := named.legible legible.2.1
    cases given with
    | missing => simp [Stmt.kinds, name]
    | given _ derived =>
      simp only [legibleTokens_cons] at legible
      simp [Stmt.kinds, name, derived.legible legible.2.2.1.2]

/-- The kinds of the first part of a counted loop come from its tokens. -/
theorem DerivesInitial.legible {initial : Option RawStmt} (derived : DerivesInitial used initial)
    (legible : LegibleTokens used) : LegibleKinds (Stmt.kindsAll initial.toList) := by
  cases derived with
  | missing => simp [Stmt.kindsAll]
  | declare declared => simpa [Stmt.kindsAll] using declared.legible legible
  | expression derived _ =>
    simp only [legibleTokens_append] at legible
    simp [Stmt.kindsAll, Stmt.kinds, derived.legible legible.1]

/-- The kinds of a counted loop are those of its parts, with marks and keywords between them. -/
theorem Grammar.legible_counted {initial : Option RawStmt} {condition : RawExpr}
    {increment : Option RawExpr} {body : RawStmt}
    (begun : LegibleKinds (Stmt.kindsAll initial.toList)) (tested : LegibleKinds condition.kinds)
    (stepped : ∀ value ∈ increment, LegibleKinds value.kinds) (repeated : LegibleKinds body.kinds) :
    LegibleKinds (Grammar.counted initial condition increment body).kinds := by
  cases initial <;> cases increment <;>
    simp_all [Grammar.counted, Stmt.kinds, Stmt.kindsAll]

/-- The kinds of a statement that is derived come from its tokens. -/
theorem DerivesStmt.legible {phrase : Phrase} {statement : RawStmt}
    (derived : DerivesStmt phrase used statement) (legible : LegibleTokens used) :
    LegibleKinds statement.kinds := by
  induction derived with
  | expression derived ended =>
    simp only [legibleTokens_append] at legible
    simp [Stmt.kinds, derived.legible legible.1]
  | print written derived ended =>
    simp only [legibleTokens_cons, legibleTokens_append] at legible
    simp [Stmt.kinds, derived.legible legible.2.1]
  | finish written derived ended =>
    simp only [legibleTokens_cons, legibleTokens_append] at legible
    cases derived with
    | missing => simp [Stmt.kinds]
    | given derived => simp [Stmt.kinds, derived.legible legible.2.1]
  | enclosed _ ih => exact ih legible
  | loop written opened tested closed _ repeated =>
    simp only [legibleTokens_cons, legibleTokens_append] at legible
    simp [Stmt.kinds, tested.legible legible.2.2.1, repeated legible.2.2.2.2]
  | choose written opened tested closed _ chosen =>
    simp only [legibleTokens_cons, legibleTokens_append] at legible
    simp [Stmt.kinds, tested.legible legible.2.2.1, chosen legible.2.2.2.2]
  | chooseElse written opened tested closed _ parted _ chosen refused =>
    simp only [legibleTokens_cons, legibleTokens_append] at legible
    simp [Stmt.kinds, tested.legible legible.2.2.1, chosen legible.2.2.2.2.1,
      refused legible.2.2.2.2.2.2]
  | @count _ _ _ _ _ _ _ _ _ _ condition _ _ written opened begun tested ended stepped closed _
      repeated =>
    simp only [legibleTokens_cons, legibleTokens_append] at legible
    obtain ⟨-, -, first, second, -, third, -, fourth⟩ := legible
    refine Grammar.legible_counted (begun.legible first) ?_ ?_ (repeated fourth)
    · cases tested with
      | missing => simp [Expr.kinds, Literal.kind]
      | given derived => exact derived.legible second
    · cases stepped with
      | missing => simp
      | given derived => simpa using derived.legible third
  | block opened _ closed inside =>
    simp only [legibleTokens_cons, legibleTokens_append] at legible
    have all : LegibleKinds (Stmt.kindsAll (List.map Prod.snd _)) :=
      Stmt.legible_kindsAll fun statement mem => by
        obtain ⟨entry, member, rfl⟩ := List.mem_map.mp mem
        exact inside entry member (legible.2.1.of_flatten (List.mem_map_of_mem member))
    simp [Stmt.kinds, all]
  | function named opened given listed _ closed _ inside =>
    simp only [legibleTokens_cons, legibleTokens_append] at legible
    have names : LegibleKinds (Identifier.kindsAll (List.map Prod.snd _)) :=
      Identifier.legible_kindsAll fun name mem => by
        obtain ⟨entry, member, rfl⟩ := List.mem_map.mp mem
        have tokens := LegibleTokens.of_separated listed legible.2.2.1 (List.mem_map_of_mem member)
        exact (given entry member).legible tokens
    have body := inside legible.2.2.2.2
    simp_all [Stmt.kinds, Stmt.functionKinds, named.legible legible.1]
  | statement _ ih => exact ih legible
  | declare declared => exact declared.legible legible
  | declareFunction written _ made =>
    simp only [legibleTokens_cons] at legible
    exact made legible.2
  | classDeclaration written named extended opened _ closed made =>
    simp only [legibleTokens_cons, legibleTokens_append] at legible
    obtain ⟨-, first, second, -, third, -⟩ := legible
    have name := named.legible first
    have bodies : LegibleKinds (Stmt.methodKinds (List.map Prod.snd _)) :=
      Stmt.legible_methodKinds fun method mem => by
        obtain ⟨entry, member, rfl⟩ := List.mem_map.mp mem
        have inner := made entry member (third.of_flatten (List.mem_map_of_mem member))
        simpa [Stmt.kinds] using inner
    cases extended with
    | missing => simp [Stmt.kinds, name, bodies]
    | given _ above =>
      simp only [legibleTokens_cons] at second
      simp [Stmt.kinds, name, bodies, above.legible second.2.1]

end

/-- The numbers that a text spells are finite. -/
def Text.Finite (source : String) : Prop :=
  ∀ token ∈ (Scan.ofSource source).tokens, ∀ value, token.kind = .number value →
    (Number.value? value).isSome = true

/-- The tokens of a text are such as stand in a text, if their numbers are finite. -/
theorem Scan.legible_tokens {source : String} (finite : Text.Finite source) :
    LegibleTokens (ofSource source).tokens := by
  intro token mem
  have listed : (token.kind, token.lexeme) ∈
      (ofSource source).tokens.map (fun token => (token.kind, token.lexeme)) :=
    List.mem_map_of_mem mem
  rw [ofSource, tokens_ofPieces, List.mem_append, List.mem_map] at listed
  rcases listed with ⟨lexeme, found, same⟩ | ended
  · rw [List.mem_filterMap] at found
    obtain ⟨piece, inside, is⟩ := found
    have spelled : Spells token.kind lexeme.characters := by
      rw [← (Prod.mk.inj same).1]
      cases piece with
      | token other =>
        obtain rfl := Option.some.inj is
        exact (decomposes_all source.toList).spells inside
      | _ => simp [Piece.lexeme?] at is
    generalize lexeme.characters = text at spelled
    cases kind : token.kind with
    | number value => exact finite token mem value kind
    | identifier name =>
      rw [kind] at spelled
      cases spelled with
      | name begins goesOn free =>
        rw [Kind.Legible, String.toList_ofList]
        exact .name begins goesOn free
    | string text =>
      rw [kind] at spelled
      cases spelled with
      | string unquoted => simpa [Kind.Legible] using unquoted
    | _ => trivial
  · rw [List.mem_singleton, Prod.mk.injEq] at ended
    rw [ended.1]
    trivial

/-! ## Programs -/

/-- The names, strings and numbers of a program that is read from a text whose numbers are finite
are such as stand in a text. -/
theorem Program.legible {source : String} {program : Program Unit}
    (read : Grammar.program (Scan.ofSource source).tokens = .ok program)
    (finite : Text.Finite source) : LegibleKinds (Stmt.kindsAll program) := by
  obtain ⟨entries, derived, tokens, rfl⟩ := (Grammar.program_eq_ok_iff_derives _ _).mp read
  have known : LegibleTokens (entries.map Prod.fst).flatten := by
    rw [← tokens]
    exact fun token mem => Scan.legible_tokens finite token ((List.takeWhile_prefix _).subset mem)
  refine Stmt.legible_kindsAll fun statement mem => ?_
  obtain ⟨entry, member, rfl⟩ := List.mem_map.mp mem
  exact (derived entry member).legible (known.of_flatten (List.mem_map_of_mem member))

/-- Programs that are read from texts whose numbers are finite and that are printed as the same text
are the same but for places and labels. -/
theorem Program.text_determines_tree {source source' : String} {program other : Program Unit}
    (read : Grammar.program (Scan.ofSource source).tokens = .ok program)
    (read' : Grammar.program (Scan.ofSource source').tokens = .ok other)
    (finite : Text.Finite source) (finite' : Text.Finite source')
    (same : program.text = other.text) : Stmt.bareAll program = Stmt.bareAll other := by
  have legible := Program.legible read finite
  have legible' := Program.legible read' finite'
  have lines : Form.lines (Stmt.formAll program) = Form.lines (Stmt.formAll other) := by
    rw [← Program.text_eq, ← Program.text_eq, same]
  have forms := Form.eq_of_lines (Stmt.legible_formAll program legible)
    (Stmt.legible_formAll other legible') lines
  exact Stmt.bareAll_eq_of_formAll program other legible legible' forms

set_option maxRecDepth 8000 in
/-- A number written in two ways, a minus sign in its two roles, and a string that holds a
parenthesis and a newline: two layouts of one program are printed as the same text. -/
theorem Program.text_determines_tree_reformatted :
    ∃ program other : Program Unit,
      Grammar.program (Scan.ofSource "print -1.50 - \"(\n\";").tokens = .ok program ∧
        Grammar.program (Scan.ofSource "출력 - 1.5 // half\n- \"(\n\";").tokens = .ok other ∧
        program.text = "(print (- (- 1.5) \"(\n\"))\n" ∧ other.text = program.text ∧
        Stmt.bareAll program = Stmt.bareAll other := by
  have shown (source text : String)
      (printed : (Grammar.program (Scan.ofSource source).tokens).toOption.map Program.text =
        some text) : ∃ program, Grammar.program (Scan.ofSource source).tokens = .ok program ∧
          program.text = text := by
    cases read : Grammar.program (Scan.ofSource source).tokens with
    | error => simp [read, Except.toOption] at printed
    | ok program => exact ⟨program, rfl, by simpa [read, Except.toOption] using printed⟩
  have finite {source : String} (all : ((Scan.ofSource source).tokens.all fun token =>
      match token.kind with
      | .number value => (Number.value? value).isSome
      | _ => true) = true) : Text.Finite source := by
    intro token mem value kind
    have one := List.all_eq_true.mp all token mem
    rw [kind] at one
    exact one
  obtain ⟨program, read, text⟩ := shown "print -1.50 - \"(\n\";"
    "(print (- (- 1.5) \"(\n\"))\n" (by decide +kernel)
  obtain ⟨other, read', text'⟩ := shown "출력 - 1.5 // half\n- \"(\n\";"
    "(print (- (- 1.5) \"(\n\"))\n" (by decide +kernel)
  exact ⟨program, other, read, read', text, text'.trans text.symm,
    Program.text_determines_tree read read' (finite (by decide +kernel))
      (finite (by decide +kernel)) (text.trans text'.symm)⟩

end KoreanLox
