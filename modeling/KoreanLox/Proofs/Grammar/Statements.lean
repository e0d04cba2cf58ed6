import KoreanLox.Proofs.Grammar.Expressions

/-!
# Readers of statements follow the grammar

The readers of declarations and statements take exactly what is derived, with the ending that the
tokens behind allow (`Grammar.ReadsPhrase`): before an `else` only what is closed is taken whole.
This is shown given that the readers of what is nested inside do so on fewer tokens. Blocks, class
bodies and programs are lists of phrases up to an end, and are read by one lemma about such lists
(`Grammar.ReadsItem.takes_iterate`).
-/

namespace KoreanLox

/-- What may stand at the end of a statement before some tokens. -/
def Ending.before : List Token → Ending
  | ⟨.keyword .elseWord, _, _⟩ :: _ => .closed
  | _ => .any

/-- A statement before an `else` has to be closed. -/
theorem Ending.before_of_begins {tokens : List Token}
    (begins : Parse.Begins (.keyword .elseWord) tokens) : Ending.before tokens = .closed := by
  obtain ⟨⟨kind, lexeme, span⟩, more, rfl, rfl⟩ := begins.exists_cons
  rfl

/-- A statement that no `else` follows may end with anything. -/
theorem Ending.before_of_not_begins {tokens : List Token}
    (other : ¬ Parse.Begins (.keyword .elseWord) tokens) : Ending.before tokens = .any := by
  unfold Ending.before
  split
  case h_1 => exact absurd ((Parse.begins_cons _ _ _).mpr rfl) other
  case h_2 => rfl

namespace Grammar

open Parse

variable {path : List Production} {tokens rest : List Token}

/-- On at most so many tokens a reader takes exactly what is derived as a phrase with the ending
that the tokens behind it allow. -/
def ReadsPhrase (reader : RawParse RawStmt) (phrase : Ending → Phrase) (bound : Nat) : Prop :=
  ∀ (path : List Production) (tokens rest : List Token) (statement : RawStmt),
    tokens.length ≤ bound → (reader.Takes path tokens statement rest ↔
      ∃ used, tokens = used ++ rest ∧ DerivesStmt (phrase (.before rest)) used statement)

/-- All readers of some rules follow the grammar on at most so many tokens. -/
structure ReadsAll (rules : RawRules) (bound : Nat) : Prop extends ReadsNested rules bound where
  /-- Declarations are read. -/
  declaration : ReadsPhrase rules.declaration .declaration bound
  /-- Statements are read. -/
  statement : ReadsPhrase rules.statement .statement bound

section

variable {rules : RawRules} {bound : Nat}

/-! ## Parts that hold no statement -/

/-- An expression before a semicolon is made a statement. -/
theorem takes_terminated (reads : ReadsNested rules bound) (short : tokens.length ≤ bound + 1)
    {make : RawExpr → RawStmt} {statement : RawStmt} :
    (do
      let value ← expression rules
      expect .semicolon
      return make value : RawParse RawStmt).Takes path tokens statement rest ↔
      ∃ used value semicolon, tokens = used ++ semicolon :: rest ∧
        DerivesExpr .assignment used value ∧ semicolon.kind = .mark .semicolon ∧
        statement = make value := by
  rw [(expression_reads reads).takes_bind short]
  simp only [takes_expect_bind, takes_pure]
  constructor
  · rintro ⟨used, _, value, rfl, derived, -, semicolon, _, rfl, ended, rfl, rfl⟩
    exact ⟨used, value, semicolon, rfl, derived, ended, rfl⟩
  · rintro ⟨used, value, semicolon, rfl, derived, ended, rfl⟩
    exact ⟨used, semicolon :: rest, value, rfl, derived,
      Level.stops_cons_of_joins_eq_none (by rw [ended]; rfl), semicolon, rest, rfl, ended, rfl, rfl⟩

/-- A variable is given what is derived before its semicolon. -/
theorem takes_varDeclaration (reads : ReadsNested rules bound) (short : tokens.length ≤ bound + 1)
    {statement : RawStmt} :
    (varDeclaration rules).Takes path tokens statement rest ↔
      ∃ token used semicolon name initial, tokens = token :: (used ++ semicolon :: rest) ∧
        token.Spells name ∧ DerivesGiven used initial ∧ semicolon.kind = .mark .semicolon ∧
        statement = .declare name initial := by
  unfold varDeclaration
  rw [takes_inside, takes_identifier_bind]
  constructor
  · rintro ⟨token, more, name, rfl, named, taken⟩
    simp only [List.length_cons] at short
    rw [takes_bind] at taken
    obtain ⟨initial, middle, given, taken⟩ := taken
    rw [takes_expect_bind] at taken
    obtain ⟨semicolon, _, rfl, ended, taken⟩ := taken
    obtain ⟨rfl, rfl⟩ := takes_pure.mp taken
    unfold initialValue at given
    rw [takes_ifMark] at given
    obtain ⟨begins, given⟩ | ⟨-, given⟩ := given
    · obtain ⟨equals, more, rfl, written⟩ := begins.exists_cons
      simp only [List.length_cons] at short
      rw [takes_skip_bind, (expression_reads reads).takes_bind (by omega)] at given
      obtain ⟨used, _, value, rfl, derived, -, given⟩ := given
      obtain ⟨rfl, rfl⟩ := takes_pure.mp given
      exact ⟨token, equals :: used, semicolon, name, some value, rfl, named,
        .given written derived, ended, rfl⟩
    · obtain ⟨rfl, rfl⟩ := takes_pure.mp given
      exact ⟨token, [], semicolon, name, none, rfl, named, .missing, ended, rfl⟩
  · rintro ⟨token, used, semicolon, name, initial, rfl, named, given, ended, rfl⟩
    refine ⟨token, _, name, rfl, named, takes_bind.mpr ⟨initial, semicolon :: rest, ?_,
      takes_expect_bind.mpr ⟨semicolon, rest, rfl, ended, takes_pure.mpr ⟨rfl, rfl⟩⟩⟩⟩
    unfold initialValue
    rw [takes_ifMark]
    cases given with
    | missing => exact .inr ⟨by simp [ended], takes_pure.mpr ⟨rfl, rfl⟩⟩
    | @given equals used value written derived =>
      simp only [List.cons_append, List.length_cons] at short
      refine .inl ⟨by simpa using written, ?_⟩
      rw [List.cons_append, takes_skip_bind, (expression_reads reads).takes_bind (by omega)]
      exact ⟨used, semicolon :: rest, value, rfl, derived,
        Level.stops_cons_of_joins_eq_none (by rw [ended]; rfl), takes_pure.mpr ⟨rfl, rfl⟩⟩

/-- A return has the value that is derived before its semicolon, if any. -/
theorem takes_returnStatement (reads : ReadsNested rules bound)
    (short : tokens.length ≤ bound + 1) {keyword : Span} {statement : RawStmt} :
    (returnStatement rules keyword).Takes path tokens statement rest ↔
      ∃ used value semicolon, tokens = used ++ semicolon :: rest ∧ DerivesOptional used value ∧
        semicolon.kind = .mark .semicolon ∧ statement = .finish keyword value := by
  unfold returnStatement
  rw [takes_inside, takes_ifMark, takes_terminated reads short]
  constructor
  · rintro (⟨begins, taken⟩ | ⟨-, used, value, semicolon, rfl, derived, ended, rfl⟩)
    · obtain ⟨semicolon, more, rfl, ended⟩ := begins.exists_cons
      rw [takes_skip_bind, takes_pure] at taken
      obtain ⟨rfl, rfl⟩ := taken
      exact ⟨[], none, semicolon, rfl, .missing, ended, rfl⟩
    · exact ⟨used, some value, semicolon, rfl, .given derived, ended, rfl⟩
  · rintro ⟨used, value, semicolon, rfl, given, ended, rfl⟩
    cases given with
    | missing =>
      exact .inl ⟨by simpa using ended, takes_skip_bind.mpr (takes_pure.mpr ⟨rfl, rfl⟩)⟩
    | given derived =>
      exact .inr ⟨not_begins_of_derives derived rfl, used, _, semicolon, rfl, derived, ended, rfl⟩

/-- A condition in parentheses comes before the tokens behind it. -/
theorem takes_condition_bind {α : Type} (reads : ReadsNested rules bound)
    (short : tokens.length ≤ bound + 1) {next : RawExpr → RawParse α} {result : α} :
    (condition rules >>= next).Takes path tokens result rest ↔
      ∃ opening used closing more value, tokens = opening :: (used ++ closing :: more) ∧
        opening.kind = .mark .leftParen ∧ DerivesExpr .assignment used value ∧
        closing.kind = .mark .rightParen ∧ (next value).Takes path more result rest := by
  unfold condition
  rw [takes_bind]
  constructor
  · rintro ⟨value, more, taken, later⟩
    rw [takes_expect_bind] at taken
    obtain ⟨opening, _, rfl, opened, taken⟩ := taken
    simp only [List.length_cons] at short
    rw [(expression_reads reads).takes_bind (by omega)] at taken
    simp only [takes_expect_bind, takes_pure] at taken
    obtain ⟨used, _, value, rfl, derived, -, closing, _, rfl, closed, rfl, rfl⟩ := taken
    exact ⟨opening, used, closing, _, value, rfl, opened, derived, closed, later⟩
  · rintro ⟨opening, used, closing, more, value, rfl, opened, derived, closed, later⟩
    simp only [List.length_cons] at short
    refine ⟨value, more, takes_expect_bind.mpr ⟨opening, _, rfl, opened, ?_⟩, later⟩
    rw [(expression_reads reads).takes_bind (by omega)]
    exact ⟨used, closing :: more, value, rfl, derived,
      Level.stops_cons_of_joins_eq_none (by rw [closed]; rfl),
      takes_expect_bind.mpr ⟨closing, more, rfl, closed, takes_pure.mpr ⟨rfl, rfl⟩⟩⟩

/-- The first part of a counted loop is read. -/
theorem takes_forInitial (reads : ReadsNested rules bound) (short : tokens.length ≤ bound + 1)
    {initial : Option RawStmt} :
    (forInitial rules).Takes path tokens initial rest ↔
      ∃ used, tokens = used ++ rest ∧ DerivesInitial used initial := by
  unfold forInitial
  rw [takes_ifMark, takes_ifKeyword]
  constructor
  · rintro (⟨begins, taken⟩ | ⟨-, ⟨begins, taken⟩ | ⟨-, taken⟩⟩)
    · obtain ⟨semicolon, more, rfl, ended⟩ := begins.exists_cons
      rw [takes_skip_bind, takes_pure] at taken
      obtain ⟨rfl, rfl⟩ := taken
      exact ⟨[semicolon], rfl, .missing ended⟩
    · obtain ⟨keyword, more, rfl, written⟩ := begins.exists_cons
      simp only [List.length_cons] at short
      rw [takes_skip_bind, takes_bind] at taken
      simp only [takes_varDeclaration reads (Nat.le_of_succ_le short), takes_pure] at taken
      obtain ⟨_, _, ⟨token, used, semicolon, name, initial, rfl, named, given, ended, rfl⟩,
        rfl, rfl⟩ := taken
      exact ⟨_, by simp, .declare (.declare written named given ended)⟩
    · rw [takes_bind] at taken
      obtain ⟨_, _, taken, made⟩ := taken
      obtain ⟨rfl, rfl⟩ := takes_pure.mp made
      unfold expressionStatement at taken
      rw [takes_inside, takes_terminated reads short] at taken
      obtain ⟨used, value, semicolon, rfl, derived, ended, rfl⟩ := taken
      exact ⟨_, by simp, .expression derived ended⟩
  · rintro ⟨used, rfl, derived⟩
    cases derived with
    | missing ended =>
      exact .inl ⟨by simpa using ended, takes_skip_bind.mpr (takes_pure.mpr ⟨rfl, rfl⟩)⟩
    | declare declared =>
      cases declared with
      | @declare keyword token semicolon used name initial written named given ended =>
        simp only [List.cons_append, List.length_cons] at short
        refine .inr ⟨by simp [written], .inl ⟨by simpa using written, ?_⟩⟩
        rw [List.cons_append, takes_skip_bind, takes_bind]
        refine ⟨_, rest, ?_, takes_pure.mpr ⟨rfl, rfl⟩⟩
        rw [takes_varDeclaration reads (by simpa using Nat.le_of_succ_le short)]
        exact ⟨token, used, semicolon, name, initial, by simp, named, given, ended, rfl⟩
    | @expression used semicolon value derived ended =>
      rw [List.append_assoc] at short ⊢
      refine .inr ⟨not_begins_of_derives derived rfl,
        .inr ⟨not_begins_of_derives derived rfl, takes_bind.mpr ⟨_, rest, ?_,
          takes_pure.mpr ⟨rfl, rfl⟩⟩⟩⟩
      unfold expressionStatement
      rw [takes_inside, takes_terminated reads short]
      exact ⟨used, value, semicolon, by simp, derived, ended, rfl⟩

/-- The condition of a counted loop comes before its semicolon. -/
theorem takes_forCondition_bind {α : Type} (reads : ReadsNested rules bound)
    (short : tokens.length ≤ bound + 1) {next : RawExpr → RawParse α} {result : α} :
    (forCondition rules >>= fun value => expect .semicolon >>= fun _ => next value).Takes path
        tokens result rest ↔
      ∃ used semicolon more value, tokens = used ++ semicolon :: more ∧
        DerivesOptional used value ∧ semicolon.kind = .mark .semicolon ∧
        (next (value.getD (.literal (.boolean true)))).Takes path more result rest := by
  unfold forCondition
  rw [takes_bind]
  simp only [takes_ifMark, takes_pure, takes_expect_bind, expression_reads reads _ _ _ _ short]
  constructor
  · rintro ⟨_, _, ⟨begins, rfl, rfl⟩ | ⟨-, used, rfl, derived, -⟩, semicolon, more, rfl,
      ended, taken⟩
    · exact ⟨[], semicolon, more, none, rfl, .missing, ended, taken⟩
    · exact ⟨used, semicolon, more, some _, rfl, .given derived, ended, taken⟩
  · rintro ⟨used, semicolon, more, value, rfl, given, ended, taken⟩
    refine ⟨_, semicolon :: more, ?_, semicolon, more, rfl, ended, taken⟩
    cases given with
    | missing => exact .inl ⟨by simpa using ended, rfl, rfl⟩
    | given derived =>
      exact .inr ⟨not_begins_of_derives derived rfl, used, rfl, derived,
        Level.stops_cons_of_joins_eq_none (by rw [ended]; rfl)⟩

/-- The increment of a counted loop comes before its closing parenthesis. -/
theorem takes_forIncrement_bind {α : Type} (reads : ReadsNested rules bound)
    (short : tokens.length ≤ bound + 1) {next : Option RawExpr → RawParse α} {result : α} :
    (forIncrement rules >>= fun value => expect .rightParen >>= fun _ => next value).Takes path
        tokens result rest ↔
      ∃ used closing more value, tokens = used ++ closing :: more ∧
        DerivesOptional used value ∧ closing.kind = .mark .rightParen ∧
        (next value).Takes path more result rest := by
  unfold forIncrement
  rw [takes_bind]
  simp only [takes_ifMark, takes_pure, takes_expect_bind, (expression_reads reads).takes_bind short]
  constructor
  · rintro ⟨_, _, ⟨begins, rfl, rfl⟩ | ⟨-, used, _, value, rfl, derived, -, rfl, rfl⟩, closing,
      more, rfl, closed, taken⟩
    · exact ⟨[], closing, more, none, rfl, .missing, closed, taken⟩
    · exact ⟨used, closing, more, some value, rfl, .given derived, closed, taken⟩
  · rintro ⟨used, closing, more, value, rfl, given, closed, taken⟩
    refine ⟨value, closing :: more, ?_, closing, more, rfl, closed, taken⟩
    cases given with
    | missing => exact .inl ⟨by simpa using closed, rfl, rfl⟩
    | given derived =>
      exact .inr ⟨not_begins_of_derives derived rfl, used, closing :: more, _, rfl, derived,
        Level.stops_cons_of_joins_eq_none (by rw [closed]; rfl), rfl, rfl⟩

/-- The class that a class extends is read before the opening brace. -/
theorem takes_parent_bind {α : Type} {next : Option (Reference Unit) → RawParse α} {result : α} :
    (parent >>= fun extended => expect .leftBrace >>= fun _ => next extended).Takes path tokens
        result rest ↔
      ∃ used opening more extended, tokens = used ++ opening :: more ∧
        DerivesParent used extended ∧ opening.kind = .mark .leftBrace ∧
        (next extended).Takes path more result rest := by
  unfold parent
  rw [takes_bind]
  simp only [takes_ifMark, takes_pure, takes_expect_bind]
  constructor
  · rintro ⟨extended, _, ⟨begins, taken⟩ | ⟨-, rfl, rfl⟩, opening, more, rfl, opened, later⟩
    · obtain ⟨less, others, rfl, written⟩ := begins.exists_cons
      simp only [takes_skip_bind, takes_identifier_bind, draw_bind, takes_pure] at taken
      obtain ⟨token, _, name, rfl, named, rfl, rfl⟩ := taken
      exact ⟨[less, token], opening, more, _, rfl, .given written named, opened, later⟩
    · exact ⟨[], opening, more, none, rfl, .missing, opened, later⟩
  · rintro ⟨used, opening, more, extended, rfl, given, opened, later⟩
    refine ⟨extended, opening :: more, ?_, opening, more, rfl, opened, later⟩
    cases given with
    | missing => exact .inr ⟨by simp [opened], rfl, rfl⟩
    | @given less token name written named =>
      refine .inl ⟨by simpa using written, ?_⟩
      simp only [List.cons_append, List.nil_append, takes_skip_bind, takes_identifier_bind,
        draw_bind, takes_pure]
      exact ⟨token, _, name, rfl, named, rfl, rfl⟩

/-! ## Lists -/

/-- A parameter is added to those before it, and a comma tells whether there are more. -/
theorem parameter_reads (limited : rules.limit = some entryLimit) :
    ReadsEntry (parameter rules) DerivesName (fun rest => ¬ Begins (.mark .comma) rest) bound := by
  intro path tokens rest before result _
  unfold parameter
  rw [takes_bind]
  simp only [takes_checkLimit, limited, Option.mem_def, Option.some.injEq, forall_eq',
    takes_identifier_bind, takes_ifMark, takes_pure]
  constructor
  · rintro ⟨_, _, ⟨few, rfl⟩, token, more, name, rfl, named, last⟩
    refine ⟨few, [token], more, name, rfl, .name named, ?_⟩
    obtain ⟨begins, taken⟩ | ⟨other, rfl, rfl⟩ := last
    · obtain ⟨comma, more, rfl, written⟩ := begins.exists_cons
      rw [takes_skip_bind, takes_pure] at taken
      obtain ⟨rfl, rfl⟩ := taken
      exact .inl ⟨comma, written, rfl, rfl⟩
    · exact .inr ⟨rfl, other, rfl⟩
  · rintro ⟨few, _, more, name, rfl, @⟨token, _, named⟩, last⟩
    refine ⟨(), _, ⟨few, rfl⟩, token, more, name, rfl, named, ?_⟩
    obtain ⟨comma, written, rfl, rfl⟩ | ⟨rfl, other, rfl⟩ := last
    · exact .inl ⟨by simpa using written, takes_skip_bind.mpr (takes_pure.mpr ⟨rfl, rfl⟩)⟩
    · exact .inr ⟨other, rfl, rfl⟩

/-- The parameters of a function are read before its closing parenthesis. -/
theorem takes_parameters_bind {α : Type} (limited : rules.limit = some entryLimit)
    (enough : tokens.length < rules.rounds) {next : List Identifier → RawParse α} {result : α} :
    (parameters rules >>= fun names => expect .rightParen >>= fun _ => next names).Takes path
        tokens result rest ↔
      ∃ (entries : List (List Token × Identifier)) (inner : List Token) (closing : Token)
        (more : List Token), tokens = inner ++ closing :: more ∧
        (∀ entry ∈ entries, DerivesName entry.1 entry.2) ∧
        Separated (entries.map Prod.fst) inner ∧ entries.length ≤ entryLimit ∧
        closing.kind = .mark .rightParen ∧
        (next (entries.map Prod.snd)).Takes path more result rest := by
  unfold parameters
  rw [takes_bind]
  simp only [takes_ifMark, takes_pure, takes_expect_bind,
    (parameter_reads limited).takes_iterate rules.rounds (Nat.le_refl _) enough]
  constructor
  · rintro ⟨names, _, ⟨begins, rfl, rfl⟩ |
      ⟨-, entries, inner, -, rfl, rfl, all, listed, few, -⟩, closing, more, rfl, closed, taken⟩
    · exact ⟨[], [], closing, more, rfl, by simp, .none, by simp, closed, taken⟩
    · exact ⟨entries, inner, closing, more, rfl, all, listed, by simpa using few, closed,
        by simpa using taken⟩
  · rintro ⟨entries, inner, closing, more, rfl, all, listed, few, closed, taken⟩
    refine ⟨entries.map Prod.snd, closing :: more, ?_, closing, more, rfl, closed, taken⟩
    cases entries with
    | nil =>
      cases listed
      exact .inl ⟨by simpa using closed, rfl, rfl⟩
    | cons entry entries =>
      refine .inr ⟨?_, entry :: entries, inner, by simp, rfl, by simp, all, listed,
        by simpa using few, by simp [closed]⟩
      obtain ⟨others, rfl⟩ := listed.exists_append
      obtain ⟨used, name⟩ := entry
      obtain @⟨token, _, named⟩ := all _ List.mem_cons_self
      simp [named.1]

/-- A statement is not followed by an `else` where another phrase follows. -/
theorem before_of_derives {phrase : Phrase} {used : List Token} {statement : RawStmt}
    (derived : DerivesStmt phrase used statement) : Ending.before (used ++ rest) = .any := by
  obtain ⟨token, more, rfl, opens⟩ := derived.opens
  refine Ending.before_of_not_begins ?_
  rw [List.cons_append, begins_cons]
  intro written
  rw [written] at opens
  cases opens

section

variable {α : Type}

/-- A step reads one more phrase of a list, or the end of the list, which is no `else`. -/
structure ReadsItem (step : List α → RawParse (List α ⊕ List α)) (phrase : Ending → Phrase)
    (wrap : α → RawStmt) (ends : List Token → List Token → Prop) (bound : Nat) : Prop where
  /-- A step that goes on reads a phrase. -/
  more : ∀ (path : List Production) (tokens rest : List Token) (before after : List α),
    tokens.length ≤ bound → ((step before).Takes path tokens (.inl after) rest ↔
      ∃ used value, tokens = used ++ rest ∧ DerivesStmt (phrase (.before rest)) used (wrap value) ∧
        after = value :: before)
  /-- A step that ends reads the end. -/
  done : ∀ (path : List Production) (tokens rest : List Token) (before values : List α),
    (step before).Takes path tokens (.inr values) rest ↔
      ends tokens rest ∧ values = before.reverse
  /-- The end is no `else`. -/
  apart : ∀ (tokens rest : List Token), ends tokens rest → Ending.before tokens = .any

/-- Repeated steps read all phrases of a list. -/
theorem ReadsItem.takes_iterate {step : List α → RawParse (List α ⊕ List α)}
    {phrase : Ending → Phrase} {wrap : α → RawStmt} {ends : List Token → List Token → Prop}
    (reads : ReadsItem step phrase wrap ends bound) (rounds : Nat) (short : tokens.length ≤ bound)
    (enough : tokens.length < rounds) {before values : List α} :
    (iterate step rounds before).Takes path tokens values rest ↔
      ∃ (entries : List (List Token × α)) (last : List Token),
        tokens = (entries.map Prod.fst).flatten ++ last ∧
        (∀ entry ∈ entries, DerivesStmt (phrase .any) entry.1 (wrap entry.2)) ∧ ends last rest ∧
        values = before.reverse ++ entries.map Prod.snd := by
  induction rounds generalizing tokens before with
  | zero => exact absurd enough (Nat.not_lt_zero _)
  | succ rounds ih =>
    -- whatever follows a phrase of the list is not an `else`
    have apart : ∀ (entries : List (List Token × α)) (last : List Token),
        (∀ entry ∈ entries, DerivesStmt (phrase .any) entry.1 (wrap entry.2)) → ends last rest →
          Ending.before ((entries.map Prod.fst).flatten ++ last) = .any := by
      intro entries last all ended
      cases entries with
      | nil => exact reads.apart last rest ended
      | cons entry entries =>
        rw [List.map_cons, List.flatten_cons, List.append_assoc]
        exact before_of_derives (all entry List.mem_cons_self)
    rw [takes_iterate_succ, reads.done]
    simp only [reads.more _ _ _ _ _ short]
    constructor
    · rintro (⟨ended, rfl⟩ | ⟨_, middle, ⟨used, value, rfl, derived, rfl⟩, taken⟩)
      · exact ⟨[], tokens, rfl, by simp, ended, by simp⟩
      · obtain ⟨token, more, rfl, -⟩ := derived.opens
        simp only [List.cons_append, List.length_cons, List.length_append] at short enough
        obtain ⟨entries, last, rfl, all, ended, rfl⟩ := (ih (by omega) (by omega)).mp taken
        rw [apart entries last all ended] at derived
        refine ⟨(token :: more, value) :: entries, last, by simp, ?_, ended, by simp⟩
        simpa [derived] using all
    · rintro ⟨entries, last, rfl, all, ended, rfl⟩
      cases entries with
      | nil => exact .inl ⟨ended, by simp⟩
      | cons entry entries =>
        obtain ⟨used, value⟩ := entry
        have derived := all _ List.mem_cons_self
        have others : ∀ entry ∈ entries, DerivesStmt (phrase .any) entry.1 (wrap entry.2) :=
          fun entry mem => all entry (List.mem_cons_of_mem _ mem)
        obtain ⟨token, more, rfl, -⟩ := derived.opens
        simp only [List.map_cons, List.flatten_cons, List.cons_append, List.append_assoc,
          List.length_cons, List.length_append] at short enough
        refine .inr ⟨value :: before, (entries.map Prod.fst).flatten ++ last,
          ⟨token :: more, value, by simp, ?_, rfl⟩, ?_⟩
        · rw [apart entries last others ended]
          exact derived
        · rw [ih (by simp only [List.length_append]; omega)
            (by simp only [List.length_append]; omega)]
          exact ⟨entries, last, rfl, others, ended, by simp⟩

end

/-- No phrase begins where the tokens are at an end. -/
theorem atEnd_of_derives {phrase : Phrase} {used : List Token} {statement : RawStmt}
    (derived : DerivesStmt phrase used statement) : atEnd (used ++ rest) = false := by
  obtain ⟨⟨kind, lexeme, span⟩, more, rfl, opens⟩ := derived.opens
  cases kind with
  | endOfFile => cases opens
  | _ => rfl

/-- No phrase begins with a closing brace. -/
theorem not_begins_rightBrace {phrase : Phrase} {used : List Token} {statement : RawStmt}
    (derived : DerivesStmt phrase used statement) :
    ¬ Begins (.mark .rightBrace) (used ++ rest) := by
  obtain ⟨token, more, rfl, opens⟩ := derived.opens
  rw [List.cons_append, begins_cons]
  intro written
  rw [written] at opens
  cases opens

/-- Some tokens are a closing brace and others. -/
def Closes (tokens rest : List Token) : Prop :=
  ∃ closing, closing.kind = .mark .rightBrace ∧ tokens = closing :: rest

/-- A closing brace is no `else`. -/
theorem Closes.before (closes : Closes tokens rest) : Ending.before tokens = .any := by
  obtain ⟨closing, closed, rfl⟩ := closes
  exact Ending.before_of_not_begins (by simp [closed])

/-- The phrases between braces are read if each of them is: a closing brace ends them, and no phrase
begins with one. -/
theorem braced_reads {α : Type} {item : List α → RawParse (List α ⊕ List α)}
    {phrase : Ending → Phrase}
    {wrap : α → RawStmt}
    (more : ∀ (path : List Production) (tokens rest : List Token) (before after : List α),
      tokens.length ≤ bound → ((item before).Takes path tokens (.inl after) rest ↔
        ∃ used value, tokens = used ++ rest ∧
          DerivesStmt (phrase (.before rest)) used (wrap value) ∧ after = value :: before))
    (goesOn : ∀ (path : List Production) (tokens rest : List Token) (before values : List α),
      ¬ (item before).Takes path tokens (.inr values) rest) :
    ReadsItem (fun before => atMark .rightBrace >>= fun closed =>
      if closed then skip >>= fun _ => pure (.inr before.reverse)
      else remaining >>= fun left =>
        if atEnd left then stop (.expected .rightBrace) else item before)
      phrase wrap Closes bound where
  more := by
    intro path tokens rest before after short
    rw [takes_ifMark, takes_remaining_bind]
    constructor
    · rintro (⟨begins, taken⟩ | ⟨other, taken⟩)
      · obtain ⟨closing, later, rfl, -⟩ := begins.exists_cons
        rw [takes_skip_bind, takes_pure] at taken
        cases taken.1
      · split at taken
        · exact absurd taken takes_stop
        · exact (more _ _ _ _ _ short).mp taken
    · intro found
      obtain ⟨used, value, rfl, derived, -⟩ := id found
      refine .inr ⟨not_begins_rightBrace derived, ?_⟩
      rw [atEnd_of_derives derived]
      exact (more _ _ _ _ _ short).mpr found
  done := by
    intro path tokens rest before values
    rw [takes_ifMark, takes_remaining_bind]
    constructor
    · rintro (⟨begins, taken⟩ | ⟨other, taken⟩)
      · obtain ⟨closing, later, rfl, closed⟩ := begins.exists_cons
        rw [takes_skip_bind, takes_pure] at taken
        obtain ⟨same, rfl⟩ := taken
        cases same
        exact ⟨⟨closing, closed, rfl⟩, rfl⟩
      · split at taken
        · exact absurd taken takes_stop
        · exact absurd taken (goesOn _ _ _ _ _)
    · rintro ⟨⟨closing, closed, rfl⟩, rfl⟩
      exact .inl ⟨by simpa using closed, takes_skip_bind.mpr (takes_pure.mpr ⟨rfl, rfl⟩)⟩
  apart := fun _ _ => Closes.before

/-- A further declaration is taken if it is not given up. -/
theorem takes_further {σ ι : Type} [Supply σ ι] {rules : Rules σ ι} {inBlock : Bool}
    {before : List (Stmt ι)} {result : List (Stmt ι) ⊕ List (Stmt ι)} {supply rest : σ} :
    (further rules inBlock before).Takes path supply result rest ↔
      ∃ statement, rules.declaration.Takes path supply statement rest ∧
        .inl (statement :: before) = result := by
  unfold further
  simp only [takes_bind, takes_attempt]
  constructor
  · rintro ⟨_, _, ⟨statement, rfl, taken⟩, made⟩
    obtain ⟨same, rfl⟩ := takes_pure.mp made
    exact ⟨statement, taken, same⟩
  · rintro ⟨statement, taken, same⟩
    exact ⟨some statement, rest, ⟨statement, rfl, taken⟩, takes_pure.mpr ⟨same, rfl⟩⟩

/-- The declarations of a block are read. -/
theorem blockLink_reads (reads : ReadsAll rules bound) :
    ReadsItem (blockLink rules) .declaration id Closes bound := by
  refine braced_reads (fun path tokens rest before after short => ?_)
    fun path tokens rest before values taken => ?_
  · rw [takes_further]
    constructor
    · rintro ⟨statement, taken, same⟩
      cases same
      obtain ⟨used, same, derived⟩ := (reads.declaration _ _ _ _ short).mp taken
      exact ⟨used, statement, same, derived, rfl⟩
    · rintro ⟨used, statement, rfl, derived, rfl⟩
      exact ⟨statement, (reads.declaration _ _ _ _ short).mpr ⟨used, rfl, derived⟩, rfl⟩
  · obtain ⟨statement, -, same⟩ := takes_further.mp taken
    cases same

/-- A block is read from its opening brace on. -/
theorem takes_block (reads : ReadsAll rules bound) (short : tokens.length ≤ bound)
    {opening : Token} (opened : opening.kind = .mark .leftBrace) {body : List RawStmt} :
    (block rules).Takes path tokens body rest ↔
      ∃ used, tokens = used ++ rest ∧ DerivesStmt .block (opening :: used) (.block body) := by
  have enough := reads.enough
  unfold block
  rw [takes_inside, (blockLink_reads reads).takes_iterate rules.rounds short (by omega)]
  constructor
  · rintro ⟨entries, _, rfl, all, ⟨closing, closed, rfl⟩, rfl⟩
    exact ⟨(entries.map Prod.fst).flatten ++ [closing], by simp, .block opened all closed⟩
  · rintro ⟨used, rfl, derived⟩
    cases derived with
    | @block _ closing entries _ all closed =>
      exact ⟨entries, closing :: rest, by simp, all, ⟨closing, closed, rfl⟩, by simp⟩

/-- Functions and methods are read. -/
theorem takes_function (reads : ReadsAll rules bound) (short : tokens.length ≤ bound + 1)
    {declaration : FunctionDecl Unit} :
    (function rules).Takes path tokens declaration rest ↔
      ∃ used, tokens = used ++ rest ∧ DerivesStmt .function used (.function declaration) := by
  have enough := reads.enough
  unfold function
  rw [takes_inside, takes_identifier_bind]
  simp only [takes_expect_bind]
  constructor
  · rintro ⟨token, _, name, rfl, named, opening, _, rfl, opened, taken⟩
    simp only [List.length_cons] at short
    rw [takes_parameters_bind reads.limited (by omega)] at taken
    obtain ⟨entries, inner, closing, _, rfl, all, listed, few, closed, taken⟩ := taken
    rw [takes_expect_bind] at taken
    obtain ⟨brace, _, rfl, braced, taken⟩ := taken
    simp only [List.length_append, List.length_cons] at short
    rw [takes_bind] at taken
    obtain ⟨body, _, taken, made⟩ := taken
    obtain ⟨rfl, rfl⟩ := takes_pure.mp made
    obtain ⟨used, rfl, inside⟩ := (takes_block reads (by omega) braced).mp taken
    exact ⟨token :: opening :: (inner ++ closing :: brace :: used), by simp,
      .function named opened all listed few closed inside⟩
  · rintro ⟨used, rfl, derived⟩
    cases derived with
    | @function token opening closing inner used name entries body named opened all listed few
        closed inside =>
      obtain ⟨brace, others, rfl, -⟩ := inside.opens
      have braced : brace.kind = .mark .leftBrace := by cases inside; assumption
      simp only [List.cons_append, List.append_assoc, List.length_cons, List.length_append] at short
      refine ⟨token, opening :: (inner ++ closing :: brace :: (others ++ rest)), name, by simp,
        named, opening, _, rfl, opened, ?_⟩
      rw [takes_parameters_bind reads.limited
        (by simp only [List.length_append, List.length_cons]; omega)]
      refine ⟨entries, inner, closing, brace :: (others ++ rest), rfl, all, listed, few, closed, ?_⟩
      refine takes_expect_bind.mpr ⟨brace, others ++ rest, rfl, braced, takes_bind.mpr
        ⟨body, rest, ?_, takes_pure.mpr ⟨rfl, rfl⟩⟩⟩
      rw [takes_block reads (by simp only [List.length_append]; omega) braced]
      exact ⟨others, rfl, inside⟩

/-- The methods of a class are read. -/
theorem methodLink_reads (reads : ReadsAll rules bound) :
    ReadsItem (methodLink rules) (fun _ => .function) Stmt.function Closes bound := by
  refine braced_reads (fun path tokens rest before after short => ?_)
    fun path tokens rest before values taken => ?_
  · simp only [takes_bind, takes_function reads (Nat.le_succ_of_le short), takes_pure]
    constructor
    · rintro ⟨method, _, ⟨used, rfl, derived⟩, same, rfl⟩
      cases same
      exact ⟨used, method, rfl, derived, rfl⟩
    · rintro ⟨used, method, rfl, derived, rfl⟩
      exact ⟨method, rest, ⟨used, rfl, derived⟩, rfl, rfl⟩
  · simp only [takes_bind, takes_pure] at taken
    obtain ⟨_, _, _, same, _⟩ := taken
    cases same

/-- Classes are read from their keyword on. -/
theorem takes_classDeclaration (reads : ReadsAll rules bound) (short : tokens.length ≤ bound)
    {statement : RawStmt} :
    (classDeclaration rules).Takes path tokens statement rest ↔
      ∃ (token : Token) (above : List Token) (opening closing : Token)
        (methods : List (List Token × FunctionDecl Unit)) (name : Identifier)
        (extended : Option (Reference Unit)),
        tokens =
          token :: (above ++ opening :: ((methods.map Prod.fst).flatten ++ closing :: rest)) ∧
        token.Spells name ∧ DerivesParent above extended ∧ opening.kind = .mark .leftBrace ∧
        (∀ method ∈ methods, DerivesStmt .function method.1 (.function method.2)) ∧
        closing.kind = .mark .rightBrace ∧
        statement = .classDeclaration name extended (methods.map Prod.snd) := by
  have enough := reads.enough
  unfold classDeclaration
  rw [takes_inside, takes_identifier_bind]
  simp only [takes_parent_bind]
  constructor
  · rintro ⟨token, _, name, rfl, named, above, opening, more, extended, rfl, given, opened, taken⟩
    simp only [List.length_cons, List.length_append] at short
    rw [takes_bind] at taken
    obtain ⟨_, _, taken, made⟩ := taken
    obtain ⟨rfl, rfl⟩ := takes_pure.mp made
    rw [(methodLink_reads reads).takes_iterate rules.rounds (by omega) (by omega)] at taken
    obtain ⟨methods, _, rfl, all, ⟨closing, closed, rfl⟩, rfl⟩ := taken
    exact ⟨token, above, opening, closing, methods, name, extended, rfl, named, given, opened, all,
      closed, by simp⟩
  · rintro ⟨token, above, opening, closing, methods, name, extended, rfl, named, given, opened, all,
      closed, rfl⟩
    simp only [List.length_cons, List.length_append] at short
    refine ⟨token, _, name, rfl, named, above, opening, _, extended, rfl, given, opened,
      takes_bind.mpr ⟨methods.map Prod.snd, rest, ?_, takes_pure.mpr ⟨rfl, rfl⟩⟩⟩
    rw [(methodLink_reads reads).takes_iterate rules.rounds
      (by simp only [List.length_append, List.length_cons]; omega)
      (by simp only [List.length_append, List.length_cons]; omega)]
    exact ⟨methods, closing :: rest, rfl, all, ⟨closing, closed, rfl⟩, by simp⟩

/-! ## Statements with parts -/

/-- A loop is read from its condition on. -/
theorem takes_whileStatement (reads : ReadsAll rules bound) (short : tokens.length ≤ bound)
    {statement : RawStmt} :
    (whileStatement rules).Takes path tokens statement rest ↔
      ∃ opening used closing more condition body,
        tokens = opening :: (used ++ closing :: (more ++ rest)) ∧
        opening.kind = .mark .leftParen ∧ DerivesExpr .assignment used condition ∧
        closing.kind = .mark .rightParen ∧ DerivesStmt (.statement (.before rest)) more body ∧
        statement = .loop condition body := by
  unfold whileStatement
  rw [takes_inside, takes_condition_bind reads.toReadsNested (Nat.le_succ_of_le short)]
  constructor
  · rintro ⟨opening, used, closing, more, condition, rfl, opened, tested, closed, taken⟩
    simp only [List.length_cons, List.length_append] at short
    rw [takes_bind] at taken
    obtain ⟨body, _, taken, made⟩ := taken
    obtain ⟨rfl, rfl⟩ := takes_pure.mp made
    obtain ⟨more, rfl, repeated⟩ := (reads.statement _ _ _ _ (by omega)).mp taken
    exact ⟨opening, used, closing, more, condition, body, rfl, opened, tested, closed, repeated,
      rfl⟩
  · rintro ⟨opening, used, closing, more, condition, body, rfl, opened, tested, closed, repeated,
      rfl⟩
    simp only [List.length_cons, List.length_append] at short
    refine ⟨opening, used, closing, more ++ rest, condition, rfl, opened, tested, closed,
      takes_bind.mpr ⟨body, rest, ?_, takes_pure.mpr ⟨rfl, rfl⟩⟩⟩
    exact (reads.statement _ _ _ _ (by simp only [List.length_append]; omega)).mpr
      ⟨more, rfl, repeated⟩

/-- A choice is read from its condition on, with an `else` if one follows its branch. -/
theorem takes_ifStatement (reads : ReadsAll rules bound) (short : tokens.length ≤ bound)
    {statement : RawStmt} :
    (ifStatement rules).Takes path tokens statement rest ↔
      ∃ opening used closing after condition,
        tokens = opening :: (used ++ closing :: after) ∧ opening.kind = .mark .leftParen ∧
        DerivesExpr .assignment used condition ∧ closing.kind = .mark .rightParen ∧
        ((∃ more branch, after = more ++ rest ∧ Ending.before rest = .any ∧
            DerivesStmt (.statement .any) more branch ∧
            statement = .choose condition branch none) ∨
          ∃ more other others branch otherwise, after = more ++ other :: (others ++ rest) ∧
            DerivesStmt (.statement .closed) more branch ∧ other.kind = .keyword .elseWord ∧
            DerivesStmt (.statement (.before rest)) others otherwise ∧
            statement = .choose condition branch (some otherwise)) := by
  unfold ifStatement
  rw [takes_inside, takes_condition_bind reads.toReadsNested (Nat.le_succ_of_le short)]
  constructor
  · rintro ⟨opening, used, closing, after, condition, rfl, opened, tested, closed, taken⟩
    refine ⟨opening, used, closing, after, condition, rfl, opened, tested, closed, ?_⟩
    simp only [List.length_cons, List.length_append] at short
    rw [takes_bind] at taken
    obtain ⟨branch, middle, taken, chosen⟩ := taken
    obtain ⟨more, rfl, derived⟩ := (reads.statement _ _ _ _ (by omega)).mp taken
    rw [takes_ifKeyword] at chosen
    obtain ⟨begins, chosen⟩ | ⟨alone, chosen⟩ := chosen
    · rw [Ending.before_of_begins begins] at derived
      obtain ⟨other, others, rfl, parted⟩ := begins.exists_cons
      simp only [List.length_cons, List.length_append] at short
      rw [takes_skip_bind, takes_bind] at chosen
      obtain ⟨otherwise, _, chosen, made⟩ := chosen
      obtain ⟨rfl, rfl⟩ := takes_pure.mp made
      obtain ⟨others, rfl, refused⟩ := (reads.statement _ _ _ _ (by omega)).mp chosen
      exact .inr ⟨more, other, others, branch, otherwise, rfl, derived, parted, refused, rfl⟩
    · obtain ⟨rfl, rfl⟩ := takes_pure.mp chosen
      have ending := Ending.before_of_not_begins alone
      rw [ending] at derived
      exact .inl ⟨more, branch, rfl, ending, derived, rfl⟩
  · rintro ⟨opening, used, closing, after, condition, rfl, opened, tested, closed, chosen⟩
    refine ⟨opening, used, closing, after, condition, rfl, opened, tested, closed, ?_⟩
    simp only [List.length_cons, List.length_append] at short
    obtain ⟨more, branch, rfl, ending, derived, rfl⟩ |
      ⟨more, other, others, branch, otherwise, rfl, derived, parted, refused, rfl⟩ := chosen
    · refine takes_bind.mpr ⟨branch, rest, (reads.statement _ _ _ _ (by omega)).mpr
        ⟨more, rfl, by rwa [ending]⟩, takes_ifKeyword.mpr (.inr ⟨?_, takes_pure.mpr ⟨rfl, rfl⟩⟩)⟩
      intro begins
      rw [Ending.before_of_begins begins] at ending
      cases ending
    · simp only [List.length_append, List.length_cons] at short
      have begins : Begins (.keyword .elseWord) (other :: (others ++ rest)) := by
        simpa using parted
      refine takes_bind.mpr ⟨branch, other :: (others ++ rest), (reads.statement _ _ _ _ ?_).mpr
        ⟨more, rfl, by rwa [Ending.before_of_begins begins]⟩,
        takes_ifKeyword.mpr (.inl ⟨begins, ?_⟩)⟩
      · simp only [List.length_append, List.length_cons]
        omega
      · refine takes_skip_bind.mpr (takes_bind.mpr ⟨otherwise, rest, ?_, takes_pure.mpr ⟨rfl, rfl⟩⟩)
        exact (reads.statement _ _ _ _ (by simp only [List.length_append]; omega)).mpr
          ⟨others, rfl, refused⟩

/-- A counted loop is read from its opening parenthesis on. -/
theorem takes_forStatement (reads : ReadsAll rules bound) (short : tokens.length ≤ bound)
    {statement : RawStmt} :
    (forStatement rules).Takes path tokens statement rest ↔
      ∃ opening before used semicolon after closing more initial condition increment body,
        tokens = opening ::
          (before ++ (used ++ semicolon :: (after ++ closing :: (more ++ rest)))) ∧
        opening.kind = .mark .leftParen ∧ DerivesInitial before initial ∧
        DerivesOptional used condition ∧ semicolon.kind = .mark .semicolon ∧
        DerivesOptional after increment ∧ closing.kind = .mark .rightParen ∧
        DerivesStmt (.statement (.before rest)) more body ∧
        statement = counted initial (condition.getD (.literal (.boolean true))) increment body := by
  have nested := reads.toReadsNested
  unfold forStatement
  rw [takes_inside, takes_expect_bind]
  constructor
  · rintro ⟨opening, _, rfl, opened, taken⟩
    simp only [List.length_cons] at short
    rw [takes_bind] at taken
    obtain ⟨initial, _, first, taken⟩ := taken
    obtain ⟨before, rfl, begun⟩ := (takes_forInitial nested (by omega)).mp first
    simp only [List.length_append] at short
    rw [takes_forCondition_bind nested (by omega)] at taken
    obtain ⟨used, semicolon, _, condition, rfl, tested, ended, taken⟩ := taken
    simp only [List.length_append, List.length_cons] at short
    rw [takes_forIncrement_bind nested (by omega)] at taken
    obtain ⟨after, closing, _, increment, rfl, stepped, closed, taken⟩ := taken
    simp only [List.length_append, List.length_cons] at short
    rw [takes_bind] at taken
    obtain ⟨body, _, taken, made⟩ := taken
    obtain ⟨rfl, rfl⟩ := takes_pure.mp made
    obtain ⟨more, rfl, repeated⟩ := (reads.statement _ _ _ _ (by omega)).mp taken
    exact ⟨opening, before, used, semicolon, after, closing, more, initial, condition, increment,
      body, rfl, opened, begun, tested, ended, stepped, closed, repeated, rfl⟩
  · rintro ⟨opening, before, used, semicolon, after, closing, more, initial, condition, increment,
      body, rfl, opened, begun, tested, ended, stepped, closed, repeated, rfl⟩
    simp only [List.length_append, List.length_cons] at short
    refine ⟨opening, _, rfl, opened, takes_bind.mpr ⟨initial, _,
      (takes_forInitial nested ?_).mpr ⟨before, rfl, begun⟩, (takes_forCondition_bind nested ?_).mpr
        ⟨used, semicolon, _, condition, rfl, tested, ended, (takes_forIncrement_bind nested ?_).mpr
          ⟨after, closing, _, increment, rfl, stepped, closed,
            takes_bind.mpr ⟨body, rest, (reads.statement _ _ _ _ ?_).mpr ⟨more, rfl, repeated⟩,
              takes_pure.mpr ⟨rfl, rfl⟩⟩⟩⟩⟩⟩
    all_goals
      simp only [List.length_append, List.length_cons]
      omega

/-- Statements are read. -/
theorem statement_reads (reads : ReadsAll rules bound) :
    ReadsPhrase (statement rules) .statement (bound + 1) := by
  have nested := reads.toReadsNested
  intro path tokens rest result short
  unfold statement
  rw [takes_inside, takes_bind]
  simp only [takes_peek]
  constructor
  · rintro ⟨_, _, ⟨rfl, rfl⟩, taken⟩
    split at taken
    case h_7 =>
      unfold expressionStatement at taken
      rw [takes_inside, takes_terminated nested short] at taken
      obtain ⟨used, value, semicolon, rfl, derived, ended, rfl⟩ := taken
      exact ⟨used ++ [semicolon], by simp, .expression derived ended⟩
    all_goals
      rename_i lexeme span first
      obtain ⟨more, rfl⟩ := List.head?_eq_some_iff.mp first
      simp only [List.length_cons] at short
      rw [takes_skip_bind] at taken
    case h_1 =>
      unfold printStatement at taken
      rw [takes_inside, takes_terminated nested (Nat.le_of_succ_le short)] at taken
      obtain ⟨used, value, semicolon, rfl, derived, ended, rfl⟩ := taken
      exact ⟨⟨_, lexeme, span⟩ :: (used ++ [semicolon]), by simp, .print rfl derived ended⟩
    case h_2 =>
      rw [takes_bind] at taken
      obtain ⟨body, _, taken, made⟩ := taken
      obtain ⟨rfl, rfl⟩ := takes_pure.mp made
      have opened : (⟨.mark .leftBrace, lexeme, span⟩ : Token).kind = .mark .leftBrace := rfl
      obtain ⟨used, rfl, inside⟩ :=
        (takes_block reads (Nat.le_of_succ_le_succ short) opened).mp taken
      exact ⟨_, rfl, .enclosed inside⟩
    case h_3 =>
      obtain ⟨opening, used, closing, _, condition, rfl, opened, tested, closed, chosen⟩ :=
        (takes_ifStatement reads (Nat.le_of_succ_le_succ short)).mp taken
      obtain ⟨more, branch, rfl, ending, derived, rfl⟩ |
        ⟨more, other, others, branch, otherwise, rfl, derived, parted, refused, rfl⟩ := chosen
      · rw [ending]
        exact ⟨⟨_, lexeme, span⟩ :: opening :: (used ++ closing :: more), by simp,
          .choose rfl opened tested closed derived⟩
      · exact ⟨⟨_, lexeme, span⟩ :: opening :: (used ++ closing :: (more ++ other :: others)),
          by simp, .chooseElse rfl opened tested closed derived parted refused⟩
    case h_4 =>
      obtain ⟨opening, used, closing, more, condition, body, rfl, opened, tested, closed, repeated,
        rfl⟩ := (takes_whileStatement reads (Nat.le_of_succ_le_succ short)).mp taken
      exact ⟨⟨_, lexeme, span⟩ :: opening :: (used ++ closing :: more), by simp,
        .loop rfl opened tested closed repeated⟩
    case h_5 =>
      obtain ⟨opening, before, used, semicolon, after, closing, more, initial, condition, increment,
        body, rfl, opened, begun, tested, ended, stepped, closed, repeated, rfl⟩ :=
        (takes_forStatement reads (Nat.le_of_succ_le_succ short)).mp taken
      exact ⟨⟨_, lexeme, span⟩ :: opening ::
        (before ++ (used ++ semicolon :: (after ++ closing :: more))), by simp,
        .count rfl opened begun tested ended stepped closed repeated⟩
    case h_6 =>
      obtain ⟨used, value, semicolon, rfl, derived, ended, rfl⟩ :=
        (takes_returnStatement nested (Nat.le_of_succ_le short)).mp taken
      exact ⟨⟨_, lexeme, span⟩ :: (used ++ [semicolon]), by simp,
        @DerivesStmt.finish _ ⟨_, lexeme, span⟩ _ _ _ rfl derived ended⟩
  · rintro ⟨used, rfl, derived⟩
    refine ⟨_, _, ⟨rfl, rfl⟩, ?_⟩
    generalize same : Ending.before rest = ending at derived
    cases derived with
    | @expression _ used semicolon value derived ended =>
      obtain ⟨⟨kind, lexeme, span⟩, more, rfl, starts⟩ := derived.starts
      split
      case h_7 =>
        unfold expressionStatement
        rw [takes_inside, takes_terminated nested short]
        exact ⟨_, value, semicolon, by simp, derived, ended, rfl⟩
      all_goals
        rename_i first
        cases first
        cases starts
    | @print _ keyword semicolon used value written derived ended =>
      obtain ⟨kind, lexeme, span⟩ := keyword
      obtain rfl : kind = _ := written
      rw [List.cons_append, List.length_cons] at short
      refine takes_skip_bind.mpr (takes_inside.mpr
        ((takes_terminated nested (Nat.le_of_succ_le short)).mpr ?_))
      exact ⟨used, value, semicolon, by simp, derived, ended, rfl⟩
    | @finish _ keyword semicolon used value written derived ended =>
      obtain ⟨kind, lexeme, span⟩ := keyword
      obtain rfl : kind = _ := written
      rw [List.cons_append, List.length_cons] at short
      refine takes_skip_bind.mpr ((takes_returnStatement nested (Nat.le_of_succ_le short)).mpr ?_)
      exact ⟨used, value, semicolon, by simp, derived, ended, rfl⟩
    | enclosed inside =>
      cases inside with
      | @block opening closing entries opened all closed =>
        obtain ⟨kind, lexeme, span⟩ := opening
        obtain rfl : kind = _ := opened
        rw [List.cons_append, List.length_cons] at short
        have opened : (⟨.mark .leftBrace, lexeme, span⟩ : Token).kind = .mark .leftBrace := rfl
        refine takes_skip_bind.mpr (takes_bind.mpr ⟨_, rest,
          (takes_block reads (Nat.le_of_succ_le_succ short) opened).mpr ?_,
          takes_pure.mpr ⟨rfl, rfl⟩⟩)
        exact ⟨_, rfl, .block opened all closed⟩
    | @loop _ keyword opening closing used more condition body written opened tested closed
        repeated =>
      obtain ⟨kind, lexeme, span⟩ := keyword
      obtain rfl : kind = _ := written
      rw [List.cons_append, List.length_cons] at short
      refine takes_skip_bind.mpr
        ((takes_whileStatement reads (Nat.le_of_succ_le_succ short)).mpr ?_)
      exact ⟨opening, used, closing, more, condition, body, by simp, opened, tested, closed,
        by rwa [same], rfl⟩
    | @choose keyword opening closing used more condition branch written opened tested closed
        chosen =>
      obtain ⟨kind, lexeme, span⟩ := keyword
      obtain rfl : kind = _ := written
      rw [List.cons_append, List.length_cons] at short
      refine takes_skip_bind.mpr ((takes_ifStatement reads (Nat.le_of_succ_le_succ short)).mpr ?_)
      exact ⟨opening, used, closing, more ++ rest, condition, by simp, opened, tested, closed,
        .inl ⟨more, branch, rfl, same, chosen, rfl⟩⟩
    | @chooseElse _ keyword opening closing other used more others condition branch otherwise
        written opened tested closed chosen parted refused =>
      obtain ⟨kind, lexeme, span⟩ := keyword
      obtain rfl : kind = _ := written
      rw [List.cons_append, List.length_cons] at short
      refine takes_skip_bind.mpr ((takes_ifStatement reads (Nat.le_of_succ_le_succ short)).mpr ?_)
      exact ⟨opening, used, closing, more ++ other :: (others ++ rest), condition, by simp, opened,
        tested, closed, .inr ⟨more, other, others, branch, otherwise, rfl, chosen, parted,
          by rwa [same], rfl⟩⟩
    | @count _ keyword opening semicolon closing before used after more initial condition increment
        body written opened begun tested ended stepped closed repeated =>
      obtain ⟨kind, lexeme, span⟩ := keyword
      obtain rfl : kind = _ := written
      rw [List.cons_append, List.length_cons] at short
      refine takes_skip_bind.mpr ((takes_forStatement reads (Nat.le_of_succ_le_succ short)).mpr ?_)
      exact ⟨opening, before, used, semicolon, after, closing, more, initial, condition, increment,
        body, by simp, opened, begun, tested, ended, stepped, closed, by rwa [same], rfl⟩

/-- Declarations and statements are read. -/
theorem declaration_reads (reads : ReadsAll rules bound) :
    ReadsPhrase (declaration rules) .declaration (bound + 1) := by
  have nested := reads.toReadsNested
  intro path tokens rest result short
  unfold declaration
  rw [takes_inside, takes_bind]
  simp only [takes_peek]
  constructor
  · rintro ⟨_, _, ⟨rfl, rfl⟩, taken⟩
    split at taken
    case h_4 =>
      obtain ⟨used, rfl, derived⟩ := (statement_reads reads _ _ _ _ short).mp taken
      exact ⟨used, rfl, .statement derived⟩
    all_goals
      rename_i lexeme span first
      obtain ⟨more, rfl⟩ := List.head?_eq_some_iff.mp first
      simp only [List.length_cons] at short
      rw [takes_skip_bind] at taken
    case h_1 =>
      obtain ⟨token, above, opening, closing, methods, name, extended, rfl, named, given, opened,
        all, closed, rfl⟩ := (takes_classDeclaration reads (by omega)).mp taken
      exact ⟨⟨_, lexeme, span⟩ :: token ::
        (above ++ opening :: ((methods.map Prod.fst).flatten ++ [closing])), by simp,
        .classDeclaration rfl named given opened all closed⟩
    case h_2 =>
      rw [takes_bind] at taken
      obtain ⟨declared, _, taken, made⟩ := taken
      obtain ⟨rfl, rfl⟩ := takes_pure.mp made
      obtain ⟨used, rfl, derived⟩ := (takes_function reads (by omega)).mp taken
      exact ⟨⟨_, lexeme, span⟩ :: used, rfl, .declareFunction rfl derived⟩
    case h_3 =>
      obtain ⟨token, used, semicolon, name, initial, rfl, named, given, ended, rfl⟩ :=
        (takes_varDeclaration nested (by omega)).mp taken
      exact ⟨⟨_, lexeme, span⟩ :: token :: (used ++ [semicolon]), by simp,
        .declare (.declare rfl named given ended)⟩
  · rintro ⟨used, rfl, derived⟩
    refine ⟨_, _, ⟨rfl, rfl⟩, ?_⟩
    generalize same : Ending.before rest = ending at derived
    cases derived with
    | statement derived =>
      have taken := (statement_reads reads (.declaration :: path) _ _ _ short).mpr
        ⟨used, rfl, by rwa [same]⟩
      obtain ⟨⟨kind, lexeme, span⟩, more, rfl, opens⟩ := derived.opens
      split
      case h_4 => exact taken
      all_goals
        rename_i first
        cases first
        cases opens
    | declare declared =>
      cases declared with
      | @declare keyword token semicolon used name initial written named given ended =>
        obtain ⟨kind, lexeme, span⟩ := keyword
        obtain rfl : kind = _ := written
        rw [List.cons_append, List.length_cons] at short
        refine takes_skip_bind.mpr ((takes_varDeclaration nested (Nat.le_of_succ_le short)).mpr ?_)
        exact ⟨token, used, semicolon, name, initial, by simp, named, given, ended, rfl⟩
    | @declareFunction _ keyword used statement written made =>
      obtain ⟨kind, lexeme, span⟩ := keyword
      obtain rfl : kind = _ := written
      rw [List.cons_append, List.length_cons] at short
      cases made with
      | function named opened all listed few closed inside =>
        refine takes_skip_bind.mpr (takes_bind.mpr ⟨_, rest,
          (takes_function reads (Nat.le_of_succ_le short)).mpr ⟨_, rfl, ?_⟩,
          takes_pure.mpr ⟨rfl, rfl⟩⟩)
        exact .function named opened all listed few closed inside
    | @classDeclaration _ keyword token opening closing above name extended methods written named
        given opened all closed =>
      obtain ⟨kind, lexeme, span⟩ := keyword
      obtain rfl : kind = _ := written
      rw [List.cons_append, List.length_cons] at short
      refine takes_skip_bind.mpr
        ((takes_classDeclaration reads (Nat.le_of_succ_le_succ short)).mpr ?_)
      exact ⟨token, above, opening, closing, methods, name, extended, by simp, named, given, opened,
        all, closed, rfl⟩

end

end Grammar

end KoreanLox
