import KoreanLox.Proofs.Grammar.Statements

/-!
# Programs are read as the grammar derives them

Every level of nesting reads a token, so that rules with as many levels as there are tokens follow
the grammar (`Grammar.rules_read`). Hence a program is read without faults if and only if the
grammar derives it from the tokens before the first end (`Grammar.program_eq_ok_iff_derives`).
-/

namespace KoreanLox

/-- Whether a token is not the end of the text. -/
def Token.proper (token : Token) : Bool :=
  match token.kind with
  | .endOfFile => false
  | _ => true

/-- A token that is of another kind than the end is proper. -/
theorem Token.proper_of_kind {token : Token} (other : token.kind ≠ .endOfFile) :
    token.proper = true := by
  unfold Token.proper
  split
  case h_1 same => exact absurd same other
  case h_2 => rfl

namespace Grammar

open Parse

/-- Fewer tokens are read as well. -/
theorem Reads.fewer {reader : RawParse RawExpr} {level : Level} {bound less : Nat}
    (reads : Reads reader level bound) (fewer : less ≤ bound) : Reads reader level less :=
  fun path tokens rest value short => reads path tokens rest value (Nat.le_trans short fewer)

/-- Fewer tokens are read as well. -/
theorem ReadsPhrase.fewer {reader : RawParse RawStmt} {phrase : Ending → Phrase} {bound less : Nat}
    (reads : ReadsPhrase reader phrase bound) (fewer : less ≤ bound) :
    ReadsPhrase reader phrase less :=
  fun path tokens rest statement short =>
    reads path tokens rest statement (Nat.le_trans short fewer)

/-- Nothing is derived from no tokens, so that a reader that takes nothing reads as much. -/
theorem stop_reads (level : Level) (cause : FaultCause) : Reads (stop cause) level 0 := by
  intro path tokens rest value short
  refine iff_of_false takes_stop ?_
  rintro ⟨used, rfl, derived, -⟩
  obtain ⟨token, more, rfl, -⟩ := derived.starts
  simp at short

/-- Nothing is derived from no tokens, so that a reader that takes nothing reads as much. -/
theorem stop_readsPhrase (phrase : Ending → Phrase) (cause : FaultCause) :
    ReadsPhrase (stop cause) phrase 0 := by
  intro path tokens rest statement short
  refine iff_of_false takes_stop ?_
  rintro ⟨used, rfl, derived⟩
  obtain ⟨token, more, rfl, -⟩ := derived.opens
  simp at short

/-- Rules with as many levels as tokens follow the grammar. -/
theorem rules_read {rounds : Nat} (depth : Nat) {bound : Nat} (within : bound ≤ depth)
    (enough : bound < rounds) : ReadsAll (rules (some entryLimit) rounds depth) bound := by
  induction depth generalizing bound with
  | zero =>
    obtain rfl : bound = 0 := Nat.le_zero.mp within
    exact ⟨⟨rfl, enough, stop_reads _ _, stop_reads _ _⟩,
      stop_readsPhrase _ _, stop_readsPhrase _ _⟩
  | succ depth ih =>
    -- whatever is nested stands behind at least one token
    have inner : ReadsAll (rules (some entryLimit) rounds depth) (bound - 1) :=
      ih (by omega) (by omega)
    have fewer : bound ≤ bound - 1 + 1 := by omega
    exact ⟨⟨rfl, enough, (assignment_reads inner.toReadsNested).fewer fewer,
        (unary_reads inner.toReadsNested).fewer fewer⟩,
      (declaration_reads inner).fewer fewer, (statement_reads inner).fewer fewer⟩

/-- Tokens are at an end where no proper one follows. -/
theorem atEnd_iff {tokens : List Token} :
    atEnd tokens = true ↔ ∀ token ∈ tokens.head?, token.proper = false := by
  cases tokens with
  | nil => simp [atEnd]
  | cons token rest =>
    obtain ⟨kind, lexeme, span⟩ := token
    cases kind <;> simp [atEnd, Token.proper]

/-- A program ends where the tokens do, and goes on with a declaration elsewhere. -/
theorem takes_programLink {σ ι : Type} [Supply σ ι] {rules : Rules σ ι} {body : List (Stmt ι)}
    {path : List Production} {supply rest : σ} {result : List (Stmt ι) ⊕ List (Stmt ι)} :
    (programLink rules body).Takes path supply result rest ↔
      (atEnd (Supply.tokens supply) = true ∧ .inr body.reverse = result ∧ supply = rest) ∨
        (atEnd (Supply.tokens supply) = false ∧
          ∃ statement, rules.declaration.Takes path supply statement rest ∧
            .inl (statement :: body) = result) := by
  unfold programLink
  rw [takes_remaining_bind]
  cases ended : atEnd (Supply.tokens supply) with
  | true => simp [takes_pure]
  | false => simp [takes_further]

/-- The declarations of a program are read. -/
theorem programLink_reads {rules : RawRules} {bound : Nat} (reads : ReadsAll rules bound) :
    ReadsItem (programLink rules) .declaration id
      (fun tokens rest => atEnd tokens = true ∧ tokens = rest) bound where
  more := by
    intro path tokens rest before after short
    rw [takes_programLink]
    constructor
    · rintro (⟨-, same, -⟩ | ⟨-, statement, read, same⟩)
      · cases same
      · cases same
        obtain ⟨used, same, derived⟩ := (reads.declaration _ _ _ _ short).mp read
        exact ⟨used, statement, same, derived, rfl⟩
    · rintro ⟨used, statement, rfl, derived, rfl⟩
      have taken := (reads.declaration path _ rest _ short).mpr ⟨used, rfl, derived⟩
      exact .inr ⟨atEnd_of_derives derived, statement, taken, rfl⟩
  done := by
    intro path tokens rest before values
    rw [takes_programLink]
    constructor
    · rintro (⟨ended, same, rfl⟩ | ⟨-, statement, -, same⟩)
      · cases same
        exact ⟨⟨ended, rfl⟩, rfl⟩
      · cases same
    · rintro ⟨⟨ended, rfl⟩, rfl⟩
      exact .inl ⟨ended, rfl, rfl⟩
  apart := by
    rintro tokens _ ⟨ended, -⟩
    refine Ending.before_of_not_begins ?_
    rintro ⟨token, first, written⟩
    have improper := atEnd_iff.mp ended token first
    rw [Token.proper_of_kind (by rw [written]; exact fun same => by cases same)] at improper
    cases improper

/-- Reading is concluded with a value exactly if nothing was reported on the way to it. -/
theorem conclude_eq_ok_iff {σ α : Type} {step : Step σ α} {value : α} :
    conclude step = .ok value ↔ ∃ rest, step = ⟨[], .ok (value, rest)⟩ := by
  unfold conclude
  split
  case h_1 found rest => simp
  case h_2 step other =>
    simp only [reduceCtorEq, false_iff, not_exists]
    intro rest same
    exact other _ _ same

/-- Reading is concluded with all faults that it came to, if there are any. -/
theorem eq_faults_of_conclude {σ α : Type} {step : Step σ α} {found : List (FaultOver σ)}
    (failed : conclude step = .error found) : found = faults step := by
  unfold conclude at failed
  split at failed
  next => cases failed
  next => exact (Except.error.inj failed).symm

/-- A program is read where its declarations are taken without reports. -/
theorem program_eq_ok_iff_takes {tokens : List Token} {result : Program Unit} :
    program tokens = .ok result ↔
      ∃ rest, (iterate (programLink (rules (some entryLimit) (tokens.length + 1)
        (tokens.length + 1))) (tokens.length + 1) []).Takes [.program] tokens result rest :=
  conclude_eq_ok_iff

/-- A program is read without faults if some of its tokens derive it and the others are at an
end. -/
theorem program_eq_ok_iff {tokens : List Token} {result : Program Unit} :
    program tokens = .ok result ↔
      ∃ used rest, tokens = used ++ rest ∧ DerivesProgram used result ∧ atEnd rest = true := by
  have reads : ReadsAll (rules (some entryLimit) (tokens.length + 1) (tokens.length + 1))
      tokens.length := rules_read _ (Nat.le_succ _) (Nat.lt_succ_self _)
  rw [program_eq_ok_iff_takes]
  simp only [(programLink_reads reads).takes_iterate (tokens.length + 1) (Nat.le_refl _)
    (Nat.lt_succ_self _)]
  constructor
  · rintro ⟨_, entries, last, same, all, ⟨ended, rfl⟩, rfl⟩
    exact ⟨_, last, same, ⟨entries, all, rfl, by simp⟩, ended⟩
  · rintro ⟨_, rest, same, ⟨entries, all, rfl, rfl⟩, ended⟩
    exact ⟨rest, entries, rest, same, all, ⟨ended, rfl⟩, by simp⟩

end Grammar

/-! ## The end of the text -/

/-- There is no end of the text among some tokens. -/
def Unended (tokens : List Token) : Prop := ∀ token ∈ tokens, token.kind ≠ .endOfFile

namespace Unended

/-- No tokens hold no end. -/
@[simp]
theorem nil : Unended [] := by simp [Unended]

/-- Some tokens hold no end if neither the first nor the others do. -/
@[simp]
theorem cons {token : Token} {tokens : List Token} :
    Unended (token :: tokens) ↔ token.kind ≠ .endOfFile ∧ Unended tokens := by
  simp [Unended]

/-- Tokens in sequence hold no end if neither part does. -/
@[simp]
theorem append {first second : List Token} :
    Unended (first ++ second) ↔ Unended first ∧ Unended second := by
  simp only [Unended, List.mem_append, or_imp, forall_and]

/-- The tokens of some pieces hold no end if none of the pieces does. -/
theorem flatten {pieces : List (List Token)} (all : ∀ piece ∈ pieces, Unended piece) :
    Unended pieces.flatten := by
  intro token mem
  obtain ⟨piece, mem, inside⟩ := List.mem_flatten.mp mem
  exact all piece mem token inside

/-- Commas between pieces add no end. -/
theorem separated {pieces : List (List Token)} {tokens : List Token}
    (listed : Separated pieces tokens) (all : ∀ piece ∈ pieces, Unended piece) :
    Unended tokens := by
  induction listed with
  | none => exact nil
  | one piece => exact all piece List.mem_cons_self
  | more between _ ih =>
    refine append.mpr ⟨all _ List.mem_cons_self, cons.mpr ⟨by rw [between]; exact nofun, ?_⟩⟩
    exact ih fun other mem => all other (List.mem_cons_of_mem _ mem)

/-- The tokens of some entries hold no end if none of the entries does. -/
theorem entries {α : Type} {entries : List (List Token × α)}
    (all : ∀ entry ∈ entries, Unended entry.1) :
    ∀ piece ∈ entries.map Prod.fst, Unended piece := by
  intro piece mem
  obtain ⟨entry, found, rfl⟩ := List.mem_map.mp mem
  exact all entry found

end Unended

/-- The token of a name is no end of the text. -/
theorem Token.Spells.ne_endOfFile {token : Token} {name : Identifier} (named : token.Spells name) :
    token.kind ≠ .endOfFile := by
  rw [named.1]
  exact nofun

/-- A name holds no end of the text. -/
theorem DerivesName.unended {used : List Token} {name : Identifier}
    (derived : DerivesName used name) : Unended used := by
  cases derived with
  | name named => simp [named.ne_endOfFile]

/-- The token of a constant is no end of the text. -/
theorem Literal.kind_ne_endOfFile (value : Literal) : value.kind ≠ .endOfFile := by
  obtain _ | (_ | _) | _ | _ := value <;> exact nofun

/-- An expression holds no end of the text. -/
theorem DerivesExpr.unended {level : Level} {used : List Token} {value : RawExpr}
    (derived : DerivesExpr level used value) : Unended used := by
  induction derived with
  | @literal token value written => simp [written, value.kind_ne_endOfFile]
  | inherited written dotted named => simp [written, dotted, named.ne_endOfFile]
  | read named => simp [named.ne_endOfFile]
  | call _ opened _ listed _ closed called values =>
    simp [called, opened, closed, Unended.separated listed (Unended.entries values)]
  | get _ dotted named owner => simp [owner, dotted, named.ne_endOfFile]
  | assign named written _ given => simp [given, written, named.ne_endOfFile]
  | set _ dotted named written _ owner given =>
    simp [owner, given, dotted, written, named.ne_endOfFile]
  | _ => simp_all

/-- An expression that may be missing holds no end of the text. -/
theorem DerivesOptional.unended {used : List Token} {value : Option RawExpr}
    (derived : DerivesOptional used value) : Unended used := by
  cases derived with
  | missing => exact .nil
  | given derived => exact derived.unended

/-- The declaration of a variable holds no end of the text. -/
theorem DerivesVariable.unended {used : List Token} {statement : RawStmt}
    (derived : DerivesVariable used statement) : Unended used := by
  cases derived with
  | declare written named given ended =>
    cases given with
    | missing => simp [written, ended, named.ne_endOfFile]
    | given equals derived => simp [written, ended, equals, named.ne_endOfFile, derived.unended]

/-- The first part of a counted loop holds no end of the text. -/
theorem DerivesInitial.unended {used : List Token} {initial : Option RawStmt}
    (derived : DerivesInitial used initial) : Unended used := by
  cases derived with
  | missing ended => simp [ended]
  | declare declared => exact declared.unended
  | expression derived ended => simp [ended, derived.unended]

/-- The class that a class extends holds no end of the text. -/
theorem DerivesParent.unended {used : List Token} {parent : Option (Reference Unit)}
    (derived : DerivesParent used parent) : Unended used := by
  cases derived with
  | missing => exact .nil
  | given written named => simp [written, named.ne_endOfFile]

/-- A statement holds no end of the text. -/
theorem DerivesStmt.unended {phrase : Phrase} {used : List Token} {statement : RawStmt}
    (derived : DerivesStmt phrase used statement) : Unended used := by
  induction derived with
  | expression derived ended => simp [derived.unended, ended]
  | print written derived ended => simp [derived.unended, written, ended]
  | finish written derived ended => simp [derived.unended, written, ended]
  | enclosed _ ih => exact ih
  | loop written opened tested closed _ repeated =>
    simp [tested.unended, repeated, written, opened, closed]
  | choose written opened tested closed _ chosen =>
    simp [tested.unended, chosen, written, opened, closed]
  | chooseElse written opened tested closed _ parted _ chosen refused =>
    simp [tested.unended, chosen, refused, written, opened, closed, parted]
  | count written opened begun tested ended stepped closed _ repeated =>
    simp [begun.unended, tested.unended, stepped.unended, repeated, written, opened, ended, closed]
  | block opened _ closed inside =>
    simp [opened, closed, Unended.flatten (Unended.entries inside)]
  | function named opened given listed _ closed _ inside =>
    have names := Unended.separated listed
      (Unended.entries fun entry mem => (given entry mem).unended)
    simp [named.ne_endOfFile, opened, closed, inside, names]
  | statement _ ih => exact ih
  | declare declared => exact declared.unended
  | declareFunction written _ made => simp [written, made]
  | classDeclaration written named extended opened _ closed made =>
    simp [written, named.ne_endOfFile, extended.unended, opened, closed,
      Unended.flatten (Unended.entries made)]

namespace Grammar

open Parse

/-- A program is read without faults if and only if it is derived from the tokens before the first
end: nothing of them is lost, nothing is added and nothing changes its place. -/
theorem program_eq_ok_iff_derives (tokens : List Token) (result : Program Unit) :
    program tokens = .ok result ↔ DerivesProgram (tokens.takeWhile Token.proper) result := by
  rw [program_eq_ok_iff]
  constructor
  · rintro ⟨used, rest, rfl, ⟨entries, all, rfl, same⟩, ended⟩
    have unended : Unended (entries.map Prod.fst).flatten :=
      Unended.flatten (Unended.entries fun entry mem => (all entry mem).unended)
    have proper : ∀ token ∈ (entries.map Prod.fst).flatten, token.proper = true :=
      fun token mem => Token.proper_of_kind (unended token mem)
    have none : rest.takeWhile Token.proper = [] := by
      cases rest with
      | nil => rfl
      | cons token rest =>
        have improper := atEnd_iff.mp ended token rfl
        exact List.takeWhile_cons_of_neg (by simp [improper])
    rw [List.takeWhile_append_of_pos proper, none, List.append_nil]
    exact ⟨entries, all, rfl, same⟩
  · intro derived
    refine ⟨_, tokens.dropWhile Token.proper, List.takeWhile_append_dropWhile.symm, derived, ?_⟩
    rw [atEnd_iff]
    intro token first
    have stopped := List.head?_dropWhile_not Token.proper tokens
    rw [Option.mem_def.mp first] at stopped
    exact stopped

end Grammar

end KoreanLox
