import KoreanLox.Proofs.Grammar.Abreast
import KoreanLox.Proofs.Grammar.Wholeness

/-!
# Reading is total

A reading is run beside itself, with other numbers of rounds and levels, on tokens that it reached
without passing an end (`Track.alone`). So a program is read to an end from every list of tokens, no
token is read where there is none, and more rounds or levels would change nothing; every fault
stands at a token of the list or at its end (`Grammar.readsThrough`).
-/

namespace KoreanLox

open Parse

/-- Some tokens are the last ones of others, and there is no end among those before them. -/
def Behind (tokens rest : List Token) : Prop := ∃ used, tokens = used ++ rest ∧ Unended used

namespace Behind

variable {tokens middle rest : List Token} {token : Token}

/-- All tokens are behind none of them. -/
theorem refl (tokens : List Token) : Behind tokens tokens := ⟨[], rfl, .nil⟩

/-- The tokens behind one that is no end are behind what it is behind. -/
theorem tail (behind : Behind tokens (token :: rest)) (other : token.kind ≠ .endOfFile) :
    Behind tokens rest := by
  obtain ⟨used, rfl, unended⟩ := behind
  have read : Unended (used ++ [token]) :=
    Unended.append.mpr ⟨unended, Unended.cons.mpr ⟨other, .nil⟩⟩
  exact ⟨used ++ [token], by simp, read⟩

/-- Tokens behind others are the last ones of them. -/
theorem suffix (behind : Behind tokens rest) : rest <:+ tokens := by
  obtain ⟨used, rfl, -⟩ := behind
  exact List.suffix_append used rest

/-- An end that is the last token stays the last one of the tokens behind it. -/
theorem last {before : List Token} (behind : Behind (before ++ [token]) rest)
    (ended : token.kind = .endOfFile) : ∃ more, rest = more ++ [token] ∧ more <:+ before := by
  obtain ⟨used, same, unended⟩ := behind
  obtain rfl | ⟨more, final, rfl⟩ := List.eq_nil_or_concat rest
  · have listed : token ∈ used := by
      rw [List.append_nil] at same
      exact same ▸ List.mem_concat_self
    exact absurd ended (unended token listed)
  · rw [List.concat_eq_append, ← List.append_assoc] at same
    obtain ⟨rfl, same⟩ := List.append_inj' same rfl
    obtain rfl : token = final := by simpa using same
    exact ⟨more, by simp, List.suffix_append used more⟩

/-- An end that is the last token is what is left at an end. -/
theorem eq_of_atEnd {before : List Token} (behind : Behind (before ++ [token]) rest)
    (unended : Unended before) (ended : token.kind = .endOfFile) (done : atEnd rest = true) :
    rest = [token] := by
  obtain ⟨more, rfl, kept⟩ := behind.last ended
  cases more with
  | nil => rfl
  | cons other more =>
    have proper := Token.proper_of_kind (unended other (kept.subset List.mem_cons_self))
    have improper := Grammar.atEnd_iff.mp done other rfl
    rw [proper] at improper
    cases improper

end Behind

/-! ## A reading beside itself -/

namespace Kind

/-- What can stand inside a statement is no end. -/
theorem ne_endOfFile_of_inner {kind : Kind} (inner : kind.inner = true) : kind ≠ .endOfFile := by
  rintro rfl
  cases inner

/-- What ends a statement is no end of the tokens. -/
theorem ne_endOfFile_of_ends {kind : Kind} (ends : kind.ends = true) : kind ≠ .endOfFile := by
  rintro rfl
  cases ends

end Kind

/-- One reading beside itself, at tokens behind those where it began. -/
def Track.alone (origin : List Token) : Track where
  live first second := second = first ∧ Behind origin first
  done first second := second = first ∧ Behind origin first
  sees := by
    rintro first second ⟨rfl, -⟩
    rfl
  passes := by
    rintro token first second ⟨same, behind⟩ inner
    exact ⟨(List.cons.inj same).2, behind.tail (Kind.ne_endOfFile_of_inner inner)⟩
  leaves := by
    rintro token first second ⟨same, behind⟩ ends
    exact ⟨(List.cons.inj same).2, behind.tail (Kind.ne_endOfFile_of_ends ends)⟩
  branches := .inr
  nests := fun _ _ _ _ done => done

namespace Track

variable {origin tokens : List Token}

/-- A reading beside itself goes on behind every statement. -/
theorem alone_onward (origin : List Token) : (alone origin).Onward := fun _ _ done => done

/-- A reading beside itself begins where it goes on. -/
theorem alone_begun (tokens : List Token) :
    (alone tokens).Live (tokens.length + 1) tokens tokens :=
  ⟨⟨rfl, .refl tokens⟩, Nat.lt_succ_self tokens.length⟩

/-- Readings beside themselves come to the same faults. -/
theorem eq_of_alone_faults {first second : Fault} (same : (alone origin).Faults first second) :
    second = first := by
  obtain ⟨cause, path, rest⟩ := first
  obtain ⟨cause', path', rest'⟩ := second
  obtain rfl : cause' = cause := same.cause
  obtain rfl : path' = path := same.path
  obtain rfl : rest' = rest := same.rest.1
  rfl

/-- Readings beside themselves come to the same. -/
theorem eq_of_alone_steps {α : Type} {post : α → List Token → List Token → Prop}
    {others : List Token} {first second : RawStep α}
    (steps : (alone origin).Steps tokens others post first second)
    (kept : ∀ value rest rest', post value rest rest' → rest' = rest) : second = first := by
  have reported {reports reports' : List Fault}
      (both : List.Forall₂ (alone origin).Faults reports reports') : reports' = reports := by
    have equal := both.imp fun _ _ same => (eq_of_alone_faults same).symm
    rw [List.forall₂_eq_eq_eq] at equal
    exact equal.symm
  cases steps with
  | value both left after => rw [reported both, kept _ _ _ after]
  | fault both left stopped => rw [reported both, eq_of_alone_faults stopped]

end Track

/-! ## The readers of the grammar -/

/-- A fault stands at one of some tokens or at their end, and was raised without reading a token
that is not there. -/
structure Fault.Within (tokens : List Token) (fault : Fault) : Prop where
  /-- No token was read where there is none, and no bound was met. -/
  inRange : fault.cause ≠ .overrun
  /-- There are as many tokens as are left. -/
  remaining : fault.remaining ≤ tokens.length
  /-- What is left are the last tokens, as many as are left. -/
  rest : fault.rest = tokens.drop (tokens.length - fault.remaining)
  /-- The fault has the token that stands there. -/
  token : fault.token = tokens[tokens.length - fault.remaining]?
  /-- It has none only where none is left. -/
  missing : fault.token = none ↔ fault.remaining = 0
  /-- No end stands before it. -/
  behind : Behind tokens fault.rest

/-- What reading came to leaves the last ones of some tokens without passing an end, and every fault
stands at one of them or at their end. -/
structure Step.Orderly {α : Type} (tokens : List Token) (step : RawStep α) : Prop where
  /-- What is left are the last tokens, behind no end. -/
  left : ∀ value rest, step.result = .ok (value, rest) → Behind tokens rest
  /-- Every fault stands at one of the tokens or at their end. -/
  faults : ∀ fault ∈ Grammar.faults step, Fault.Within tokens fault

/-- The step of a loop ends the loop or leaves some of the last tokens, but not all. -/
def Parse.Advances {σ α : Type} (step : RawParse (σ ⊕ α)) (tokens : List Token) : Prop :=
  ∀ path next rest, (step path tokens).result = .ok (.inl next, rest) →
    rest <:+ tokens ∧ rest.length < tokens.length

namespace Parse

variable {σ α : Type} {step : σ → RawParse (σ ⊕ α)} {rounds : Nat} {state : σ}
  {path : List Production} {tokens rest : List Token} {reports : List Fault}

/-- A step that comes to a value ends the loop. -/
theorem iterate_of_inr {value : α}
    (made : step state path tokens = ⟨reports, .ok (.inr value, rest)⟩) :
    iterate step (rounds + 1) state path tokens = ⟨reports, .ok (value, rest)⟩ := by
  conv_lhs => rw [iterate]
  dsimp only
  rw [made]

/-- A step that comes to no value is followed by the others. -/
theorem iterate_of_inl {next : σ}
    (made : step state path tokens = ⟨reports, .ok (.inl next, rest)⟩) :
    iterate step (rounds + 1) state path tokens =
      ⟨reports ++ (iterate step rounds next path rest).reports,
        (iterate step rounds next path rest).result⟩ := by
  conv_lhs => rw [iterate]
  dsimp only
  rw [made]

end Parse

namespace Grammar

/-- The readers of the grammar, given the readers of what is nested in them. -/
inductive Reader (rules : RawRules) : {α : Type} → RawParse α → Prop where
  | expect (mark : Mark) : Reader rules (expect mark)
  | identifier : Reader rules identifier
  | primary : Reader rules (primary rules)
  | arguments : Reader rules (arguments rules)
  | finishCall : Reader rules (arguments rules >>= fun values => closing >>= fun span =>
      pure (values, span))
  | call : Reader rules (call rules)
  | unary : Reader rules (unary rules)
  | factor : Reader rules (factor rules)
  | term : Reader rules (term rules)
  | comparison : Reader rules (comparison rules)
  | equality : Reader rules (equality rules)
  | logicalAnd : Reader rules (logicalAnd rules)
  | logicalOr : Reader rules (logicalOr rules)
  | assignment : Reader rules (assignment rules)
  | expression : Reader rules (expression rules)
  | block : Reader rules (block rules)
  | parameters : Reader rules (parameters rules)
  | function : Reader rules (function rules)
  | parent : Reader rules parent
  | classDeclaration : Reader rules (classDeclaration rules)
  | initialValue : Reader rules (initialValue rules)
  | varDeclaration : Reader rules (varDeclaration rules)
  | expressionStatement : Reader rules (expressionStatement rules)
  | printStatement : Reader rules (printStatement rules)
  | returnStatement (keyword : Span) : Reader rules (returnStatement rules keyword)
  | condition : Reader rules (condition rules)
  | whileStatement : Reader rules (whileStatement rules)
  | ifStatement : Reader rules (ifStatement rules)
  | forInitial : Reader rules (forInitial rules)
  | forCondition : Reader rules (forCondition rules)
  | forIncrement : Reader rules (forIncrement rules)
  | forStatement : Reader rules (forStatement rules)
  | statement : Reader rules (statement rules)
  | declaration : Reader rules (declaration rules)
  | program : Reader rules (iterate (programLink rules) rules.rounds [])

/-- Every reader stays beside itself. -/
theorem Reader.abreast {α : Type} {rules : RawRules} {reader : RawParse α} {origin : List Token}
    {bound : Nat} (listed : Reader rules reader)
    (rulesAbreast : (Track.alone origin).RulesAbreast bound rules rules) :
    (Track.alone origin).Abreast ((Track.alone origin).Live bound) reader reader
      fun _ => (Track.alone origin).live := by
  -- Behind a statement a reading beside itself goes on as anywhere else.
  have onward := Track.alone_onward origin
  have live {β : Type} {other : RawParse β}
      (read : (Track.alone origin).Abreast ((Track.alone origin).Live bound) other other
        fun _ => (Track.alone origin).Live bound) :
      (Track.alone origin).Abreast ((Track.alone origin).Live bound) other other
        fun _ => (Track.alone origin).live := read.weaken fun _ _ _ after => after.1
  have done {β : Type} {other : RawParse β}
      (read : (Track.alone origin).Abreast ((Track.alone origin).Live bound) other other
        fun _ => (Track.alone origin).Done bound) :
      (Track.alone origin).Abreast ((Track.alone origin).Live bound) other other
        fun _ => (Track.alone origin).live := read.weaken fun _ _ _ after => after.1
  have all := Nat.le_refl bound
  have more := Nat.le_succ bound
  cases listed with
  | expect mark =>
    cases told : (Kind.mark mark).ends with
    | true => exact (Track.Abreast.expectEnd told).widen.weaken fun _ _ _ after => after.1
    | false =>
      have inner : (Kind.mark mark).inner = true := by simp [Kind.inner, told]
      exact (Track.Abreast.expect inner).widen.weaken fun _ _ _ after => after.1
  | identifier => exact live Track.Abreast.identifier.widen
  | primary => exact live ((primary_abreast rulesAbreast).keeps more)
  | arguments => exact (arguments_abreast rulesAbreast all).weaken fun _ _ _ after => after.1.1
  | finishCall =>
    refine live (.bind (arguments_abreast rulesAbreast all) fun values => ?_)
    exact .bind closing_abreast fun span => .pure fun _ _ after => after
  | call => exact live ((call_abreast rulesAbreast).keeps more)
  | unary => exact live ((unary_abreast rulesAbreast).keeps more)
  | factor => exact live ((factor_abreast rulesAbreast).keeps more)
  | term => exact live ((term_abreast rulesAbreast).keeps more)
  | comparison => exact live ((comparison_abreast rulesAbreast).keeps more)
  | equality => exact live ((equality_abreast rulesAbreast).keeps more)
  | logicalAnd => exact live ((logicalAnd_abreast rulesAbreast).keeps more)
  | logicalOr => exact live ((logicalOr_abreast rulesAbreast).keeps more)
  | assignment => exact live ((assignment_abreast rulesAbreast).keeps more)
  | expression => exact live ((expression_abreast rulesAbreast).keeps more)
  | block => exact done (block_abreast rulesAbreast onward all)
  | parameters => exact live (parameters_abreast rulesAbreast all)
  | function => exact done ((function_abreast rulesAbreast).ends more)
  | parent => exact live parent_abreast
  | classDeclaration => exact done (classDeclaration_abreast rulesAbreast all)
  | initialValue => exact live (initialValue_abreast rulesAbreast all)
  | varDeclaration => exact done (varDeclaration_abreast rulesAbreast all)
  | expressionStatement => exact done ((expressionStatement_abreast rulesAbreast).ends more)
  | printStatement => exact done (printStatement_abreast rulesAbreast all)
  | returnStatement keyword => exact done (returnStatement_abreast rulesAbreast all keyword)
  | condition => exact live (condition_abreast rulesAbreast all)
  | whileStatement => exact done (whileStatement_abreast rulesAbreast all)
  | ifStatement => exact done (ifStatement_abreast rulesAbreast all)
  | forInitial => exact live (forInitial_abreast rulesAbreast onward all)
  | forCondition => exact live (forCondition_abreast rulesAbreast all)
  | forIncrement => exact live (forIncrement_abreast rulesAbreast all)
  | forStatement => exact done (forStatement_abreast rulesAbreast onward all)
  | statement => exact done ((statement_abreast rulesAbreast).ends more)
  | declaration => exact done ((declaration_abreast rulesAbreast).ends more)
  | program =>
    have read := iterate_programLink_abreast onward rulesAbreast rulesAbreast.rounds
      rulesAbreast.rounds' []
    exact read.weaken fun _ _ _ after => after.1.1

end Grammar

/-- A fault behind no end stands within the tokens. -/
theorem Fault.within_of_behind {tokens : List Token} {fault : Fault}
    (known : fault.cause ≠ .overrun) (behind : Behind tokens fault.rest) : fault.Within tokens := by
  have suffix := behind.suffix
  have rest : fault.rest = tokens.drop (tokens.length - fault.remaining) :=
    List.suffix_iff_eq_drop.mp suffix
  refine ⟨known, suffix.length_le, rest, ?_, ?_, behind⟩
  · have first : fault.token = fault.rest.head? := rfl
    rw [first]
    nth_rewrite 1 [rest]
    exact List.head?_drop
  · unfold Fault.token FaultOver.remaining
    rw [List.head?_eq_none_iff, List.length_eq_zero_iff, Supply.tokens_list]

/-- A reading that stays beside itself is orderly. -/
theorem Step.orderly_of_alone {α : Type} {tokens : List Token} {step : RawStep α}
    (steps :
      (Track.alone tokens).Steps tokens tokens (fun _ => (Track.alone tokens).live) step step) :
    step.Orderly tokens := by
  constructor
  · intro value rest came
    cases steps with
    | value reported left after =>
      obtain ⟨rfl, rfl⟩ : _ ∧ _ := by simpa using came
      exact after.2
    | fault reported left stopped => cases came
  · intro fault listed
    have same := List.forall₂_same.mp steps.faults fault listed
    exact Fault.within_of_behind same.inRange same.rest.2

namespace Grammar

/-- The grammar stays beside itself from fewer tokens than it has levels and rounds. -/
theorem rules_alone {tokens : List Token} (limit : Option Nat) {rounds rounds' depth depth' : Nat}
    (deep : tokens.length < depth) (deep' : tokens.length < depth')
    (enough : tokens.length < rounds) (enough' : tokens.length < rounds') :
    (Track.alone tokens).RulesAbreast (tokens.length + 1) (rules limit rounds depth)
      (rules limit rounds' depth') :=
  rules_abreast _ limit deep deep' enough enough'

/-- More rounds and levels than there are tokens change nothing. -/
theorem statements_eq {tokens : List Token} (limit : Option Nat) {count rounds depth : Nat}
    (counted : tokens.length < count) (deep : tokens.length < depth)
    (enough : tokens.length < rounds) :
    iterate (programLink (rules limit rounds depth)) count [] [.program] tokens =
      statements limit tokens := by
  have one := Nat.lt_succ_self tokens.length
  have steps := iterate_programLink_abreast (Track.alone_onward tokens)
    (rules_alone limit one deep one enough) one counted [] [.program] _ _
    (Track.alone_begun tokens)
  exact Track.eq_of_alone_steps steps fun _ _ _ after => after.1.1.1

/-- Every reader with as many levels and rounds as there are tokens is orderly. -/
theorem Reader.orderly {α : Type} {tokens : List Token} {limit : Option Nat} {rounds depth : Nat}
    {reader : RawParse α} (listed : Reader (rules limit rounds depth) reader)
    (deep : tokens.length < depth) (enough : tokens.length < rounds) (path : List Production) :
    (reader path tokens).Orderly tokens := by
  have steps := listed.abreast (rules_alone limit deep deep enough enough) path _ _
    (Track.alone_begun tokens)
  exact Step.orderly_of_alone steps

/-- The steps of a loop that stay beside themselves and read a token wherever they go on advance. -/
theorem advances_of_alone {σ α : Type} {tokens : List Token} {step : RawParse (σ ⊕ α)}
    {post : α → List Token → List Token → Prop}
    (read : (Track.alone tokens).Abreast ((Track.alone tokens).Live (tokens.length + 1)) step step
      ((Track.alone tokens).Loop tokens.length post)) : step.Advances tokens := by
  intro path next rest came
  have steps := read path tokens tokens (Track.alone_begun tokens)
  generalize step path tokens = made at steps came
  cases steps with
  | fault reported left stopped => cases came
  | value reported left after =>
    obtain ⟨rfl, rfl⟩ : _ ∧ _ := by simpa using came
    exact ⟨left.first, after.2⟩

section

variable {rules : RawRules} {path : List Production} {tokens : List Token} {body : List RawStmt}

/-- At an end a program ends. -/
theorem programLink_of_atEnd (ended : atEnd tokens = true) :
    programLink rules body path tokens = ⟨[], .ok (.inr body.reverse, tokens)⟩ := by
  have seen : remaining.Takes path tokens tokens tokens := takes_remaining.mpr ⟨rfl, rfl⟩
  unfold programLink
  rw [seen.bind_eq, Supply.tokens_list, if_pos ended]
  rfl

/-- Before an end a declaration is attempted, and kept in front of the others if it is read. -/
theorem programLink_of_attempt {reports : List Fault} {found : Option RawStmt} {rest : List Token}
    (going : atEnd tokens = false)
    (read : attempt false rules.declaration path tokens = ⟨reports, .ok (found, rest)⟩) :
    programLink rules body path tokens = ⟨reports, .ok (.inl (found.toList ++ body), rest)⟩ := by
  have seen : remaining.Takes path tokens tokens tokens := takes_remaining.mpr ⟨rfl, rfl⟩
  unfold programLink
  rw [seen.bind_eq, Supply.tokens_list, going, if_neg Bool.false_ne_true]
  change Parse.andThen (attempt false rules.declaration) _ path tokens = _
  unfold Parse.andThen
  rw [read]
  cases found with
  | none => exact congrArg (Step.mk · _) (List.append_nil reports)
  | some statement => exact congrArg (Step.mk · _) (List.append_nil reports)

/-- An attempt always goes on. -/
theorem exists_attempt {α : Type} (inBlock : Bool) (reader : RawParse α) (path : List Production)
    (tokens : List Token) :
    ∃ reports found rest, attempt inBlock reader path tokens = ⟨reports, .ok (found, rest)⟩ := by
  unfold attempt
  obtain ⟨reports, fault | ⟨value, rest⟩⟩ := reader path tokens
  · exact ⟨_, _, _, rfl⟩
  · exact ⟨_, _, _, rfl⟩

/-- Only a bound on the rounds can stop a program. -/
theorem overrun_of_iterate {rounds : Nat} {fault : Fault}
    (stopped : (iterate (programLink rules) rounds body path tokens).result = .error fault) :
    fault.cause = .overrun := by
  induction rounds generalizing body tokens with
  | zero =>
    obtain rfl := Except.error.inj stopped
    rfl
  | succ rounds ih =>
    cases ended : atEnd tokens with
    | true =>
      rw [iterate_of_inr (programLink_of_atEnd ended)] at stopped
      cases stopped
    | false =>
      obtain ⟨reports, found, rest, read⟩ := exists_attempt false rules.declaration path tokens
      rw [iterate_of_inl (programLink_of_attempt ended read)] at stopped
      exact ih stopped

end

/-- What holds of reading a program from some tokens, whatever they are. -/
structure ReadsThrough (tokens : List Token) : Prop where
  /-- The program is read up to an end of the tokens, behind no other end. -/
  ended : ∃ body rest, (statements (some entryLimit) tokens).result = .ok (body, rest) ∧
    Behind tokens rest ∧ atEnd rest = true
  /-- Repetition and nesting never meet a bound: all that exceed the number of tokens give the
  same. -/
  unbounded : ∀ rounds depth, tokens.length < rounds → tokens.length < depth →
    iterate (programLink (rules (some entryLimit) rounds depth)) rounds [] [.program] tokens =
      statements (some entryLimit) tokens
  /-- The faults of the program stand within its tokens, and no token is read where there is
  none. -/
  placed : ∀ faults, program tokens = .error faults → ∀ fault ∈ faults, fault.Within tokens
  /-- Every round of the loops of programs, blocks and classes ends the loop or reads a token. -/
  advances : ∀ left rounds depth, left <:+ tokens → left.length < rounds → left.length < depth →
    (∀ body, (programLink (rules (some entryLimit) rounds depth) body).Advances left) ∧
    (∀ body, (blockLink (rules (some entryLimit) rounds depth) body).Advances left) ∧
    (∀ methods, (methodLink (rules (some entryLimit) rounds depth) methods).Advances left)
  /-- Whatever is read from the last ones of the tokens leaves the last ones of these, and its
  faults stand within them. -/
  orderly : ∀ left rounds depth, left <:+ tokens → left.length < rounds → left.length < depth →
    ∀ {α : Type} {reader : RawParse α}, Reader (rules (some entryLimit) rounds depth) reader →
      ∀ path, (reader path left).Orderly left
  /-- If the last token is an end, no reader takes it. -/
  endStays : ∀ before last, tokens = before ++ [last] → last.kind = .endOfFile →
    ∀ left rounds depth, left <:+ before → left.length + 1 < rounds → left.length + 1 < depth →
      ∀ {α : Type} {reader : RawParse α}, Reader (rules (some entryLimit) rounds depth) reader →
        ∀ path value rest, (reader path (left ++ [last])).result = .ok (value, rest) →
          ∃ fewer, rest = fewer ++ [last] ∧ fewer <:+ left
  /-- If the last token is an end, every fault has a token. -/
  tokenGiven : ∀ before last, tokens = before ++ [last] → last.kind = .endOfFile →
    ∀ faults, program tokens = .error faults → ∀ fault ∈ faults, fault.token ≠ none

/-- From all tokens a program is read up to an end. -/
theorem statements_ended (tokens : List Token) :
    ∃ body rest, (statements (some entryLimit) tokens).result = .ok (body, rest) ∧
      Behind tokens rest ∧ atEnd rest = true := by
  have one := Nat.lt_succ_self tokens.length
  have steps := iterate_programLink_abreast (Track.alone_onward tokens)
    (rules_alone (some entryLimit) one one one one) one one [] [.program] _ _
    (Track.alone_begun tokens)
  have known {fault : Fault}
      (stopped : (statements (some entryLimit) tokens).result = .error fault) :
      fault.cause = .overrun := overrun_of_iterate stopped
  change (Track.alone tokens).Steps tokens tokens _ (statements (some entryLimit) tokens)
    (statements (some entryLimit) tokens) at steps
  generalize statements (some entryLimit) tokens = step at steps known
  cases steps with
  | value reported left after => exact ⟨_, _, rfl, after.1.1.2, after.2⟩
  | fault reported left stopped => exact absurd (known rfl) stopped.inRange

/-- The faults of a program are those that its reading came to. -/
theorem faults_of_program {tokens : List Token} {found : List Fault}
    (failed : program tokens = .error found) :
    found = faults (statements (some entryLimit) tokens) :=
  eq_faults_of_conclude failed

/-- The faults of a program stand within its tokens. -/
theorem within_of_program {tokens : List Token} {found : List Fault}
    (failed : program tokens = .error found) {fault : Fault} (listed : fault ∈ found) :
    fault.Within tokens := by
  have one := Nat.lt_succ_self tokens.length
  have listed' : Reader (rules (some entryLimit) (tokens.length + 1) (tokens.length + 1)) _ :=
    .program
  have orderly := listed'.orderly one one [.program]
  rw [rules_rounds, statements_eq _ one one one] at orderly
  rw [faults_of_program failed] at listed
  exact orderly.faults fault listed

/-- A program is read through from every list of tokens. -/
theorem readsThrough (tokens : List Token) : ReadsThrough tokens where
  ended := statements_ended tokens
  unbounded := fun rounds depth enough deep => statements_eq _ enough deep enough
  placed := fun found failed fault listed => within_of_program failed listed
  advances := by
    intro left rounds depth suffix enough deep
    have abreast := rules_alone (some entryLimit) deep deep enough enough
    have onward := Track.alone_onward left
    have all := Nat.le_refl (left.length + 1)
    have one := Nat.lt_succ_self left.length
    refine ⟨fun body => ?_, fun body => ?_, fun methods => ?_⟩
    · exact advances_of_alone (programLink_abreast abreast onward all body _ one)
    · exact advances_of_alone (blockLink_abreast abreast onward all body _ one)
    · exact advances_of_alone (methodLink_abreast abreast onward all methods _ one)
  orderly := fun left rounds depth suffix enough deep {_ _} listed path =>
    listed.orderly deep enough path
  endStays := by
    intro before last same ended left rounds depth suffix enough deep α reader listed path value
      rest came
    have counted : (left ++ [last]).length = left.length + 1 := by simp
    have orderly := listed.orderly (counted ▸ deep) (counted ▸ enough) path
    exact (orderly.left value rest came).last ended
  tokenGiven := by
    rintro before last rfl ended found failed fault listed missing
    obtain ⟨more, same, -⟩ := (within_of_program failed listed).behind.last ended
    have empty : fault.rest = [] := List.head?_eq_none_iff.mp missing
    simp [empty] at same

end Grammar

end KoreanLox
