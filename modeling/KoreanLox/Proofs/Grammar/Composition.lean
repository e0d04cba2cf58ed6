import KoreanLox.Proofs.Grammar.Linearisation
import KoreanLox.Proofs.Grammar.Totality

/-!
# Programs declaration by declaration

What reading a program comes to is what its first declaration comes to, read or given up, and then
what the tokens behind it come to (`Grammar.statements_eq_after`). So tokens that are a program,
with any others behind them, are read as the one and then as the others (`Grammar.program_behind`).
-/

namespace KoreanLox

open Parse

/-- What reading further statements came to, after some faults and statements. -/
def Step.after {α : Type} (reports : List Fault) (early : List α) (later : RawStep (List α)) :
    RawStep (List α) :=
  ⟨reports ++ later.reports, later.result.map fun (late, rest) => (early ++ late, rest)⟩

/-- Nothing before some statements changes nothing. -/
theorem Step.after_nil {α : Type} (later : RawStep (List α)) : later.after [] [] = later := by
  obtain ⟨reports, fault | ⟨late, rest⟩⟩ := later
  · rfl
  · rfl

/-- Statements before others that are before further ones are all before those. -/
theorem Step.after_after {α : Type} (reports more : List Fault) (early late : List α)
    (later : RawStep (List α)) :
    (later.after more late).after reports early =
      later.after (reports ++ more) (early ++ late) := by
  obtain ⟨last, fault | ⟨values, rest⟩⟩ := later
  · simp [Step.after, Except.map]
  · simp [Step.after, Except.map]

namespace Grammar

variable {limit : Option Nat} {path : List Production} {tokens : List Token}

/-! ## One declaration at a time -/

/-- The statements that were read before stand in front of those that are read. -/
theorem iterate_programLink_eq_after (rules : RawRules) (rounds : Nat) (body : List RawStmt) :
    iterate (programLink rules) rounds body path tokens =
      (iterate (programLink rules) rounds [] path tokens).after [] body.reverse := by
  induction rounds generalizing body tokens with
  | zero => rfl
  | succ rounds ih =>
    cases ended : atEnd tokens with
    | true =>
      rw [iterate_of_inr (programLink_of_atEnd ended), iterate_of_inr (programLink_of_atEnd ended)]
      simp [Step.after, Except.map]
    | false =>
      obtain ⟨reports, found, rest, read⟩ := exists_attempt false rules.declaration path tokens
      rw [iterate_of_inl (programLink_of_attempt ended read),
        iterate_of_inl (programLink_of_attempt ended read), ih (found.toList ++ body),
        ih (found.toList ++ [])]
      generalize iterate (programLink rules) rounds [] path rest = later
      obtain ⟨more, fault | ⟨late, last⟩⟩ := later
      · simp [Step.after, Except.map]
      · simp [Step.after, Except.map]

/-- At an end nothing is read. -/
theorem statements_of_atEnd (ended : atEnd tokens = true) :
    statements limit tokens = ⟨[], .ok ([], tokens)⟩ :=
  iterate_of_inr (programLink_of_atEnd ended)

/-- A program is what its first declaration comes to, and then what the tokens behind that one come
to. -/
theorem statements_eq_after {rounds depth : Nat} {reports : List Fault} {found : Option RawStmt}
    {rest : List Token} (enough : tokens.length < rounds) (deep : tokens.length < depth)
    (going : atEnd tokens = false)
    (read : attempt false (rules limit rounds depth).declaration [.program] tokens =
      ⟨reports, .ok (found, rest)⟩) :
    statements limit tokens = (statements limit rest).after reports found.toList := by
  have link : programLink (rules limit rounds depth) [] [.program] tokens =
      ⟨reports, .ok (.inl (found.toList ++ []), rest)⟩ := programLink_of_attempt going read
  have fewer : rest.length < tokens.length := by
    have abreast := rules_alone limit deep deep enough enough
    have advances := advances_of_alone (programLink_abreast abreast (Track.alone_onward tokens)
      (Nat.le_refl _) [] _ (Nat.lt_succ_self _))
    exact (advances _ _ _ (congrArg Step.result link)).2
  have first : statements limit tokens =
      iterate (programLink (rules limit rounds depth)) (tokens.length + 1) [] [.program] tokens :=
    (statements_eq limit (Nat.lt_succ_self _) deep enough).symm
  have others : statements limit rest =
      iterate (programLink (rules limit rounds depth)) tokens.length [] [.program] rest :=
    (statements_eq limit fewer (Nat.lt_trans fewer deep) (Nat.lt_trans fewer enough)).symm
  rw [first, others, iterate_of_inl link, iterate_programLink_eq_after]
  generalize iterate (programLink (rules limit rounds depth)) tokens.length [] _ rest = later
  have single : (found.toList ++ []).reverse = found.toList := by cases found <;> rfl
  rw [single]
  rfl

/-! ## What a program comes to -/

/-- A program is what was read if nothing was reported. -/
theorem program_of_statements {reports : List Fault} {body : Program Unit} {rest : List Token}
    (read : statements (some entryLimit) tokens = ⟨reports, .ok (body, rest)⟩) :
    program tokens = if reports = [] then .ok body else .error reports := by
  unfold program programWithin
  rw [read]
  cases reports with
  | nil => rfl
  | cons fault reports => rfl

/-- Some statements are read from every list of tokens. -/
theorem exists_statements (tokens : List Token) :
    ∃ reports body rest, statements (some entryLimit) tokens = ⟨reports, .ok (body, rest)⟩ := by
  obtain ⟨body, rest, came, -⟩ := statements_ended tokens
  exact ⟨(statements (some entryLimit) tokens).reports, body, rest, by rw [← came]⟩

/-- Behind declarations, with no `else` behind them, the other tokens are read as if they stood
alone. -/
theorem statements_behind {entries : List (List Token × RawStmt)} {others : List Token}
    (derived : ∀ entry ∈ entries, DerivesStmt (.declaration .any) entry.1 entry.2)
    (other : ¬ Begins (.keyword .elseWord) others) :
    statements (some entryLimit) ((entries.map Prod.fst).flatten ++ others) =
      (statements (some entryLimit) others).after [] (entries.map Prod.snd) := by
  induction entries with
  | nil => exact (Step.after_nil _).symm
  | cons entry entries ih =>
    obtain ⟨used, statement⟩ := entry
    have first : DerivesStmt (.declaration .any) used statement := derived _ List.mem_cons_self
    have later : ∀ entry ∈ entries, DerivesStmt (.declaration .any) entry.1 entry.2 :=
      fun entry listed => derived entry (List.mem_cons_of_mem _ listed)
    -- No `else` follows the first declaration: another declaration does, or the other tokens.
    have apart : Ending.before ((entries.map Prod.fst).flatten ++ others) = .any := by
      cases entries with
      | nil => exact Ending.before_of_not_begins other
      | cons next entries =>
        rw [List.map_cons, List.flatten_cons, List.append_assoc]
        exact before_of_derives (later next List.mem_cons_self)
    specialize ih later
    rw [List.map_cons, List.flatten_cons, List.append_assoc]
    generalize (entries.map Prod.fst).flatten ++ others = rest at apart ih ⊢
    have one := Nat.lt_succ_self (used ++ rest).length
    have reads := rules_read _ (Nat.le_of_lt one) one
    have taken := (reads.declaration [.program] (used ++ rest) rest statement (Nat.le_refl _)).mpr
      ⟨used, rfl, apart ▸ first⟩
    have attempted : attempt false _ [.program] (used ++ rest) = ⟨[], .ok (some statement, rest)⟩ :=
      takes_attempt.mpr ⟨statement, rfl, taken⟩
    rw [statements_eq_after one one (atEnd_of_derives first) attempted, ih, Step.after_after]
    rfl

/-- Tokens without an end that are a program are all derived as that program. -/
theorem derives_of_unended {tokens : List Token} {result : Program Unit} (unended : Unended tokens)
    (read : program tokens = .ok result) : DerivesProgram tokens result := by
  obtain ⟨used, rest, rfl, derived, ended⟩ := program_eq_ok_iff.mp read
  cases rest with
  | nil => simpa using derived
  | cons token rest =>
    have proper := Token.proper_of_kind (unended token (by simp))
    have improper := atEnd_iff.mp ended token rfl
    rw [proper] at improper
    cases improper

/-- Tokens that are a program, with others behind them that do not begin with an `else`, are the
program and then what the others are, or have exactly the faults of the others. -/
theorem program_behind {tokens others : List Token} {early : Program Unit}
    (unended : Unended tokens) (read : program tokens = .ok early)
    (other : ¬ Begins (.keyword .elseWord) others) :
    (∀ late, program others = .ok late → program (tokens ++ others) = .ok (early ++ late)) ∧
      ∀ faults, program others = .error faults → program (tokens ++ others) = .error faults := by
  obtain ⟨entries, derived, rfl, rfl⟩ := derives_of_unended unended read
  obtain ⟨reports, late, rest, further⟩ := exists_statements others
  have behind := statements_behind derived other
  rw [further] at behind
  have both : program ((entries.map Prod.fst).flatten ++ others) =
      if reports = [] then .ok (entries.map Prod.snd ++ late) else .error reports :=
    program_of_statements behind
  rw [program_of_statements further, both]
  split
  next =>
    refine ⟨fun found same => ?_, fun faults same => ?_⟩
    · rw [Except.ok.inj same]
    · cases same
  next =>
    refine ⟨fun found same => ?_, fun faults same => same⟩
    cases same

/-- Behind `nil;` a second semicolon fails as it does alone. -/
theorem program_behind_nil :
    ∃ faults, program (Token.ofKinds [.mark .semicolon]) = .error faults ∧
      program (Token.ofKinds [.keyword .nilWord, .mark .semicolon, .mark .semicolon]) =
        .error faults := by
  have accepted : (program (Token.ofKinds [.keyword .nilWord, .mark .semicolon])).isOk = true := by
    decide +kernel
  have refused : (program (Token.ofKinds [.mark .semicolon])).isOk = false := by decide +kernel
  cases read : program (Token.ofKinds [.keyword .nilWord, .mark .semicolon]) with
  | error faults => simp [read, Except.isOk, Except.toBool] at accepted
  | ok early =>
    cases failed : program (Token.ofKinds [.mark .semicolon]) with
    | ok late => simp [failed, Except.isOk, Except.toBool] at refused
    | error faults =>
      have unended : Unended (Token.ofKinds [.keyword .nilWord, .mark .semicolon]) := by
        simp [Unended, Token.ofKinds]
      have other : ¬ Begins (.keyword .elseWord) (Token.ofKinds [.mark .semicolon]) := by
        simp [Token.ofKinds]
      exact ⟨faults, rfl, (program_behind unended read other).2 faults failed⟩

end Grammar

end KoreanLox
