import KoreanLox.Proofs.Grammar.Composition

/-!
# Faults of one statement and of the others

A statement without braces and counted loops ends with its first semicolon, whether it is read or
given up: reading that stops anywhere in it is resumed behind that semicolon
(`Grammar.resume_behind_semicolon`). So its faults do not depend on what follows, and what follows
has the faults that it has alone (`Grammar.complaints_apart`).
-/

namespace KoreanLox

open Parse

/-- The faults of tokens that are no program; a program has none. -/
def Grammar.complaints (tokens : List Token) : List Fault :=
  match program tokens with
  | .ok _ => []
  | .error faults => faults

/-- What is told of a fault: its cause, the productions being read and its token. -/
def Fault.told (fault : Fault) : FaultCause × List Production × Option Token :=
  (fault.cause, fault.path, fault.token)

/-- Some tokens hold no semicolon, no brace, no end and no counted loop. -/
def Unbroken (tokens : List Token) : Prop :=
  ∀ token ∈ tokens, token.kind ∉ [.mark .semicolon, .mark .leftBrace, .mark .rightBrace, .endOfFile,
    .keyword .forWord]

/-- No token but the first begins a statement or a declaration. -/
def SingleStatement (tokens : List Token) : Prop :=
  ∀ token ∈ tokens.tail, token.kind ∉ [.keyword .classWord, .keyword .funWord, .keyword .varWord,
    .keyword .ifWord, .keyword .whileWord, .keyword .printWord, .keyword .returnWord]

section

variable {tokens rest : List Token} {token : Token}

/-- The last ones of unbroken tokens are unbroken. -/
theorem Unbroken.suffix (unbroken : Unbroken tokens) (left : rest <:+ tokens) : Unbroken rest :=
  fun token listed => unbroken token (left.mem listed)

/-- The last ones of a single statement begin no other. -/
theorem SingleStatement.suffix (single : SingleStatement tokens) (left : rest <:+ tokens) :
    SingleStatement rest := by
  obtain ⟨used, rfl⟩ := left
  intro token listed
  refine single token ?_
  cases used with
  | nil => exact listed
  | cons first used => exact List.mem_append_right used (List.mem_of_mem_tail listed)

/-- A token of unbroken ones does not end a statement. -/
theorem Unbroken.not_ends (unbroken : Unbroken tokens) (listed : token ∈ tokens) :
    token.kind.ends = false := by
  have other := unbroken token listed
  revert other
  cases token.kind with
  | mark symbol => cases symbol <;> simp [Kind.ends]
  | _ => simp [Kind.ends]

/-- No further statement is nested in unbroken tokens. -/
theorem Unbroken.not_nests (unbroken : Unbroken tokens) (listed : token ∈ tokens) :
    token.kind.nests = false := by
  have other := unbroken token listed
  revert other
  cases token.kind with
  | mark symbol => cases symbol <;> simp [Kind.nests]
  | keyword word => cases word <;> simp [Kind.nests]
  | _ => simp [Kind.nests]

end

/-! ## A statement before two continuations -/

/-- Two readings of one unbroken statement with different tokens behind its semicolon. -/
def Track.forked {used : List Token} (unbroken : Unbroken used) {semicolon : Token}
    (ends : semicolon.kind = .mark .semicolon) {others others' : List Token}
    (apart : ¬ Begins (.keyword .elseWord) others)
    (apart' : ¬ Begins (.keyword .elseWord) others') : Track where
  live first second := ∃ left, left <:+ used ∧ first = left ++ semicolon :: others ∧
    second = left ++ semicolon :: others'
  done first second := first = others ∧ second = others'
  sees := by
    rintro _ _ ⟨left, -, rfl, rfl⟩
    cases left <;> rfl
  passes := by
    rintro token first second ⟨left, within, same, same'⟩ inner
    cases left with
    | nil =>
      obtain ⟨rfl, -⟩ := List.cons.inj same
      rw [ends] at inner
      cases inner
    | cons next left =>
      obtain ⟨rfl, rfl⟩ := List.cons.inj same
      obtain ⟨-, rfl⟩ := List.cons.inj same'
      exact ⟨left, (List.suffix_cons token left).trans within, rfl, rfl⟩
  leaves := by
    rintro token first second ⟨left, within, same, same'⟩ ended
    cases left with
    | nil => exact ⟨(List.cons.inj same).2, (List.cons.inj same').2⟩
    | cons next left =>
      obtain ⟨rfl, rfl⟩ := List.cons.inj same
      rw [unbroken.not_ends (within.mem List.mem_cons_self)] at ended
      cases ended
  branches := by
    rintro _ _ ⟨rfl, rfl⟩
    exact .inl ⟨apart, apart'⟩
  nests := by
    rintro token first second ⟨left, within, same, same'⟩ nested
    cases left with
    | nil =>
      obtain ⟨rfl, -⟩ := List.cons.inj same
      rw [ends] at nested
      cases nested
    | cons next left =>
      obtain ⟨rfl, rfl⟩ := List.cons.inj same
      rw [unbroken.not_nests (within.mem List.mem_cons_self)] at nested
      cases nested

/-- Of the faults of two readings side by side the same is told. -/
theorem Track.told_eq {track : Track} {reports reports' : List Fault}
    (both : List.Forall₂ track.Faults reports reports') :
    reports'.map Fault.told = reports.map Fault.told := by
  induction both with
  | nil => rfl
  | @cons fault fault' reports reports' same others ih =>
    have token : fault'.token = fault.token := track.sees same.rest
    have told : fault'.told = fault.told := by
      unfold Fault.told
      rw [same.cause, same.path, token]
    rw [List.map_cons, List.map_cons, told, ih]

namespace Grammar

variable {used others : List Token} {semicolon : Token}

/-- Unbroken tokens with a semicolon behind them are not at an end. -/
theorem atEnd_unbroken (unbroken : Unbroken used) (ends : semicolon.kind = .mark .semicolon) :
    atEnd (used ++ semicolon :: others) = false := by
  have going {token : Token} {rest : List Token} (other : token.kind ≠ .endOfFile) :
      atEnd (token :: rest) = false := by
    obtain ⟨kind, lexeme, span⟩ := token
    cases kind with
    | endOfFile => exact absurd rfl other
    | _ => rfl
  cases used with
  | nil => exact going (by simp [ends])
  | cons token rest =>
    refine going fun ended => ?_
    exact unbroken token List.mem_cons_self (by simp [ended])

/-- Unbroken tokens behind the first one of a single statement begin no statement. -/
theorem startsStatement_unbroken {token : Token} (unbroken : Unbroken (token :: used))
    (single : SingleStatement (token :: used)) (ends : semicolon.kind = .mark .semicolon) :
    startsStatement (used ++ semicolon :: others) = false := by
  cases used with
  | nil =>
    obtain ⟨kind, lexeme, span⟩ := semicolon
    obtain rfl : kind = .mark .semicolon := ends
    rfl
  | cons next rest =>
    have plain := unbroken next (by simp)
    have other := single next List.mem_cons_self
    obtain ⟨kind, lexeme, span⟩ := next
    cases kind with
    | keyword word =>
      cases word <;> first | rfl | simp at plain other
    | _ => rfl

/-- Reading that stops in a single statement is resumed behind its semicolon. -/
theorem resume_behind_semicolon (unbroken : Unbroken used) (single : SingleStatement used)
    (ends : semicolon.kind = .mark .semicolon) :
    resume false (used ++ semicolon :: others) = others := by
  unfold resume
  rw [atBoundary_outside, atEnd_unbroken unbroken ends, if_neg Bool.false_ne_true]
  have marked : isSemicolon semicolon = true := by
    unfold isSemicolon
    rw [ends]
  induction used with
  | nil => simp [skipStatement, marked]
  | cons token rest ih =>
    have left : rest <:+ token :: rest := List.suffix_cons token rest
    have other : isSemicolon token = false := by
      have plain := unbroken token List.mem_cons_self
      unfold isSemicolon
      split
      next same => exact absurd (by simp [same]) plain
      next => rfl
    rw [List.cons_append]
    unfold skipStatement
    rw [other, atBoundary_outside, atEnd_unbroken (unbroken.suffix left) ends,
      startsStatement_unbroken unbroken single ends, if_neg (by simp)]
    exact ih (unbroken.suffix left) (single.suffix left)

/-- Two readings of a single statement come to the same declaration or give it up, with faults of
which the same is told, and leave what is behind its semicolon. -/
theorem attempt_forked {others' : List Token} {limit : Option Nat}
    {rounds rounds' depth depth' : Nat} (unbroken : Unbroken used) (single : SingleStatement used)
    (ends : semicolon.kind = .mark .semicolon) (apart : ¬ Begins (.keyword .elseWord) others)
    (apart' : ¬ Begins (.keyword .elseWord) others')
    (deep : (used ++ semicolon :: others).length < depth)
    (deep' : (used ++ semicolon :: others).length < depth')
    (enough : (used ++ semicolon :: others).length < rounds)
    (enough' : (used ++ semicolon :: others).length < rounds') :
    ∃ reports reports' found,
      attempt false (rules limit rounds depth).declaration [.program]
        (used ++ semicolon :: others) = ⟨reports, .ok (found, others)⟩ ∧
      attempt false (rules limit rounds' depth').declaration [.program]
        (used ++ semicolon :: others') = ⟨reports', .ok (found, others')⟩ ∧
      reports'.map Fault.told = reports.map Fault.told := by
  let track := Track.forked unbroken ends apart apart'
  have abreast := (rules_abreast track limit deep deep' enough enough').declaration _
    (Nat.lt_succ_self _)
  have begun : track.live (used ++ semicolon :: others) (used ++ semicolon :: others') :=
    ⟨used, List.suffix_refl used, rfl, rfl⟩
  have steps := abreast [.program] _ _ ⟨begun, Nat.lt_succ_self _⟩
  unfold attempt
  generalize (rules limit rounds depth : RawRules).declaration [.program] _ = step at steps
  generalize (rules limit rounds' depth' : RawRules).declaration [.program] _ = step' at steps
  cases steps with
  | @value reports reports' statement _ _ reported left after =>
    obtain ⟨rfl, rfl⟩ := after.1
    exact ⟨reports, reports', some statement, rfl, rfl, Track.told_eq reported⟩
  | @fault reports reports' fault fault' reported left stopped =>
    obtain ⟨more, within, rest, rest'⟩ := stopped.rest
    have resumed (behind : List Token) : resume false (more ++ semicolon :: behind) = behind :=
      resume_behind_semicolon (unbroken.suffix within) (single.suffix within) ends
    refine ⟨reports ++ [fault], reports' ++ [fault'], none, ?_, ?_,
      Track.told_eq (List.rel_append reported (.cons stopped .nil))⟩
    · dsimp only [FaultOver.remaining, Supply.tokens_list, Supply.leave_list]
      rw [lastOnes_of_suffix left.first, rest, resumed]
    · dsimp only [FaultOver.remaining, Supply.tokens_list, Supply.leave_list]
      rw [lastOnes_of_suffix left.second, rest', resumed]

/-- The faults of tokens are those that were reported when they were read. -/
theorem complaints_of_statements {tokens : List Token} {reports : List Fault} {body : Program Unit}
    {rest : List Token}
    (read : statements (some entryLimit) tokens = ⟨reports, .ok (body, rest)⟩) :
    complaints tokens = reports := by
  unfold complaints
  rw [program_of_statements read]
  cases reports with
  | nil => rfl
  | cons fault reports => rfl

/-- The faults of a single statement and of what follows its semicolon are told as for each of them
alone. -/
theorem complaints_apart (unbroken : Unbroken used) (single : SingleStatement used)
    (ends : semicolon.kind = .mark .semicolon) (apart : ¬ Begins (.keyword .elseWord) others) :
    (complaints (used ++ [semicolon] ++ others)).map Fault.told =
      (complaints (used ++ [semicolon])).map Fault.told ++ (complaints others).map Fault.told := by
  rw [List.append_assoc, List.singleton_append]
  have shorter : (used ++ [semicolon]).length ≤ (used ++ semicolon :: others).length := by simp
  have one := Nat.lt_succ_self (used ++ semicolon :: others).length
  have less := Nat.lt_of_le_of_lt shorter one
  obtain ⟨reports, reports', found, alone, followed, same⟩ :=
    attempt_forked unbroken single ends (not_begins_nil _) apart less less less less
  obtain ⟨more, body, rest, further⟩ := exists_statements others
  have first : statements (some entryLimit) (used ++ [semicolon]) = _ :=
    statements_eq_after less less (atEnd_unbroken unbroken ends) alone
  have both := statements_eq_after one one (atEnd_unbroken unbroken ends) followed
  have nothing : statements (some entryLimit) [] = ⟨[], .ok ([], [])⟩ := statements_of_atEnd rfl
  rw [nothing] at first
  rw [further] at both
  rw [complaints_of_statements both, complaints_of_statements first,
    complaints_of_statements further, List.append_nil, List.map_append, same]

/-- A statement with one constant too many and one without any are two faults, each as it is
alone. -/
theorem complaints_apart_two :
    (complaints (Token.ofKinds [.keyword .nilWord, .keyword .nilWord, .mark .semicolon,
        .mark .semicolon])).map Fault.told =
      (complaints (Token.ofKinds [.keyword .nilWord, .keyword .nilWord, .mark .semicolon])).map
          Fault.told ++
        (complaints (Token.ofKinds [.mark .semicolon])).map Fault.told ∧
    (complaints (Token.ofKinds [.keyword .nilWord, .keyword .nilWord, .mark .semicolon,
      .mark .semicolon])).length = 2 := by
  have unbroken : Unbroken (Token.ofKinds [.keyword .nilWord, .keyword .nilWord]) := by
    simp [Unbroken, Token.ofKinds]
  have single : SingleStatement (Token.ofKinds [.keyword .nilWord, .keyword .nilWord]) := by
    simp [SingleStatement, Token.ofKinds]
  have apart : ¬ Begins (.keyword .elseWord) (Token.ofKinds [.mark .semicolon]) := by
    simp [Token.ofKinds]
  have ends : (⟨.mark .semicolon, "", .nowhere⟩ : Token).kind = .mark .semicolon := rfl
  exact ⟨complaints_apart unbroken single ends apart, by decide +kernel⟩

end Grammar

end KoreanLox
