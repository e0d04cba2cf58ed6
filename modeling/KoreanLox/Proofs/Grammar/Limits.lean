import KoreanLox.Proofs.Grammar.Recorded
import KoreanLox.Proofs.Grammar.Isolation

/-!
# The limit on the entries of lists

Reading a program with a limit on the entries of lists is reading it without one, but for the
reports of surplus entries: one at the first token of each. If nothing but that and bad assignment
targets is wrong, a program is read exactly if no list has surplus entries and what stands before
every equals sign of an expression can take a value (`Grammar.limit_only_reports`).
-/

namespace KoreanLox

/-- What is mild but no entry too many is a bad target. -/
theorem FaultCause.eq_of_isMild {cause : FaultCause} (mild : cause.isMild = true)
    (other : cause.isSurplus = false) : cause = .invalidAssignmentTarget := by
  cases cause with
  | invalidAssignmentTarget => rfl
  | tooManyParameters | tooManyArguments => cases other
  | _ => cases mild

/-- A list has no faults exactly if it keeps to the limit. -/
theorem EntryList.surplus_eq_nil_iff (limit : Nat) (list : EntryList) :
    list.surplus limit = [] ↔ list.starts.length ≤ limit := by
  rw [← List.length_eq_zero_iff, length_surplus, Nat.sub_eq_zero_iff_le]

namespace Grammar

/-- The course of reading a program with a limit on the entries of lists. -/
def course (limit : Option Nat) (tokens : List Token) : Course (List RawStmt) :=
  (Recorded.statements (tokens.length + 1)).course limit [] tokens

/-- The faults of tokens that are no program with a limit on the entries of lists; a program has
none. -/
def complaintsWithin (limit : Option Nat) (tokens : List Token) : List Fault :=
  match programWithin limit tokens with
  | .ok _ => []
  | .error faults => faults

/-- What reading some tokens has to do with the limit on the entries of lists. -/
structure LimitOnlyReports (tokens : List Token) : Prop where
  /-- The courses record how programs are read, with the limit and without one. -/
  recorded : ∀ limit, (course limit tokens).toStep = statements limit tokens
  /-- The same tokens are looked at, with the limit and without one. -/
  looks : (course (some entryLimit) tokens).looks = (course none tokens).looks
  /-- The same lists are read. -/
  lists : (course (some entryLimit) tokens).lists = (course none tokens).lists
  /-- The same stands before the equals signs. -/
  targets : (course (some entryLimit) tokens).targets = (course none tokens).targets
  /-- Reading comes to the same declarations, and leaves the same tokens. -/
  result : (statements (some entryLimit) tokens).result = (statements none tokens).result
  /-- All faults but surplus entries are those without a limit. -/
  others : (complaints tokens).filter (fun fault => !fault.cause.isSurplus) =
    complaintsWithin none tokens
  /-- Surplus entries are reported at the first token of each one beyond the limit. -/
  surplus : ((complaints tokens).filter fun fault => fault.cause.isSurplus).Perm
    ((course (some entryLimit) tokens).lists.flatMap (EntryList.surplus entryLimit))
  /-- Every list has as many of these reports as it has entries beyond the limit. -/
  counted : ∀ list ∈ (course (some entryLimit) tokens).lists,
    (list.surplus entryLimit).length = list.starts.length - entryLimit
  /-- If no other faults than these and bad targets come up, the tokens are a program exactly if
  no list has more entries than the limit and every target is a variable or a property. -/
  accepted : (∀ fault ∈ complaints tokens, fault.cause.isMild = true) →
    ((∃ result, program tokens = .ok result) ↔
      (∀ list ∈ (course (some entryLimit) tokens).lists, list.starts.length ≤ entryLimit) ∧
        ∀ target ∈ (course (some entryLimit) tokens).targets, target.isAssignable = true)

section

variable (limit : Option Nat) (tokens : List Token)

/-- A course records how a program is read. -/
theorem toStep_course : (course limit tokens).toStep = statements limit tokens := by
  show (Recorded.statements (tokens.length + 1)).reader limit [] tokens = _
  simp [Recorded.statements, statements, Parse.inside]

/-- The courses of reading a program are coherent. -/
theorem coherent_course : Coherent (fun _ => []) fun limit => course limit tokens :=
  (Recorded.statements (tokens.length + 1)).coherent [] tokens

/-- With every limit some statements are read. -/
theorem exists_result_course :
    ∃ body rest, (course limit tokens).result = .ok (body, rest) := by
  obtain ⟨reports, body, rest, read⟩ := exists_statements tokens
  have came : (course (some entryLimit) tokens).result = .ok (body, rest) := by
    rw [toStep_course, read]
  have same (limit : Option Nat) :
      (course limit tokens).result = (course none tokens).result := by
    rw [(coherent_course tokens).way limit]
  exact ⟨body, rest, by rw [same, ← same, came]⟩

/-- The faults of tokens are those that their course reports. -/
theorem complaintsWithin_eq : complaintsWithin limit tokens = (course limit tokens).reports := by
  obtain ⟨body, rest, came⟩ := exists_result_course limit tokens
  rw [toStep_course] at came ⊢
  unfold complaintsWithin programWithin
  generalize statements limit tokens = step at came ⊢
  obtain ⟨reports, result⟩ := step
  obtain rfl : result = _ := came
  cases reports with
  | nil => rfl
  | cons fault reports => rfl

/-- Tokens are a program exactly if their course reports nothing. -/
theorem exists_program_iff :
    (∃ result, program tokens = .ok result) ↔ (course (some entryLimit) tokens).reports = [] := by
  obtain ⟨reports, body, rest, read⟩ := exists_statements tokens
  rw [program_of_statements read, toStep_course, read]
  split
  next nothing => exact ⟨fun _ => nothing, fun _ => ⟨body, rfl⟩⟩
  next something => exact ⟨nofun, fun nothing => absurd nothing something⟩

end

/-- If nothing but surplus entries and bad targets is reported, nothing is exactly if there are
none. -/
theorem reports_eq_nil_iff (tokens : List Token)
    (mild : ∀ fault ∈ (course (some entryLimit) tokens).reports, fault.cause.isMild = true) :
    (course (some entryLimit) tokens).reports = [] ↔
      (∀ list ∈ (course none tokens).lists, list.starts.length ≤ entryLimit) ∧
        ∀ target ∈ (course none tokens).targets, target.isAssignable = true := by
  have coherent := coherent_course tokens
  obtain ⟨body, rest, came⟩ := exists_result_course none tokens
  have bad : ∀ fault ∈ (course none tokens).reports, fault.cause = .invalidAssignmentTarget := by
    intro fault listed
    rw [← coherent.others (some entryLimit), List.mem_filter] at listed
    exact FaultCause.eq_of_isMild (mild fault listed.1) (by simpa using listed.2)
  have surplus : (course none tokens).lists.flatMap (EntryList.surplus entryLimit) = [] ↔
      ∀ list ∈ (course none tokens).lists, list.starts.length ≤ entryLimit := by
    simp [List.flatMap_eq_nil_iff, EntryList.surplus_eq_nil_iff]
  rw [← coherent.settles bad _ came, ← surplus, ← coherent.others (some entryLimit)]
  have few := coherent.surplus entryLimit
  constructor
  · intro nothing
    rw [nothing] at few ⊢
    exact ⟨few.symm.eq_nil, rfl⟩
  · rintro ⟨kept, others⟩
    -- A report would be of a surplus entry or of something else, and there are none of either.
    rw [kept] at few
    refine List.eq_nil_iff_forall_not_mem.mpr fun fault listed => ?_
    have surplus := List.filter_eq_nil_iff.mp few.eq_nil fault listed
    have other := List.filter_eq_nil_iff.mp others fault listed
    cases kind : fault.cause.isSurplus with
    | true => exact surplus kind
    | false => exact other (by rw [kind]; rfl)

/-- The limit on the entries of lists only adds reports of surplus entries. -/
theorem limit_only_reports (tokens : List Token) : LimitOnlyReports tokens := by
  have coherent := coherent_course tokens
  have told : complaints tokens = (course (some entryLimit) tokens).reports :=
    complaintsWithin_eq (some entryLimit) tokens
  have lists : (course (some entryLimit) tokens).lists = (course none tokens).lists := by
    rw [coherent.way (some entryLimit)]
  have targets : (course (some entryLimit) tokens).targets = (course none tokens).targets := by
    rw [coherent.way (some entryLimit)]
  constructor
  case recorded => exact fun limit => toStep_course limit tokens
  case looks => rw [coherent.way (some entryLimit)]
  case lists => exact lists
  case targets => exact targets
  case result => rw [← toStep_course, ← toStep_course, coherent.way (some entryLimit)]
  case others => rw [told, complaintsWithin_eq, coherent.others]
  case surplus =>
    rw [told, lists]
    exact coherent.surplus entryLimit
  case counted => exact fun list _ => list.length_surplus entryLimit
  case accepted =>
    rw [told, exists_program_iff, lists, targets]
    exact reports_eq_nil_iff tokens

/-- A call with 256 constants as arguments, to which a constant is to be assigned. -/
def surplusCall : List Token :=
  Token.ofKinds ([.identifier "f", .mark .leftParen, .keyword .nilWord] ++
    (List.replicate 255 [.mark .comma, .keyword .nilWord]).flatten ++
    [.mark .rightParen, .mark .equal, .keyword .nilWord, .mark .semicolon, .endOfFile])

/-- Of the surplus argument and of the bad target one fault each is reported. -/
theorem limit_only_reports_call : LimitOnlyReports surplusCall ∧
    (course (some entryLimit) surplusCall).lists.map (fun list => list.starts.length) = [256] ∧
    (complaints surplusCall).map FaultOver.cause = [.tooManyArguments, .invalidAssignmentTarget] :=
  ⟨limit_only_reports surplusCall, by decide +kernel, by decide +kernel⟩

end Grammar

end KoreanLox
