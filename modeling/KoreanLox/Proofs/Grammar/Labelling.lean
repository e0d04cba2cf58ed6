import KoreanLox.Proofs.Grammar.Freshness
import KoreanLox.Proofs.Grammar.Naturality
import KoreanLox.Proofs.Token.Names

/-!
# Programs with labels

Drawing labels changes nothing else that reading comes to (`Grammar.labelled_cases`). Tokens that
are alike are read alike with labels from any two numbers on: the labels at one distance from the
two correspond, and as many are drawn (`Grammar.labelled_alike`). The labels of a program are fresh
(`Grammar.labelled_fresh`).
-/

namespace KoreanLox

/-- Labels correspond at one distance from two numbers. -/
def Correspondence.shifted (place : Span → Span → Prop) (start start' : Nat) :
    Correspondence Nat Nat :=
  ⟨fun first second => second + start = first + start', place⟩

/-- The labels that were drawn between two numbers correspond to themselves. -/
def Correspondence.drawn (place : Span → Span → Prop) (start finish : Nat) :
    Correspondence Nat Nat :=
  ⟨fun first second => second = first ∧ start ≤ first ∧ first < finish, place⟩

namespace SupplyPairing

/-- Supplies with the same tokens, whose labels are not compared. -/
def unlabelled (σ τ : Type) {ι κ : Type} [Supply σ ι] [Supply τ κ] : SupplyPairing σ τ where
  links := .anyLabels ι κ
  allowed := fun _ => True
  token := Eq
  alike := fun same => same ▸ ⟨rfl, rfl, fun _ _ => trivial⟩
  level := fun _ _ => True
  leave := fun _ _ _ => trivial
  label := fun _ => trivial
  draw := fun _ => trivial

/-- Supplies with tokens that are alike, from which as many labels were drawn. -/
def shifted (place : Span → Span → Prop) (allowed : String → Prop) (start start' : Nat) :
    SupplyPairing Numbered Numbered where
  links := .shifted place start start'
  allowed
  token := Token.Alike place allowed
  alike := id
  level := fun first second => second.next + start = first.next + start'
  leave := fun level _ _ => level
  label := id
  draw := fun {first second} level => by
    show second.next + 1 + start = first.next + 1 + start'
    omega

end SupplyPairing

/-- Faults of supplies with the same tokens are the same ones. -/
theorem SupplyPairing.Faults.plain_eq {σ τ ι κ : Type} [Supply σ ι] [Supply τ κ]
    {fault : FaultOver σ}
    {other : FaultOver τ} (same : (SupplyPairing.unlabelled σ τ).Faults fault other) :
    other.plain = fault.plain := by
  have tokens : Supply.tokens fault.rest = Supply.tokens other.rest :=
    List.forall₂_eq_eq_eq ▸ same.rest.tokens
  unfold FaultOver.plain
  rw [same.cause, same.path, tokens]

/-- Faults of supplies with tokens that are alike are alike. -/
theorem SupplyPairing.Faults.plain_alike {place : Span → Span → Prop} {allowed : String → Prop}
    {start start' : Nat} {fault other : FaultOver Numbered}
    (same : (SupplyPairing.shifted place allowed start start').Faults fault other) :
    Fault.Alike place allowed fault.plain other.plain :=
  ⟨same.cause, same.path, same.rest.tokens⟩

namespace Grammar

/-- The same tokens are supplies whose labels are not compared. -/
theorem unlabelled_supplies (tokens : List Token) (next : Nat) :
    (SupplyPairing.unlabelled (List Token) Numbered).Supplies tokens ⟨tokens, next⟩ :=
  ⟨trivial, List.forall₂_same.mpr fun _ _ => rfl⟩

/-- The branches and bodies of loops of a program declare nothing. -/
theorem tidy_of_program {tokens : List Token} {raw : Program Unit}
    (parsed : program tokens = .ok raw) : Stmt.TidyAll (fun _ => True) raw := by
  rcases conclude_alike (statements_alike (some entryLimit) (unlabelled_supplies tokens 0)) with
    ⟨found, _, same, -, -, tidy⟩ | ⟨_, _, failed, -⟩
  · obtain rfl : raw = found := Except.ok.inj (parsed.symm.trans same)
    exact tidy
  · cases parsed.symm.trans failed

/-- With labels the same is read as without: a program that differs in its labels only, or the same
faults. -/
theorem labelled_cases (tokens : List Token) (next : Nat) :
    (∃ raw result, program tokens = .ok raw ∧ (labelled tokens next).1 = .ok result ∧
        Stmt.AgreesAll (.anyLabels Unit Nat) raw result) ∨
      ∃ faults, program tokens = .error faults ∧ (labelled tokens next).1 = .error faults := by
  rcases conclude_alike (statements_alike (some entryLimit) (unlabelled_supplies tokens next)) with
    ⟨raw, result, read, read', agree, -⟩ | ⟨faults, faults', read, read', alike⟩
  · refine .inl ⟨raw, result, read, ?_, agree⟩
    simp only [labelled, read', Except.mapError]
  · refine .inr ⟨faults, read, ?_⟩
    have equal : List.Forall₂ Eq (faults'.map FaultOver.plain) faults :=
      List.forall₂_map_left_iff.mpr (alike.flip.imp fun _ _ same => same.plain_eq)
    rw [List.forall₂_eq_eq_eq] at equal
    simp only [labelled, read', Except.mapError, equal]

/-- What is a program with labels is one without. -/
theorem exists_program_of_labelled {tokens : List Token} {next after : Nat} {result : Program Nat}
    (read : labelled tokens next = (.ok result, after)) :
    ∃ raw, program tokens = .ok raw ∧ Stmt.AgreesAll (.anyLabels Unit Nat) raw result := by
  rcases labelled_cases tokens next with ⟨raw, found, parsed, same, agree⟩ | ⟨faults, -, failed⟩
  · rw [read] at same
    obtain rfl : result = found := Except.ok.inj same
    exact ⟨raw, parsed, agree⟩
  · rw [read] at failed
    cases failed

/-- What is a program is one with labels. -/
theorem exists_labelled_of_program {tokens : List Token} {raw : Program Unit}
    (parsed : program tokens = .ok raw) (next : Nat) :
    ∃ result after, labelled tokens next = (.ok result, after) ∧
      Stmt.AgreesAll (.anyLabels Unit Nat) raw result := by
  rcases labelled_cases tokens next with ⟨found, result, same, read, agree⟩ | ⟨faults, failed, -⟩
  · obtain rfl : raw = found := Except.ok.inj (parsed.symm.trans same)
    exact ⟨result, _, Prod.ext read rfl, agree⟩
  · rw [parsed] at failed
    cases failed

/-- Tokens that are alike are read alike with labels from any two numbers on: as programs that agree
in the labels at one distance from the two, or with faults that are alike. As many labels are drawn
either way. -/
theorem labelled_alike {place : Span → Span → Prop} {allowed : String → Prop}
    {tokens others : List Token} (same : Token.AlikeAll place allowed tokens others)
    (next next' : Nat) :
    (labelled others next').2 + next = (labelled tokens next).2 + next' ∧
      ((∃ result result', (labelled tokens next).1 = .ok result ∧
          (labelled others next').1 = .ok result' ∧
          Stmt.AgreesAll (.shifted place next next') result result' ∧
            Stmt.TidyAll allowed result) ∨
        ∃ faults faults', (labelled tokens next).1 = .error faults ∧
          (labelled others next').1 = .error faults' ∧
          List.Forall₂ (Fault.Alike place allowed) faults faults') := by
  have supplies : (SupplyPairing.shifted place allowed next next').Supplies
      (⟨tokens, next⟩ : Numbered) ⟨others, next'⟩ := ⟨Nat.add_comm next' next, same⟩
  have alike := statements_alike (some entryLimit) supplies
  refine ⟨(left_alike alike).level, ?_⟩
  rcases conclude_alike alike with
    ⟨result, result', read, read', agree, tidy⟩ | ⟨faults, faults', read, read', alike⟩
  · refine .inl ⟨result, result', ?_, ?_, agree, tidy⟩
    · simp only [labelled, read, Except.mapError]
    · simp only [labelled, read', Except.mapError]
  · refine .inr ⟨faults.map FaultOver.plain, faults'.map FaultOver.plain, ?_, ?_, ?_⟩
    · simp only [labelled, read, Except.mapError]
    · simp only [labelled, read', Except.mapError]
    · rw [List.forall₂_map_left_iff, List.forall₂_map_right_iff]
      exact alike.imp fun _ _ same => same.plain_alike

/-- The labels of a program are distinct, and they were drawn between two numbers; the second one is
not below the first, whatever reading comes to. -/
theorem labelled_fresh (tokens : List Token) (next : Nat) :
    next ≤ (labelled tokens next).2 ∧ ∀ result, (labelled tokens next).1 = .ok result →
      Fresh next (labelled tokens next).2 (Program.labels result) := by
  have drawn := statements_drawn (some entryLimit) ⟨tokens, next⟩
  simp only [Program.labels_eq]
  unfold labelled
  generalize statements (some entryLimit) (⟨tokens, next⟩ : Numbered) = step at drawn
  cases drawn with
  | @fault reports fault grown =>
    refine ⟨grown, fun result read => ?_⟩
    cases reports <;> cases read
  | @value reports value rest grown fresh =>
    refine ⟨grown, fun result read => ?_⟩
    cases reports with
    | nil =>
      obtain rfl : value = result := Except.ok.inj read
      exact fresh
    | cons fault reports => cases read

/-- Tokens that are alike are read alike with labels from one number on: a program and the one that
it agrees with have the labels that were drawn, at the same nodes. -/
theorem labelled_moved {place : Span → Span → Prop} {allowed : String → Prop}
    {tokens others : List Token} (same : Token.AlikeAll place allowed tokens others)
    {next after : Nat} {result : Program Nat} (read : labelled tokens next = (.ok result, after)) :
    ∃ result', labelled others next = (.ok result', after) ∧
      Stmt.AgreesAll (.drawn place next after) result result' ∧ Stmt.TidyAll allowed result := by
  have fresh := (labelled_fresh tokens next).2 result
  have alike := labelled_alike same next next
  rw [read] at fresh alike
  obtain ⟨drawn, ⟨found, result', same, read', agree, tidy⟩ | ⟨_, _, failed, -⟩⟩ := alike
  · obtain rfl : result = found := Except.ok.inj same
    have places : (Correspondence.shifted place next next).Places (.drawn place next after) :=
      fun _ _ placed => placed
    refine ⟨result', Prod.ext read' (Nat.add_right_cancel drawn), ?_, tidy⟩
    refine agree.replace places fun label listed other linked => ?_
    have known := Program.labels_eq result ▸ fresh rfl
    exact ⟨Nat.add_right_cancel linked, known.above label listed, known.below label listed⟩
  · cases failed

end Grammar

/-- What was read from a scan is admitted if there is no error among the tokens. -/
theorem Scan.accept_eq_ok_iff {α : Type} {scan : Scan} {read : Except (List Fault) α} {value : α} :
    scan.accept read = .ok value ↔ read = .ok value ∧ scan.errors = [] := by
  cases read with
  | error faults => simp [Scan.accept]
  | ok found =>
    unfold Scan.accept
    cases scan.errors with
    | nil => simp
    | cons error rest => simp

namespace Program

/-- A text is a program if its tokens are and there is no error among them. -/
theorem ofSource_eq_ok_iff {source : String} {program : Program Unit} :
    ofSource source = .ok program ↔
      Grammar.program (Scan.ofSource source).tokens = .ok program ∧
        (Scan.ofSource source).errors = [] :=
  Scan.accept_eq_ok_iff

section

variable {source : String} {next after : Nat} {program : Program Nat}

/-- A text is a program with labels if its tokens are and there is no error among them. -/
theorem labelled_eq_ok_iff :
    labelled source next = (.ok program, after) ↔
      Grammar.labelled (Scan.ofSource source).tokens next = (.ok program, after) ∧
        (Scan.ofSource source).errors = [] := by
  rw [Prod.ext_iff, Prod.ext_iff]
  refine (and_congr_left fun _ => Scan.accept_eq_ok_iff).trans ?_
  exact and_right_comm

/-- What is read from a text without lexical errors is what is read from its tokens. -/
theorem labelled_of_faultless (right : (Scan.ofSource source).errors = []) (next : Nat) :
    labelled source next =
      ((Grammar.labelled (Scan.ofSource source).tokens next).1.mapError (SyntaxErrors.mk []),
        (Grammar.labelled (Scan.ofSource source).tokens next).2) := by
  unfold labelled
  dsimp only
  cases (Grammar.labelled (Scan.ofSource source).tokens next).1 <;>
    simp [Scan.accept, right, Except.mapError]

/-- With labels the same is read from a text as without: a program that differs in its labels only,
or the same errors. -/
theorem labelled_cases (source : String) (next : Nat) :
    (∃ raw program, ofSource source = .ok raw ∧ (labelled source next).1 = .ok program ∧
        Stmt.AgreesAll (.anyLabels Unit Nat) raw program) ∨
      ∃ errors, ofSource source = .error errors ∧ (labelled source next).1 = .error errors := by
  unfold ofSource labelled
  dsimp only
  rcases Grammar.labelled_cases (Scan.ofSource source).tokens next with
    ⟨raw, program, read, read', agree⟩ | ⟨faults, read, read'⟩
  · rw [read, read']
    unfold Scan.accept
    dsimp only
    split
    next => exact .inl ⟨raw, program, rfl, rfl, agree⟩
    next => exact .inr ⟨_, rfl, rfl⟩
  · rw [read, read']
    exact .inr ⟨_, rfl, rfl⟩

/-- A text that is a program is one with labels. -/
theorem exists_labelled_of_ofSource {raw : Program Unit} (read : ofSource source = .ok raw)
    (next : Nat) :
    ∃ program after, labelled source next = (.ok program, after) ∧
      Stmt.AgreesAll (.anyLabels Unit Nat) raw program := by
  obtain ⟨parsed, right⟩ := ofSource_eq_ok_iff.mp read
  obtain ⟨program, after, drawn, agree⟩ := Grammar.exists_labelled_of_program parsed next
  exact ⟨program, after, labelled_eq_ok_iff.mpr ⟨drawn, right⟩, agree⟩

/-- A text that is refused is so with labels, for the same errors. -/
theorem labelled_of_refused {errors : SyntaxErrors} (refused : ofSource source = .error errors)
    (next : Nat) : (labelled source next).1 = .error errors := by
  rcases labelled_cases source next with ⟨raw, _, read, -⟩ | ⟨found, read, failed⟩
  · cases refused.symm.trans read
  · obtain rfl : errors = found := Except.error.inj (refused.symm.trans read)
    exact failed

/-- With labels from another number on the same program is read from a text, with labels at one
distance, and as many are drawn. -/
theorem labelled_shifted (read : labelled source next = (.ok program, after)) (next' : Nat) :
    ∃ program' after', labelled source next' = (.ok program', after') ∧
      after' + next = after + next' ∧ Stmt.AgreesAll (.shifted Eq next next') program program' := by
  obtain ⟨drawn, right⟩ := labelled_eq_ok_iff.mp read
  have same : Token.AlikeAll Eq (fun _ => True) (Scan.ofSource source).tokens
      (Scan.ofSource source).tokens :=
    List.forall₂_same.mpr fun _ _ => ⟨rfl, rfl, fun _ _ => trivial⟩
  have alike := Grammar.labelled_alike same next next'
  rw [drawn] at alike
  obtain ⟨even, ⟨found, program', equal, drawn', agree, -⟩ | ⟨_, _, failed, -⟩⟩ := alike
  · obtain rfl : program = found := Except.ok.inj equal
    exact ⟨program', _, labelled_eq_ok_iff.mpr ⟨Prod.ext drawn' rfl, right⟩, even, agree⟩
  · cases failed

/-- Labels are drawn upwards, whatever reading comes to. -/
theorem le_labelled (source : String) (next : Nat) : next ≤ (labelled source next).2 :=
  (Grammar.labelled_fresh _ next).1

/-- The labels of a program that is read from a text are fresh. -/
theorem fresh_of_labelled (read : labelled source next = (.ok program, after)) :
    Fresh next after program.labels := by
  have tokens := (labelled_eq_ok_iff.mp read).1
  have fresh := (Grammar.labelled_fresh (Scan.ofSource source).tokens next).2 program
  rw [tokens] at fresh
  exact fresh rfl

/-- A program that is read from a text has ordinary names only, the places of its tokens and the
labels that were drawn. -/
theorem tidy_of_labelled (read : labelled source next = (.ok program, after))
    {place : Span → Span → Prop}
    (kept : ∀ token ∈ (Scan.ofSource source).tokens, place token.span token.span) :
    Stmt.AgreesAll (.drawn place next after) program program ∧ Stmt.TidyAll Ordinary program := by
  have parsed := (labelled_eq_ok_iff.mp read).1
  have same : Token.AlikeAll place Ordinary (Scan.ofSource source).tokens
      (Scan.ofSource source).tokens :=
    List.forall₂_same.mpr fun token listed =>
      ⟨rfl, kept token listed, fun _ named => Scan.names_ordinary source listed named⟩
  obtain ⟨other, again, alike⟩ := Grammar.labelled_moved same parsed
  obtain rfl : program = other := by simpa using parsed.symm.trans again
  exact alike

end

end Program

end KoreanLox
