import KoreanLox.Proofs.Grammar.Labelling
import KoreanLox.Proofs.Grammar.Locality
import KoreanLox.Proofs.Grammar.Totality
import KoreanLox.Proofs.Token.Joining

/-!
# Programs one below the other

Every declaration ends with its own last token, so that the declarations of two programs in a row
are those of the one and then those of the other, with the labels that are drawn one program after
the other (`Grammar.labelled_append`). Hence a text that is a program, with another one below it, is
the one program and then the other where it stands (`Program.labelled_joined`), and where a program
stands makes no difference but to its places (`Program.labelled_down`).
-/

namespace KoreanLox

/-- Declarations of one program and then of another one are a program. -/
theorem DerivesProgram.append {first second : List Token} {early late : Program Unit}
    (one : DerivesProgram first early) (other : DerivesProgram second late) :
    DerivesProgram (first ++ second) (early ++ late) := by
  obtain ⟨entries, derived, rfl, rfl⟩ := one
  obtain ⟨more, further, rfl, rfl⟩ := other
  exact ⟨entries ++ more, List.forall_mem_append.mpr ⟨derived, further⟩, by simp, by simp⟩

/-- A program holds no end of the text. -/
theorem DerivesProgram.unended {tokens : List Token} {program : Program Unit}
    (derived : DerivesProgram tokens program) : Unended tokens := by
  obtain ⟨entries, all, rfl, -⟩ := derived
  exact .flatten (.entries fun entry listed => (all entry listed).unended)

open Parse

namespace Grammar

/-- The program of tokens with the end after them is derived from all these tokens. -/
theorem derives_of_program {tokens : List Token} {last : Token} {result : Program Unit}
    (unended : Unended tokens) (ends : last.kind = .endOfFile)
    (read : program (tokens ++ [last]) = .ok result) : DerivesProgram tokens result := by
  obtain ⟨used, rest, same, derived, ended⟩ := program_eq_ok_iff.mp read
  obtain rfl : tokens = used := by
    rcases List.append_eq_append_iff.mp same with ⟨more, rfl, single⟩ | ⟨more, rfl, rfl⟩
    -- The tokens of the program do not go beyond the end.
    · cases more with
      | nil => exact (List.append_nil _).symm
      | cons token more =>
        obtain rfl : last = token := (List.cons.inj single).1
        exact absurd ends (derived.unended last (by simp))
    -- They do not stop before it either.
    · cases more with
      | nil => exact List.append_nil _
      | cons token more =>
        have proper := Token.proper_of_kind (unended token (by simp))
        have improper := atEnd_iff.mp ended token rfl
        rw [proper] at improper
        cases improper
  exact derived

/-- The tokens of a program without their end, followed by those of another one, are the one program
and then the other. -/
theorem program_append {tokens others : List Token} {last : Token} {early late : Program Unit}
    (unended : Unended tokens) (ends : last.kind = .endOfFile)
    (read : program (tokens ++ [last]) = .ok early) (further : program others = .ok late) :
    program (tokens ++ others) = .ok (early ++ late) := by
  have derived := derives_of_program unended ends read
  obtain ⟨used, rest, rfl, more, ended⟩ := program_eq_ok_iff.mp further
  refine program_eq_ok_iff.mpr ⟨tokens ++ used, rest, ?_, derived.append more, ended⟩
  exact (List.append_assoc _ _ _).symm

/-- No program goes on from a statement before it. -/
theorem not_begins_else {tokens : List Token} {result : Program Unit}
    (read : program tokens = .ok result) : ¬ Begins (.keyword .elseWord) tokens := by
  obtain ⟨used, rest, rfl, ⟨entries, all, rfl, -⟩, ended⟩ := program_eq_ok_iff.mp read
  intro begins
  cases entries with
  | nil =>
    obtain ⟨token, first, written⟩ := begins
    have improper := atEnd_iff.mp ended token first
    rw [Token.proper_of_kind (by rw [written]; exact fun same => by cases same)] at improper
    cases improper
  | cons entry entries =>
    obtain ⟨⟨kind, lexeme, span⟩, more, same, opens⟩ := (all entry List.mem_cons_self).opens
    rw [List.map_cons, List.flatten_cons, same, List.cons_append, List.cons_append,
      begins_cons] at begins
    subst begins
    cases opens

/-! ## Labels -/

section

variable {σ ι : Type} [Supply σ ι] {rules : Rules σ ι} {path : List Production} {supply rest : σ}
  {result : List (Stmt ι)}

/-- Declarations that were read before stand in front of those of a program. -/
theorem takes_program_behind (before : List (Stmt ι)) {rounds : Nat} {body : List (Stmt ι)}
    (taken : (iterate (programLink rules) rounds body).Takes path supply result rest) :
    (iterate (programLink rules) rounds (body ++ before)).Takes path supply
      (before.reverse ++ result) rest := by
  induction rounds generalizing body supply with
  | zero => exact absurd taken takes_stop
  | succ rounds ih =>
    rcases takes_iterate_succ.mp taken with ended | ⟨body', middle, made, further⟩
    · refine takes_iterate_succ.mpr (.inl ?_)
      rcases takes_programLink.mp ended with ⟨atEnd, same, rfl⟩ | ⟨-, statement, -, same⟩
      · cases same
        exact takes_programLink.mpr (.inl ⟨atEnd, by rw [List.reverse_append], rfl⟩)
      · cases same
    · rcases takes_programLink.mp made with ⟨-, same, -⟩ | ⟨going, statement, read, same⟩
      · cases same
      · cases same
        have made : (programLink rules (body ++ before)).Takes path supply
            (.inl (statement :: body ++ before)) middle :=
          takes_programLink.mpr (.inr ⟨going, statement, read, rfl⟩)
        exact takes_iterate_succ.mpr (.inr ⟨_, middle, made, ih further⟩)

end

section

variable {seam : Seam} {first second : Rules Numbered Nat} {path : List Production}

/-- A program leaves the last ones of its tokens. -/
theorem suffix_of_takes (carry : RulesCarry seam first second) {rounds : Nat}
    {body result : List (Stmt Nat)} {supply rest : Numbered}
    (taken : (iterate (programLink first) rounds body).Takes path supply result rest) :
    rest.left <:+ supply.left := by
  induction rounds generalizing body supply with
  | zero => exact absurd taken takes_stop
  | succ rounds ih =>
    rcases takes_iterate_succ.mp taken with ended | ⟨body', middle, made, further⟩
    · rcases takes_programLink.mp ended with ⟨-, -, rfl⟩ | ⟨-, statement, -, same⟩
      · exact List.suffix_refl _
      · cases same
    · rcases takes_programLink.mp made with ⟨-, same, -⟩ | ⟨-, statement, read, -⟩
      · cases same
      · exact (ih further).trans (carry.declaration.suffix read)

/-- A program that is read up to its end, and one that is read from what stands in place of the end
with the declarations of the first one before it, are read as one. -/
theorem takes_program_onward (carry : RulesCarry seam first second) {rounds others : Nat}
    {body result whole : List (Stmt Nat)} {tokens : List Token} {next later : Nat}
    {rest : Numbered}
    (taken : (iterate (programLink first) rounds body).Takes path ⟨tokens ++ [seam.last], next⟩
      result ⟨[seam.last], later⟩)
    (further : (iterate (programLink second) others result.reverse).Takes path
      ⟨seam.beyond, later⟩ whole rest) :
    (iterate (programLink second) (rounds + others) body).Takes path
      ⟨tokens ++ seam.beyond, next⟩ whole rest := by
  induction rounds generalizing body tokens next with
  | zero => exact absurd taken takes_stop
  | succ rounds ih =>
    rcases takes_iterate_succ.mp taken with ended | ⟨body', middle, made, onward⟩
    · rcases takes_programLink.mp ended with ⟨-, same, kept⟩ | ⟨-, statement, -, same⟩
      · cases same
        obtain ⟨same, rfl⟩ := Numbered.mk.inj kept
        obtain rfl : tokens = [] := List.append_left_eq_self.mp same
        rw [List.reverse_reverse] at further
        exact further.iterate_more (Nat.le_add_left others (rounds + 1))
      · cases same
    · rcases takes_programLink.mp made with ⟨-, same, -⟩ | ⟨going, statement, read, same⟩
      · cases same
      · cases same
        -- The declaration leaves the end, so that it reads the same where others stand instead.
        obtain ⟨middle, between⟩ := middle
        obtain ⟨fewer, rfl⟩ := suffix_of_takes carry onward
        obtain ⟨inside, read⟩ := carry.declaration.carry read trivial
        have going : atEnd (tokens ++ seam.beyond) = false :=
          (inside.atEnd_eq _ _).trans going
        rw [Nat.succ_add]
        refine takes_iterate_succ.mpr (.inr ⟨_, _, ?_, ih onward⟩)
        exact takes_programLink.mpr (.inr ⟨going, statement, read, rfl⟩)

end

section

variable {tokens others : List Token} {last : Token} {next middle after : Nat}
  {result early late : Program Nat}

/-- A program with labels is read where its declarations are taken without reports. -/
theorem labelled_eq_ok_iff_takes :
    labelled tokens next = (.ok result, after) ↔
      ∃ left, (iterate (programLink (rules (some entryLimit) (tokens.length + 1)
        (tokens.length + 1))) (tokens.length + 1) []).Takes [.program] (⟨tokens, next⟩ : Numbered)
          result ⟨left, after⟩ := by
  change (_, (Grammar.left (statements (some entryLimit) (⟨tokens, next⟩ : Numbered))).next) = _ ↔
    ∃ left, statements (some entryLimit) (⟨tokens, next⟩ : Numbered) =
      ⟨[], .ok (result, ⟨left, after⟩)⟩
  generalize statements (some entryLimit) (⟨tokens, next⟩ : Numbered) = step
  obtain ⟨_ | ⟨fault, reports⟩, stopped | ⟨found, left, later⟩⟩ := step <;>
    simp [conclude, Grammar.left, Except.mapError]

/-- A program whose last token is an end is read up to it, whatever bound there is above the number
of its tokens. -/
theorem takes_of_labelled (unended : Unended tokens) (ends : last.kind = .endOfFile)
    (read : labelled (tokens ++ [last]) next = (.ok result, after)) {bound : Nat}
    (enough : (tokens ++ [last]).length + 1 ≤ bound) :
    ∃ rounds, (iterate (programLink (rules (some entryLimit) bound bound)) rounds []).Takes
      [.program] (⟨tokens ++ [last], next⟩ : Numbered) result ⟨[last], after⟩ := by
  obtain ⟨left, taken⟩ := labelled_eq_ok_iff_takes.mp read
  -- As many tokens are left as without labels.
  obtain rfl : left = [last] := by
    have alike := (left_alike (statements_alike (some entryLimit)
      (unlabelled_supplies (tokens ++ [last]) next))).tokens
    obtain ⟨body, rest, raw, behind, ended⟩ := statements_ended (tokens ++ [last])
    have numbered : statements (some entryLimit) (⟨tokens ++ [last], next⟩ : Numbered) =
        ⟨[], .ok (result, ⟨left, after⟩)⟩ := taken
    rw [Grammar.left, raw, numbered] at alike
    obtain rfl : rest = left := List.forall₂_eq_eq_eq ▸ alike
    exact behind.eq_of_atEnd unended ends ended
  let seam : Seam := ⟨last, ends, [last], by simp [ends]⟩
  have carry :
      RulesCarry seam (rules (some entryLimit) _ _) (rules (some entryLimit) bound bound) :=
    rules_carry seam (some entryLimit) enough enough
  have ended : (iterate (programLink (rules (some entryLimit) bound bound)) 1 result.reverse).Takes
      [.program] (⟨[last], after⟩ : Numbered) result ⟨[last], after⟩ := by
    refine takes_iterate_succ.mpr (.inl (takes_programLink.mpr (.inl ⟨?_, ?_, rfl⟩)))
    · exact atEnd_iff.mpr fun token first => by
        obtain rfl : last = token := Option.some.inj first
        rw [Token.proper, ends]
    · rw [List.reverse_reverse]
  exact ⟨_, takes_program_onward carry taken ended⟩

/-- The tokens of a program without their end, followed by those of another one whose labels are
drawn after those of the first, are the one program and then the other, with these labels. -/
theorem labelled_append {rest : List Token} {final : Token} (unended : Unended tokens)
    (ends : last.kind = .endOfFile) (proper : Unended rest) (stops : final.kind = .endOfFile)
    (read : labelled (tokens ++ [last]) next = (.ok early, middle))
    (further : labelled (rest ++ [final]) middle = (.ok late, after)) :
    labelled (tokens ++ (rest ++ [final])) next = (.ok (early ++ late), after) := by
  obtain ⟨raw, begun, -⟩ := exists_program_of_labelled read
  obtain ⟨raw', ended, -⟩ := exists_program_of_labelled further
  -- The program is read, since it is without labels.
  obtain ⟨whole, later, joined, -⟩ :=
    exists_labelled_of_program (program_append unended ends begun ended) next
  let bound := tokens.length + rest.length + 2
  have both : (tokens ++ rest ++ [final]).length + 1 ≤ bound := by
    simp only [bound, List.length_append, List.length_singleton]
    omega
  have one : (tokens ++ [last]).length + 1 ≤ bound := by simp [bound]
  have other : (rest ++ [final]).length + 1 ≤ bound := by simp [bound]
  rw [← List.append_assoc] at joined ⊢
  obtain ⟨rounds, first⟩ := takes_of_labelled unended ends read one
  obtain ⟨more, second⟩ := takes_of_labelled proper stops further other
  obtain ⟨enough, all⟩ := takes_of_labelled (Unended.append.mpr ⟨unended, proper⟩) stops joined both
  have onward := takes_program_onward
    (rules_carry ⟨last, ends, rest ++ [final], not_begins_else ended⟩ _ (Nat.le_refl bound)
      (Nat.le_refl bound)) first (takes_program_behind early.reverse second)
  rw [List.reverse_reverse, ← List.append_assoc] at onward
  have same := (all.iterate_more (Nat.le_add_right enough (rounds + more))).symm.trans
    (onward.iterate_more (Nat.le_add_left (rounds + more) enough))
  obtain ⟨rfl, kept⟩ : whole = early ++ late ∧ _ := by simpa using same
  rw [joined, kept]

end

end Grammar

namespace Program

/-- A program some lines further down is read with the same labels, and differs in places only: its
tokens stand as many lines further down. -/
theorem labelled_down {source : String} {next after : Nat} {program : Program Nat}
    (read : labelled source next = (.ok program, after)) (lines : Nat) {place : Span → Span → Prop}
    (moved : ∀ token ∈ (Scan.ofSource source).tokens, place token.span (token.span.down lines)) :
    ∃ below, labelled (Text.down source lines) next = (.ok below, after) ∧
      Stmt.AgreesAll (.drawn place next after) program below ∧ Stmt.TidyAll Ordinary program := by
  obtain ⟨parsed, right⟩ := labelled_eq_ok_iff.mp read
  obtain ⟨tokens, errors⟩ := Scan.ofSource_down source lines
  have same : Token.AlikeAll place Ordinary (Scan.ofSource source).tokens
      (Scan.ofSource (Text.down source lines)).tokens := by
    rw [tokens]
    exact List.forall₂_map_right_iff.mpr <| List.forall₂_same.mpr fun token listed =>
      ⟨rfl, moved token listed, fun _ named => Scan.names_ordinary source listed named⟩
  obtain ⟨below, again, alike⟩ := Grammar.labelled_moved same parsed
  refine ⟨below, labelled_eq_ok_iff.mpr ⟨again, ?_⟩, alike⟩
  rw [← List.length_eq_zero_iff, errors, right]
  rfl

/-- A program below another one is read after it as where it stands, with the labels that follow.
-/
theorem labelled_joined {first second : String} {next middle after : Nat} {early late : Program Nat}
    (read : labelled first next = (.ok early, middle))
    (further : labelled (Text.down second (first.toList.count '\n' + 1)) middle =
      (.ok late, after)) :
    labelled (first ++ "\n" ++ second) next = (.ok (early ++ late), after) := by
  obtain ⟨parsed, right⟩ := labelled_eq_ok_iff.mp read
  obtain ⟨later, faultless⟩ := labelled_eq_ok_iff.mp further
  obtain ⟨tokens, last, unended, ends, whole, joined, errors⟩ := Scan.ofSource_joined right second
  obtain ⟨others, final, proper, stops, ended⟩ := Scan.tokens_ended faultless
  rw [whole] at parsed
  rw [ended] at later joined
  refine labelled_eq_ok_iff.mpr ⟨?_, ?_⟩
  · rw [joined]
    exact Grammar.labelled_append unended ends proper stops parsed later
  · rw [← List.length_eq_zero_iff, errors, faultless]
    rfl

end Program

end KoreanLox
