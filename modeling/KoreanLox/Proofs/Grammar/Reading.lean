import KoreanLox.Proofs.Grammar.Derivation

/-!
# Readings without reports

A reader takes a value from the front of some tokens if it comes to that value and reports nothing
(`Parse.Takes`). For every way to combine readers there is an equivalence that says what the
combination takes, so that readers are judged by what their parts take.
-/

namespace KoreanLox

namespace Parse

variable {α β σ τ : Type}

/-- A reader comes to a value, leaves a rest of its supply and reports nothing. -/
def Takes (reader : Parse σ α) (path : List Production) (supply : σ) (value : α) (rest : σ) :
    Prop :=
  reader path supply = ⟨[], .ok (value, rest)⟩

/-- The first of some tokens is of a kind. -/
def Begins (kind : Kind) (tokens : List Token) : Prop :=
  ∃ token ∈ tokens.head?, token.kind = kind

/-- Tokens with a first one begin with its kind. -/
@[simp]
theorem begins_cons (kind : Kind) (token : Token) (rest : List Token) :
    Begins kind (token :: rest) ↔ token.kind = kind := by
  simp [Begins]

/-- No tokens begin with nothing. -/
@[simp]
theorem not_begins_nil (kind : Kind) : ¬ Begins kind [] := by
  simp [Begins]

section

variable {path : List Production} {supply rest : σ}

/-- Reading nothing takes the value that is given. -/
theorem takes_pure {value result : α} :
    Takes (pure value) path supply result rest ↔ value = result ∧ supply = rest := by
  change (⟨[], .ok (value, supply)⟩ : Step σ α) = ⟨[], .ok (result, rest)⟩ ↔ _
  simp

/-- A reading that goes on after another one reports nothing if neither of them does. -/
theorem quiet_iff {reports : List (FaultOver σ)} {later : Step σ α}
    {result : Except (FaultOver σ) (α × σ)} :
    (⟨reports ++ later.reports, later.result⟩ : Step σ α) = ⟨[], result⟩ ↔
      reports = [] ∧ later = ⟨[], result⟩ := by
  obtain ⟨reports', result'⟩ := later
  simp [and_assoc]

/-- Readers in sequence take what the second takes after the first. -/
theorem takes_bind {first : Parse σ α} {next : α → Parse σ β} {result : β} :
    Takes (first >>= next) path supply result rest ↔
      ∃ value middle, first.Takes path supply value middle ∧
        (next value).Takes path middle result rest := by
  change first.andThen next path supply = _ ↔ _
  unfold Parse.andThen Takes
  obtain ⟨reports, fault | ⟨value, middle⟩⟩ := first path supply
  · simp
  · rw [quiet_iff]
    simp only [Step.mk.injEq, Except.ok.injEq, Prod.mk.injEq]
    constructor
    · rintro ⟨quiet, ended⟩
      exact ⟨value, middle, ⟨quiet, rfl, rfl⟩, ended⟩
    · rintro ⟨_, _, ⟨quiet, rfl, rfl⟩, ended⟩
      exact ⟨quiet, ended⟩

/-- After a reading without reports, readers in sequence come to what the second comes to. -/
theorem Takes.bind_eq {first : Parse σ α} {next : α → Parse σ β} {value : α} {middle : σ}
    (taken : first.Takes path supply value middle) :
    (first >>= next) path supply = next value path middle := by
  change first.andThen next path supply = _
  unfold Parse.andThen
  rw [taken]
  rfl

/-- Reading inside a production is reading on a longer path. -/
theorem takes_inside {production : Production} {reader : Parse σ α} {result : α} :
    Takes (inside production reader) path supply result rest ↔
      reader.Takes (production :: path) supply result rest := Iff.rfl

/-- Stopping takes nothing. -/
theorem takes_stop {cause : FaultCause} {result : α} :
    ¬ Takes (stop cause) path supply result rest := by
  simp [Takes, stop]

/-- What is left stays as it is. -/
theorem takes_remaining {found : σ} :
    Takes remaining path supply found rest ↔ supply = found ∧ supply = rest := by
  simp [Takes, remaining]

/-- A report is no reading without reports. -/
theorem takes_reportAt {cause : FaultCause} {place : σ} {result : Unit} :
    ¬ Takes (reportAt cause place) path supply result rest := by
  simp [Takes, reportAt]

/-- Looking at what is left does not change what is read. -/
theorem takes_remaining_bind {next : σ → Parse σ α} {result : α} :
    Takes (remaining >>= next) path supply result rest ↔
      (next supply).Takes path supply result rest := by
  simp [takes_bind, takes_remaining, and_assoc]

/-- Repeated steps take what the first step takes and then the others. -/
theorem takes_iterate_succ {step : τ → Parse σ (τ ⊕ α)} {rounds : Nat} {state : τ} {result : α} :
    Takes (iterate step (rounds + 1) state) path supply result rest ↔
      (step state).Takes path supply (.inr result) rest ∨
        ∃ next middle, (step state).Takes path supply (.inl next) middle ∧
          (iterate step rounds next).Takes path middle result rest := by
  unfold Takes
  conv_lhs => rw [iterate]
  dsimp only
  obtain ⟨reports, fault | ⟨next | value, middle⟩⟩ := step state path supply
  · simp
  · rw [quiet_iff]
    simp only [Step.mk.injEq, Except.ok.injEq, Prod.mk.injEq, reduceCtorEq, false_and, and_false,
      false_or, Sum.inl.injEq]
    constructor
    · rintro ⟨quiet, ended⟩
      exact ⟨next, middle, ⟨quiet, rfl, rfl⟩, ended⟩
    · rintro ⟨_, _, ⟨quiet, rfl, rfl⟩, ended⟩
      exact ⟨quiet, ended⟩
  · simp

/-- Steps that come to a value do so within every larger number of rounds. -/
theorem Takes.iterate_more {step : τ → Parse σ (τ ⊕ α)} {rounds more : Nat} {state : τ} {result : α}
    (taken : Takes (iterate step rounds state) path supply result rest) (enough : rounds ≤ more) :
    Takes (iterate step more state) path supply result rest := by
  induction rounds generalizing more state supply with
  | zero => exact absurd taken takes_stop
  | succ rounds ih =>
    obtain ⟨more, rfl⟩ : ∃ fewer, more = fewer + 1 := Nat.exists_eq_succ_of_ne_zero (by omega)
    refine takes_iterate_succ.mpr ?_
    rcases takes_iterate_succ.mp taken with ended | ⟨next, middle, made, further⟩
    · exact .inl ended
    · exact .inr ⟨next, middle, made, ih further (Nat.le_of_succ_le_succ enough)⟩

/-- An attempt without reports is the reading that was attempted. -/
theorem takes_attempt {ι : Type} [Supply σ ι] {inBlock : Bool} {reader : Parse σ α}
    {result : Option α} :
    Takes (attempt inBlock reader) path supply result rest ↔
      ∃ value, result = some value ∧ reader.Takes path supply value rest := by
  unfold Takes attempt
  generalize reader path supply = step
  obtain ⟨reports, fault | ⟨value, middle⟩⟩ := step
  · simp
  · constructor
    · intro same
      simp only [Step.mk.injEq, Except.ok.injEq, Prod.mk.injEq] at same
      obtain ⟨rfl, rfl, rfl⟩ := same
      exact ⟨value, rfl, rfl⟩
    · rintro ⟨value', rfl, same⟩
      simp only [Step.mk.injEq, Except.ok.injEq, Prod.mk.injEq] at same
      obtain ⟨rfl, rfl, rfl⟩ := same
      rfl

end

/-! ## Looking at the next token -/

section

variable {ι : Type} [Supply σ ι] {path : List Production} {supply rest : σ}

/-- Looking at the next token leaves it in place. -/
theorem takes_peek {found : Option Token} :
    Takes peek path supply found rest ↔
      (Supply.tokens supply).head? = found ∧ supply = rest := by
  simp [Takes, peek]

/-- A reader tests for a kind: it tells whether the tokens begin with it and leaves them in
place. -/
def Tests (test : Parse σ Bool) (kind : Kind) : Prop :=
  ∀ path supply found rest, test.Takes path supply found rest ↔
    (found = true ↔ Begins kind (Supply.tokens supply)) ∧ supply = rest

/-- Looking for a mark tests for it. -/
theorem tests_atMark (mark : Mark) : Tests (atMark mark : Parse σ Bool) (.mark mark) := by
  intro path supply found rest
  unfold atMark
  rw [takes_bind]
  simp only [takes_peek]
  cases Supply.tokens supply with
  | nil => simp [takes_pure]
  | cons token more =>
    obtain ⟨kind, lexeme, span⟩ := token
    cases kind with
    | mark symbol => cases found <;> simp [takes_pure]
    | _ => simp [takes_pure]

/-- Looking for a keyword tests for it. -/
theorem tests_atKeyword (word : Keyword) :
    Tests (atKeyword word : Parse σ Bool) (.keyword word) := by
  intro path supply found rest
  unfold atKeyword
  rw [takes_bind]
  simp only [takes_peek]
  cases Supply.tokens supply with
  | nil => simp [takes_pure]
  | cons token more =>
    obtain ⟨kind, lexeme, span⟩ := token
    cases kind with
    | keyword symbol => cases found <;> simp [takes_pure]
    | _ => simp [takes_pure]

namespace Tests

variable {test : Parse σ Bool} {kind : Kind} {yes no : Parse σ α}

/-- A choice by a test takes what the chosen reader takes. -/
theorem takes_choice (tests : test.Tests kind) {result : α} :
    Takes (test >>= fun found => if found then yes else no) path supply result rest ↔
      (Begins kind (Supply.tokens supply) ∧ yes.Takes path supply result rest) ∨
        (¬ Begins kind (Supply.tokens supply) ∧ no.Takes path supply result rest) := by
  simp only [takes_bind, tests _ _ _ _]
  constructor
  · rintro ⟨found, middle, ⟨told, rfl⟩, taken⟩
    cases found with
    | true => exact .inl ⟨told.mp rfl, taken⟩
    | false => exact .inr ⟨fun begins => Bool.false_ne_true (told.mpr begins), taken⟩
  · rintro (⟨begins, taken⟩ | ⟨other, taken⟩)
    · exact ⟨true, supply, ⟨by simpa using begins, rfl⟩, taken⟩
    · exact ⟨false, supply, ⟨by simpa using other, rfl⟩, taken⟩

/-- Where the tokens begin with the kind, a choice by a test reads its first branch. -/
theorem choice_of_begins (tests : test.Tests kind) (begins : Begins kind (Supply.tokens supply)) :
    (test >>= fun found => if found then yes else no) path supply = yes path supply := by
  have told : test.Takes path supply true supply :=
    (tests _ _ _ _).mpr ⟨by simpa using begins, rfl⟩
  exact told.bind_eq

/-- Where the tokens do not begin with the kind, a choice by a test reads its second branch. -/
theorem choice_of_not_begins (tests : test.Tests kind)
    (other : ¬ Begins kind (Supply.tokens supply)) :
    (test >>= fun found => if found then yes else no) path supply = no path supply := by
  have told : test.Takes path supply false supply :=
    (tests _ _ _ _).mpr ⟨by simpa using other, rfl⟩
  exact told.bind_eq

end Tests

end

/-! ## Tokens alone -/

section

variable {path : List Production} {tokens rest : List Token}

/-- Skipping takes the next token. -/
theorem takes_skip {result : Unit} :
    Takes skip path tokens result rest ↔ ∃ token, tokens = token :: rest := by
  cases tokens <;> simp [Takes, skip]

/-- A choice by the next mark takes what the chosen reader takes. -/
theorem takes_ifMark {mark : Mark} {yes no : RawParse α} {result : α} :
    Takes (atMark mark >>= fun found => if found then yes else no) path tokens result rest ↔
      (Begins (.mark mark) tokens ∧ yes.Takes path tokens result rest) ∨
        (¬ Begins (.mark mark) tokens ∧ no.Takes path tokens result rest) :=
  (tests_atMark mark).takes_choice

/-- A choice by the next keyword takes what the chosen reader takes. -/
theorem takes_ifKeyword {word : Keyword} {yes no : RawParse α} {result : α} :
    Takes (atKeyword word >>= fun found => if found then yes else no) path tokens result rest ↔
      (Begins (.keyword word) tokens ∧ yes.Takes path tokens result rest) ∨
        (¬ Begins (.keyword word) tokens ∧ no.Takes path tokens result rest) :=
  (tests_atKeyword word).takes_choice

/-- Tokens that begin with a kind have a first token of that kind. -/
theorem Begins.exists_cons {kind : Kind} (begins : Begins kind tokens) :
    ∃ token more, tokens = token :: more ∧ token.kind = kind := by
  obtain ⟨token, first, same⟩ := begins
  obtain ⟨more, rfl⟩ := List.head?_eq_some_iff.mp first
  exact ⟨token, more, rfl, same⟩

/-- A mark that is wanted is taken where the tokens begin with it. -/
theorem takes_expect {mark : Mark} {result : Unit} :
    Takes (expect mark) path tokens result rest ↔
      ∃ token, token.kind = .mark mark ∧ tokens = token :: rest := by
  unfold expect
  rw [takes_ifMark]
  simp only [takes_skip, takes_stop, and_false, or_false]
  constructor
  · rintro ⟨begins, token, rfl⟩
    exact ⟨token, (begins_cons _ _ _).mp begins, rfl⟩
  · rintro ⟨token, same, rfl⟩
    exact ⟨(begins_cons _ _ _).mpr same, token, rfl⟩

/-- A name is taken where the tokens begin with one. -/
theorem takes_identifier {result : Identifier} :
    Takes identifier path tokens result rest ↔
      ∃ token : Token, token.Spells result ∧ tokens = token :: rest := by
  unfold identifier
  rw [takes_bind]
  simp only [takes_peek]
  cases tokens with
  | nil => simp [takes_stop]
  | cons token more =>
    obtain ⟨kind, lexeme, span⟩ := token
    obtain ⟨name, place⟩ := result
    cases kind with
    | identifier found => simp [takes_bind, takes_skip, takes_pure, Token.Spells, and_assoc]
    | _ => simp [takes_stop, Token.Spells]

/-- After a token is skipped, the tokens behind it are read. -/
theorem takes_skip_bind {next : Unit → RawParse α} {token : Token} {result : α} :
    Takes (skip >>= next) path (token :: tokens) result rest ↔
      (next ()).Takes path tokens result rest := by
  simp only [takes_bind, takes_skip]
  constructor
  · rintro ⟨_, _, ⟨_, same⟩, taken⟩
    obtain ⟨-, rfl⟩ := List.cons.inj same
    exact taken
  · intro taken
    exact ⟨(), tokens, ⟨token, rfl⟩, taken⟩

/-- After a mark that is wanted, the tokens behind it are read. -/
theorem takes_expect_bind {mark : Mark} {next : Unit → RawParse α} {result : α} :
    Takes (expect mark >>= next) path tokens result rest ↔
      ∃ token more, tokens = token :: more ∧ token.kind = .mark mark ∧
        (next ()).Takes path more result rest := by
  simp only [takes_bind, takes_expect]
  constructor
  · rintro ⟨_, more, ⟨token, written, rfl⟩, taken⟩
    exact ⟨token, more, rfl, written, taken⟩
  · rintro ⟨token, more, rfl, written, taken⟩
    exact ⟨(), more, ⟨token, written, rfl⟩, taken⟩

/-- After a name, the tokens behind it are read. -/
theorem takes_identifier_bind {next : Identifier → RawParse α} {result : α} :
    Takes (identifier >>= next) path tokens result rest ↔
      ∃ token more name, tokens = token :: more ∧ token.Spells name ∧
        (next name).Takes path more result rest := by
  simp only [takes_bind, takes_identifier]
  constructor
  · rintro ⟨name, more, ⟨token, named, rfl⟩, taken⟩
    exact ⟨token, more, name, rfl, named, taken⟩
  · rintro ⟨token, more, name, rfl, named, taken⟩
    exact ⟨name, more, ⟨token, named, rfl⟩, taken⟩

end

end Parse

namespace Grammar

open Parse

variable {path : List Production} {tokens rest : List Token}

/-- A list may have a further entry exactly if it has fewer than it may. -/
theorem takes_checkLimit {rules : RawRules} {count : Nat} {cause : FaultCause} {result : Unit} :
    (checkLimit rules count cause).Takes path tokens result rest ↔
      (∀ limit ∈ rules.limit, count < limit) ∧ tokens = rest := by
  unfold checkLimit
  cases limited : rules.limit with
  | none => simp [takes_pure]
  | some limit =>
    dsimp only
    by_cases full : limit ≤ count
    · simp [takes_bind, takes_reportAt, full, Nat.not_lt.mpr full]
    · simp [takes_pure, full, Nat.not_le.mp full]

/-- The next operator of a level is taken where the tokens begin with one. -/
theorem takes_operator {ω : Type} {operator? : Kind → Option ω} {result : Option (ω × Span)} :
    (operator operator?).Takes path tokens result rest ↔
      (∃ token found, operator? token.kind = some found ∧ result = some (found, token.span) ∧
          tokens = token :: rest) ∨
        ((∀ token ∈ tokens.head?, operator? token.kind = none) ∧ result = none ∧
          tokens = rest) := by
  unfold operator
  rw [takes_bind]
  simp only [takes_peek]
  cases tokens with
  | nil => simp [takes_pure, eq_comm]
  | cons token more =>
    cases found : operator? token.kind with
    | none => simp [takes_pure, found, eq_comm (a := none)]
    | some symbol =>
      simp [takes_bind, takes_skip, takes_pure, found, eq_comm (a := some (symbol, token.span))]

end Grammar

end KoreanLox
