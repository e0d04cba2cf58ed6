import KoreanLox.Proofs.Grammar.Derivation
import KoreanLox.Proofs.Tree.Copies

/-!
# Counted loops

A counted loop has no node of its own: it is read as a block with its first part and a plain loop,
whose body ends with the increment. Here its parts are kept as they are written. Tokens that begin
with the keyword of a counted loop are read as a statement exactly if they are written as one, and
the statement is the tree of its parts (`Counted.derives_iff`); a copy of that tree is the tree of
copies of the parts (`Counted.exists_of_agrees`).
-/

namespace KoreanLox

/-- What is derived as a statement declares nothing. -/
theorem DerivesStmt.not_declares {ending : Ending} {tokens : List Token} {statement : RawStmt}
    (derived : DerivesStmt (.statement ending) tokens statement) : ¬ statement.Declares := by
  cases derived with
  | enclosed inside =>
    cases inside with
    | block => exact id
  | _ => exact id

/-- The parts of a counted loop. -/
structure Counted (ι : Type) where
  /-- What is done once at the beginning, if anything. -/
  initial : Option (Stmt ι)
  /-- What has to hold before every round; if it is missing, there is always a next round. -/
  condition : Option (Expr ι)
  /-- What is computed after every round, if anything. -/
  increment : Option (Expr ι)
  /-- What is done in every round. -/
  body : Stmt ι

namespace Counted

section

variable {ι κ : Type}

/-- The condition of the plain loop. -/
def test (loop : Counted ι) : Expr ι := loop.condition.getD (.literal (.boolean true))

/-- The body of the plain loop: a block of the body and the increment, if there is one. -/
def round (loop : Counted ι) : Stmt ι :=
  match loop.increment with
  | none => loop.body
  | some value => .block [loop.body, .expression value]

/-- The statement as which a counted loop is read. -/
def tree (loop : Counted ι) : Stmt ι :=
  .block (loop.initial.toList ++ [.loop loop.test loop.round])

/-- The parts of a counted loop behind the first one, with no block around any of them. -/
def later (loop : Counted ι) : List (Stmt ι) :=
  (loop.condition.map Stmt.expression).toList ++
    loop.body :: (loop.increment.map Stmt.expression).toList

/-- The parts of a counted loop one after the other, with no block around any of them. -/
def parts (loop : Counted ι) : List (Stmt ι) := loop.initial.toList ++ loop.later

/-- The parts of two counted loops agree. -/
structure Agrees (links : Correspondence ι κ) (first : Counted ι) (second : Counted κ) : Prop where
  /-- Their first parts agree. -/
  initial : Option.Rel (Stmt.Agrees links) first.initial second.initial
  /-- Their conditions agree. -/
  condition : Option.Rel (Expr.Agrees links) first.condition second.condition
  /-- Their increments agree. -/
  increment : Option.Rel (Expr.Agrees links) first.increment second.increment
  /-- Their bodies agree. -/
  body : first.body.Agrees links second.body

variable {links : Correspondence ι κ} {first : Counted ι}

/-- What agrees with the body of the plain loop is the body of the plain loop of some parts. -/
theorem exists_round_of_agrees {statement : Stmt κ} (agree : first.round.Agrees links statement) :
    ∃ increment body, Option.Rel (Expr.Agrees links) first.increment increment ∧
      first.body.Agrees links body ∧
        ∀ initial condition, statement = round ⟨initial, condition, increment, body⟩ := by
  obtain ⟨initial, condition, increment, body⟩ := first
  cases increment with
  | none => exact ⟨none, statement, .none, agree, fun _ _ => rfl⟩
  | some value =>
    cases agree with
    | block inside =>
      cases inside with
      | cons head tail =>
        cases tail with
        | cons step rest =>
          cases step with
          | expression value =>
            cases rest with
            | nil => exact ⟨some _, _, .some value, head, fun _ _ => rfl⟩

/-- What agrees with the condition of the plain loop is the condition of some plain loop. -/
theorem exists_test_of_agrees {value : Expr κ} (agree : first.test.Agrees links value) :
    ∃ condition, Option.Rel (Expr.Agrees links) first.condition condition ∧
      value = condition.getD (.literal (.boolean true)) := by
  obtain ⟨initial, condition, increment, body⟩ := first
  cases condition with
  | none =>
    cases agree with
    | literal => exact ⟨none, .none, rfl⟩
  | some condition => exact ⟨some value, .some agree, rfl⟩

/-- What agrees with the tree of a counted loop is the tree of a counted loop with parts that
agree. -/
theorem exists_of_agrees {statement : Stmt κ} (agree : first.tree.Agrees links statement) :
    ∃ loop : Counted κ, first.Agrees links loop ∧ statement = loop.tree := by
  have plain {other : Stmt κ} (same : (Stmt.loop first.test first.round).Agrees links other) :
      ∃ condition increment body, Option.Rel (Expr.Agrees links) first.condition condition ∧
        Option.Rel (Expr.Agrees links) first.increment increment ∧
          first.body.Agrees links body ∧ ∀ initial,
            other = .loop (test ⟨initial, condition, increment, body⟩)
              (round ⟨initial, condition, increment, body⟩) := by
    cases same with
    | loop tested repeated =>
      obtain ⟨condition, holds, rfl⟩ := exists_test_of_agrees tested
      obtain ⟨increment, body, advances, does, shape⟩ := exists_round_of_agrees repeated
      refine ⟨condition, increment, body, holds, advances, does, fun initial => ?_⟩
      rw [shape initial condition]
      rfl
  unfold tree at agree
  cases agree with
  | block inside =>
    cases begun : first.initial with
    | none =>
      rw [begun] at inside
      cases inside with
      | cons head tail =>
        cases tail with
        | nil =>
          obtain ⟨condition, increment, body, holds, advances, does, shape⟩ := plain head
          exact ⟨⟨none, condition, increment, body⟩, ⟨begun ▸ .none, holds, advances, does⟩,
            by rw [shape none]; rfl⟩
    | some initial =>
      rw [begun] at inside
      cases inside with
      | @cons _ initial' _ _ before rest =>
        cases rest with
        | cons head tail =>
          cases tail with
          | nil =>
            obtain ⟨condition, increment, body, holds, advances, does, shape⟩ := plain head
            exact ⟨⟨some initial', condition, increment, body⟩,
              ⟨begun ▸ .some before, holds, advances, does⟩, by rw [shape (some initial')]; rfl⟩

/-- A statement that may be missing is all that agrees with one that may be missing. -/
theorem exists_of_agreesAll_toList {statement : Option (Stmt ι)} {statements : List (Stmt κ)}
    (agree : Stmt.AgreesAll links statement.toList statements) :
    ∃ other : Option (Stmt κ), statements = other.toList ∧
      Option.Rel (Stmt.Agrees links) statement other := by
  cases statement with
  | none =>
    cases agree with
    | nil => exact ⟨none, rfl, .none⟩
  | some statement =>
    cases agree with
    | cons head tail =>
      cases tail with
      | nil => exact ⟨some _, rfl, .some head⟩

/-- What agrees with an expression that may be missing, as a statement, is such a statement. -/
theorem exists_expression_of_agrees {value : Option (Expr ι)} {statement : Option (Stmt κ)}
    (agree : Option.Rel (Stmt.Agrees links) (value.map Stmt.expression) statement) :
    ∃ other : Option (Expr κ), statement = other.map Stmt.expression ∧
      Option.Rel (Expr.Agrees links) value other := by
  cases value with
  | none =>
    cases agree with
    | none => exact ⟨none, rfl, .none⟩
  | some value =>
    cases agree with
    | some same =>
      cases same with
      | expression inner => exact ⟨some _, rfl, .some inner⟩

/-- What agrees with the parts of a counted loop one after the other is the parts of a counted loop
one after the other. -/
theorem exists_of_agreesAll {statements : List (Stmt κ)}
    (agree : Stmt.AgreesAll links first.parts statements) :
    ∃ loop : Counted κ, first.Agrees links loop ∧ statements = loop.parts := by
  obtain ⟨begun, late, rfl, begins, behind⟩ := agree.exists_append
  obtain ⟨tested, last, rfl, tests, after⟩ := behind.exists_append
  obtain ⟨initial, rfl, initials⟩ := exists_of_agreesAll_toList begins
  obtain ⟨_, rfl, tested⟩ := exists_of_agreesAll_toList tests
  obtain ⟨condition, rfl, conditions⟩ := exists_expression_of_agrees tested
  cases after with
  | cons does steps =>
    obtain ⟨_, rfl, stepped⟩ := exists_of_agreesAll_toList steps
    obtain ⟨increment, rfl, increments⟩ := exists_expression_of_agrees stepped
    exact ⟨⟨initial, condition, increment, _⟩, ⟨initials, conditions, increments, does⟩, rfl⟩

end

/-- A counted loop is written as some tokens: its parts in parentheses behind the keyword, with a
semicolon behind each of the first two, and then its body. -/
inductive Written (ending : Ending) : List Token → Counted Unit → Prop where
  | intro {keyword opening semicolon closing : Token} {before used after more : List Token}
    {loop : Counted Unit} (keyed : keyword.kind = .keyword .forWord)
    (opened : opening.kind = .mark .leftParen) (begun : DerivesInitial before loop.initial)
    (tested : DerivesOptional used loop.condition) (ended : semicolon.kind = .mark .semicolon)
    (stepped : DerivesOptional after loop.increment) (closed : closing.kind = .mark .rightParen)
    (repeated : DerivesStmt (.statement ending) more loop.body) :
    Written ending
      (keyword :: opening :: (before ++ (used ++ semicolon :: (after ++ closing :: more)))) loop

section

variable {ending : Ending} {keyword : Token} {tokens : List Token} {statement : RawStmt}

/-- The tree of a counted loop is the one that the grammar makes of its parts. -/
theorem counted_eq_tree (loop : Counted Unit) :
    Grammar.counted loop.initial (loop.condition.getD (.literal (.boolean true))) loop.increment
      loop.body = loop.tree := by
  obtain ⟨initial, condition, increment, body⟩ := loop
  cases increment <;> rfl

/-- Tokens that begin with the keyword of a counted loop are read as a statement exactly if a
counted loop is written as them, and they are read as its tree. -/
theorem derives_iff (keyed : keyword.kind = .keyword .forWord) :
    DerivesStmt (.statement ending) (keyword :: tokens) statement ↔
      ∃ loop : Counted Unit, loop.Written ending (keyword :: tokens) ∧ statement = loop.tree := by
  constructor
  · intro derived
    generalize same : keyword :: tokens = used at derived
    cases derived with
    | count written opened begun tested ended stepped closed repeated =>
      exact ⟨⟨_, _, _, _⟩, .intro written opened begun tested ended stepped closed repeated,
        counted_eq_tree ⟨_, _, _, _⟩⟩
    | expression derived ended =>
      -- No expression begins with the keyword.
      obtain ⟨token, more, rfl, starts⟩ := derived.starts
      obtain rfl : keyword = token := List.head_eq_of_cons_eq same
      rw [keyed] at starts
      cases starts
    | enclosed inside =>
      cases inside with
      | block opened =>
        obtain rfl := List.head_eq_of_cons_eq same
        rw [keyed] at opened
        cases opened
    | print written | finish written | loop written | choose written | chooseElse written =>
      obtain rfl := List.head_eq_of_cons_eq same
      rw [keyed] at written
      cases written
  · rintro ⟨loop, written, rfl⟩
    cases written with
    | intro keyed opened begun tested ended stepped closed repeated =>
      rw [← counted_eq_tree]
      exact .count keyed opened begun tested ended stepped closed repeated

/-- The body of a counted loop declares nothing. -/
theorem Written.not_declares {loop : Counted Unit} (written : loop.Written ending tokens) :
    ¬ loop.body.Declares := by
  cases written with
  | intro keyed opened begun tested ended stepped closed repeated =>
    exact repeated.not_declares

end

end Counted

end KoreanLox
