import KoreanLox.Evaluation.Evaluate

/-!
# The bound on steps

The bound decides only whether a run ends. A run that is not suspended for steps goes the same way
under every greater bound: it has the same value or failure and leaves the same machine.
-/

namespace KoreanLox

namespace Run

variable {α β : Type}

/-- A run goes on where another is suspended for steps, and is like it everywhere else. -/
def Extends (longer shorter : Run α) : Prop :=
  ∀ machine, (shorter machine).1 = .error (.suspended .steps) ∨ longer machine = shorter machine

namespace Extends

/-- A run is like itself. -/
theorem refl (run : Run α) : Extends run run := fun _ => .inr rfl

/-- Every run goes on where a run that is always suspended does not. -/
theorem suspended (run : Run α) : Extends run (suspend .steps) := fun _ => .inl rfl

/-- Runs in sequence go on where their parts do. -/
theorem bind {longer shorter : Run α} {longerNext shorterNext : α → Run β}
    (first : Extends longer shorter)
    (next : ∀ value, Extends (longerNext value) (shorterNext value)) :
    Extends (longer >>= longerNext) (shorter >>= shorterNext) := by
  intro machine
  rw [bind_apply, bind_apply]
  rcases first machine with stopped | same
  · left
    generalize shorter machine = result at stopped
    obtain ⟨result, after⟩ := result
    dsimp only at stopped
    rw [stopped]
  · rw [same]
    generalize shorter machine = result
    obtain ⟨result, after⟩ := result
    cases result with
    | error reason => exact .inr rfl
    | ok value => exact next value after

/-- A run in another frame goes on where the run does. -/
theorem within {longer shorter : Run α} (frame : FrameRef) (inner : Extends longer shorter) :
    Extends (Run.within frame longer) (Run.within frame shorter) := by
  intro machine
  rcases inner { machine with frame } with stopped | same
  · exact .inl stopped
  · exact .inr (by simp only [Run.within, same])

/-- A call goes on where its body does. -/
theorem asCall {longer shorter : Run α} (span : Span) (inner : Extends longer shorter) :
    Extends (Run.asCall span longer) (Run.asCall span shorter) := by
  intro machine
  simp only [Run.asCall]
  split
  next => exact .inr rfl
  next =>
    rcases inner { machine with depth := machine.depth + 1 } with stopped | same
    · exact .inl stopped
    · exact .inr (by rw [same])

end Extends

end Run

namespace Evaluation

open Run

/-- Goes on after a statement unless it returned. -/
def unlessReturned (next : Run Completion) : Completion → Run Completion
  | .normal => next
  | .returned value => return .returned value

/-- Statements in order are the first one, and the others unless it returned. -/
theorem executeAll_cons (execute : Stmt Nat → Run Completion) (first : Stmt Nat)
    (rest : List (Stmt Nat)) :
    executeAll execute (first :: rest) =
      execute first >>= unlessReturned (executeAll execute rest) := by
  funext machine
  rw [bind_apply]
  simp only [executeAll]
  generalize execute first machine = result
  obtain ⟨result, after⟩ := result
  rcases result with reason | completion
  · rfl
  · cases completion <;> rfl

/-- A round of a loop tests the condition, runs the body, and is followed by further rounds unless
the body returned. -/
theorem repeatWhile_succ (condition : Run Value) (body : Run Completion) (bound : Nat) :
    repeatWhile condition body (bound + 1) =
      (condition >>= fun value =>
        if value.isTruthy then body >>= unlessReturned (repeatWhile condition body bound)
        else pure .normal : Run Completion) := by
  funext machine
  rw [bind_apply]
  simp only [repeatWhile]
  generalize condition machine = result
  obtain ⟨result, after⟩ := result
  cases result with
  | error reason => rfl
  | ok value =>
    dsimp only
    split
    next =>
      rw [bind_apply]
      generalize body after = result
      obtain ⟨result, last⟩ := result
      rcases result with reason | completion
      · rfl
      · cases completion <;> rfl
    next => rfl

/-- Values of some expressions go on where the value of each does. -/
theorem evaluateAll_extends {longer shorter : Expr Nat → Run Value}
    (each : ∀ expression, Extends (longer expression) (shorter expression))
    (expressions : List (Expr Nat)) :
    Extends (evaluateAll longer expressions) (evaluateAll shorter expressions) := by
  induction expressions with
  | nil => exact .refl _
  | cons first rest ih => exact (each first).bind fun _ => ih.bind fun _ => .refl _

/-- Going on after a statement goes on where what follows it does. -/
theorem unlessReturned_extends {longer shorter : Run Completion} (after : Extends longer shorter)
    (completion : Completion) :
    Extends (unlessReturned longer completion) (unlessReturned shorter completion) := by
  cases completion with
  | normal => exact after
  | returned value => exact .refl _

/-- Statements in order go on where each of them does. -/
theorem executeAll_extends {longer shorter : Stmt Nat → Run Completion}
    (each : ∀ statement, Extends (longer statement) (shorter statement))
    (statements : List (Stmt Nat)) :
    Extends (executeAll longer statements) (executeAll shorter statements) := by
  induction statements with
  | nil => exact .refl _
  | cons first rest ih =>
    rw [executeAll_cons, executeAll_cons]
    exact (each first).bind (unlessReturned_extends ih)

/-- A loop goes on where its condition, its body or its bound does. -/
theorem repeatWhile_extends {longerCondition shorterCondition : Run Value}
    {longerBody shorterBody : Run Completion}
    (condition : Extends longerCondition shorterCondition)
    (body : Extends longerBody shorterBody) {less more : Nat} (within : less ≤ more) :
    Extends (repeatWhile longerCondition longerBody more)
      (repeatWhile shorterCondition shorterBody less) := by
  induction less generalizing more with
  | zero => exact fun _ => .inl rfl
  | succ less ih =>
    obtain ⟨more, rfl⟩ : ∃ fewer, more = fewer + 1 := ⟨more - 1, by omega⟩
    rw [repeatWhile_succ, repeatWhile_succ]
    refine condition.bind fun value => ?_
    split
    next => exact body.bind (unlessReturned_extends (ih (by omega)))
    next => exact .refl _

section

variable {longer shorter : List (Stmt Nat) → Run Completion}

/-- A call of a function goes on where its body does. -/
theorem callClosure_extends (body : ∀ statements, Extends (longer statements) (shorter statements))
    (closure : Closure) (arguments : List Value) (closing : Span) :
    Extends (callClosure longer closure arguments closing)
      (callClosure shorter closure arguments closing) :=
  (Extends.refl _).bind fun _ =>
    (((body closure.declaration.body).within _).asCall closing).bind fun _ => .refl _

/-- Making an instance goes on where the body of its initializer does. -/
theorem construct_extends (body : ∀ statements, Extends (longer statements) (shorter statements))
    (ref : ClassRef) (arguments : List Value) (closing : Span) :
    Extends (construct longer ref arguments closing) (construct shorter ref arguments closing) :=
  (Extends.refl _).bind fun _ => (Extends.refl _).bind fun
    | none => .refl _
    | some _ => (Extends.refl _).bind fun closure =>
      (callClosure_extends body closure arguments closing).bind fun _ => .refl _

/-- A call of a value goes on where the body of what is called does. -/
theorem invoke_extends (body : ∀ statements, Extends (longer statements) (shorter statements))
    (callee : Value) (arguments : List Value) (closing : Span) :
    Extends (invoke longer callee arguments closing) (invoke shorter callee arguments closing) := by
  cases callee with
  | function ref =>
    exact (Extends.refl _).bind fun
      | none => .refl _
      | some closure => (Extends.refl _).bind fun _ =>
        callClosure_extends body closure arguments closing
  | classObject ref =>
    exact (Extends.refl _).bind fun _ => (Extends.refl _).bind fun _ =>
      construct_extends body ref arguments closing
  | _ => exact .refl _

end

/-- Expressions one level down decide whether an expression goes on. -/
theorem evaluate_succ_extends {less more : Nat}
    (expressions : ∀ expression, Extends (evaluate more expression) (evaluate less expression))
    (statements : ∀ statement, Extends (execute more statement) (execute less statement))
    (expression : Expr Nat) :
    Extends (evaluate (more + 1) expression) (evaluate (less + 1) expression) := by
  cases expression with
  | literal | read | receiver | inherited => exact .refl _
  | grouping inner => exact expressions inner
  | unary _ _ operand => exact (expressions operand).bind fun _ => .refl _
  | binary _ _ left right =>
    exact (expressions left).bind fun _ => (expressions right).bind fun _ => .refl _
  | logical operator left right =>
    refine (expressions left).bind fun value => ?_
    split
    next => exact .refl _
    next => exact expressions right
  | assign _ value => exact (expressions value).bind fun _ => .refl _
  | call callee arguments closing =>
    exact (expressions callee).bind fun callee =>
      (evaluateAll_extends expressions arguments).bind fun values =>
        invoke_extends (executeAll_extends statements) callee values closing
  | get object => exact (expressions object).bind fun _ => .refl _
  | set object _ value =>
    refine (expressions object).bind fun object => ?_
    cases object with
    | instanceObject => exact (expressions value).bind fun _ => .refl _
    | _ => exact .refl _

/-- Expressions and statements one level down decide whether a statement goes on. -/
theorem execute_succ_extends {less more : Nat} (within : less ≤ more)
    (expressions : ∀ expression, Extends (evaluate more expression) (evaluate less expression))
    (statements : ∀ statement, Extends (execute more statement) (execute less statement))
    (statement : Stmt Nat) :
    Extends (execute (more + 1) statement) (execute (less + 1) statement) := by
  cases statement with
  | expression value => exact (expressions value).bind fun _ => .refl _
  | print value => exact (expressions value).bind fun _ => .refl _
  | declare _ initial =>
    cases initial with
    | none => exact .refl _
    | some initial => exact (expressions initial).bind fun _ => .refl _
  | block body =>
    exact (Extends.refl _).bind fun _ => (Extends.refl _).bind fun frame =>
      (executeAll_extends statements body).within frame
  | choose condition thenBranch elseBranch =>
    refine (expressions condition).bind fun value => ?_
    split
    next => exact statements thenBranch
    next =>
      cases elseBranch with
      | none => exact .refl _
      | some elseBranch => exact statements elseBranch
  | loop condition body =>
    exact repeatWhile_extends (expressions condition) (statements body) within
  | function => exact .refl _
  | finish _ value =>
    cases value with
    | none => exact .refl _
    | some value => exact (expressions value).bind fun _ => .refl _
  | classDeclaration => exact .refl _

/-- What runs under a greater bound goes on where it is suspended for steps under a smaller one,
and is the same everywhere else. -/
theorem extends_of_le {less more : Nat} (within : less ≤ more) :
    (∀ expression, Extends (evaluate more expression) (evaluate less expression)) ∧
      ∀ statement, Extends (execute more statement) (execute less statement) := by
  induction less generalizing more with
  | zero => exact ⟨fun _ => .suspended _, fun _ => .suspended _⟩
  | succ less ih =>
    obtain ⟨more, rfl⟩ : ∃ fewer, more = fewer + 1 := ⟨more - 1, by omega⟩
    have within := Nat.le_of_succ_le_succ within
    obtain ⟨expressions, statements⟩ := ih within
    exact ⟨evaluate_succ_extends expressions statements,
      execute_succ_extends within expressions statements⟩

end Evaluation

end KoreanLox
