import KoreanLox.Evaluation.Bound
import KoreanLox.Proofs.Evaluation.Lockstep
import KoreanLox.Proofs.Grammar.Counted

/-!
# What a counted loop means

A counted loop opens one frame and does its first part in it once. Before every round its condition
decides whether there is one; a round does the body and, unless the body returned, the increment.
All of that is in the one frame of the loop (`Counted.run`). Running the tree as which a counted
loop is read comes to the same, although the body and the increment then have a frame of their own
for every round: the scope of that frame is idle, so that every name is found in the same frame as
without it (`Counted.Parallel.concurs`).
-/

namespace KoreanLox

open Run Evaluation

namespace Run

variable {α β γ : Type}

/-- Runs in sequence may be grouped in either way. -/
theorem bind_assoc (first : Run α) (next : α → Run β) (last : β → Run γ) :
    first >>= next >>= last = first >>= fun value => next value >>= last := by
  funext machine
  rw [bind_apply, bind_apply, bind_apply]
  generalize first machine = result
  obtain ⟨result, after⟩ := result
  cases result <;> rfl

/-- Nothing follows a statement that goes on normally. -/
theorem bind_unlessReturned_normal (run : Run Completion) :
    run >>= unlessReturned (pure .normal) = run := by
  funext machine
  rw [bind_apply]
  generalize run machine = result
  obtain ⟨result, after⟩ := result
  rcases result with reason | completion
  · rfl
  · cases completion <;> rfl

end Run

namespace Counted

/-- What the parts of a counted loop do. -/
structure Actions where
  /-- What the first part does. -/
  begin : Run Completion
  /-- What decides whether there is a next round. -/
  check : Run Value
  /-- What the body does. -/
  turn : Run Completion
  /-- What the increment does. -/
  advance : Run Unit

namespace Actions

variable (actions : Actions)

/-- Rounds up to a bound: before every one it is decided whether there is one, and a round is the
body followed by the increment, unless the body returned. -/
def rounds : Nat → Run Completion
  | 0 => suspend .steps
  | bound + 1 => do
    let value ← actions.check
    if value.isTruthy then
      match ← actions.turn with
      | .normal => do
        actions.advance
        rounds bound
      | .returned value => return .returned value
    else return .normal

/-- The first part and then the rounds, unless the first part returned, in one new frame. -/
def run (bound : Nat) : Run Completion := inNewFrame do
  match ← actions.begin with
  | .normal => actions.rounds bound
  | .returned value => return .returned value

/-- The body and, unless it returned, the increment. -/
def round : Run Completion :=
  actions.turn >>= unlessReturned (actions.advance >>= fun _ => pure .normal)

/-- The rounds repeat the body with the increment while there is a next round. -/
theorem rounds_eq (bound : Nat) :
    actions.rounds bound = repeatWhile actions.check actions.round bound := by
  induction bound with
  | zero => rfl
  | succ bound ih =>
    have turned : (actions.turn >>= fun completion =>
        match completion with
        | .normal => actions.advance >>= fun _ => actions.rounds bound
        | .returned value => pure (.returned value)) =
          actions.round >>= unlessReturned (actions.rounds bound) := by
      rw [round, bind_assoc]
      congr 1
      funext completion
      cases completion with
      | normal =>
        exact (bind_assoc actions.advance (fun _ => pure .normal)
          (unlessReturned (actions.rounds bound))).symm
      | returned value => rfl
    rw [repeatWhile_succ, ← ih, ← turned]
    rfl

/-- The loop as runs in sequence. -/
theorem run_eq (bound : Nat) :
    actions.run bound =
      inNewFrame (actions.begin >>=
        unlessReturned (repeatWhile actions.check actions.round bound)) := by
  rw [← rounds_eq]
  rfl

/-- Some actions go on where others are suspended for steps, and are like them everywhere else. -/
structure Extends (longer shorter : Actions) : Prop where
  /-- The first part goes on. -/
  begin : Run.Extends longer.begin shorter.begin
  /-- What decides whether there is a next round goes on. -/
  check : Run.Extends longer.check shorter.check
  /-- The body goes on. -/
  turn : Run.Extends longer.turn shorter.turn
  /-- The increment goes on. -/
  advance : Run.Extends longer.advance shorter.advance

/-- A loop goes on where its parts do. -/
theorem Extends.run {longer shorter : Actions} (further : longer.Extends shorter) {less more : Nat}
    (within : less ≤ more) : Run.Extends (longer.run more) (shorter.run less) := by
  have round : Run.Extends longer.round shorter.round :=
    further.turn.bind (unlessReturned_extends (further.advance.bind fun _ => .refl _))
  have rounds := repeatWhile_extends further.check round within
  rw [run_eq, run_eq]
  exact (Run.Extends.refl _).bind fun _ => (Run.Extends.refl _).bind fun frame =>
    (further.begin.bind (unlessReturned_extends rounds)).within frame

end Actions

/-- Does the first part, if there is one. -/
def begin (steps : Nat) : Option (Stmt Nat) → Run Completion
  | none => return .normal
  | some statement => execute steps statement

/-- The value of the condition; a missing one holds. -/
def check (steps : Nat) : Option (Expr Nat) → Run Value
  | none => return .boolean true
  | some condition => evaluate steps condition

/-- Computes the increment, if there is one. -/
def advance (steps : Nat) : Option (Expr Nat) → Run Unit
  | none => return ()
  | some value => do
    let _ ← evaluate steps value

/-- What the parts of a counted loop do, each with a number of steps. -/
def actions (loop : Counted Nat) (begun tested repeated advanced : Nat) : Actions where
  begin := begin begun loop.initial
  check := check tested loop.condition
  turn := execute repeated loop.body
  advance := advance advanced loop.increment

/-- What a counted loop means. -/
def run (steps : Nat) (loop : Counted Nat) : Run Completion :=
  (loop.actions steps steps steps steps).run steps

/-- With more steps the parts of a loop go on. -/
theorem actions_extends (loop : Counted Nat)
    {begun tested repeated advanced begun' tested' repeated' advanced' : Nat}
    (begins : begun ≤ begun') (tests : tested ≤ tested') (repeats : repeated ≤ repeated')
    (advances : advanced ≤ advanced') :
    (loop.actions begun' tested' repeated' advanced').Extends
      (loop.actions begun tested repeated advanced) := by
  obtain ⟨initial, condition, increment, body⟩ := loop
  refine ⟨?_, ?_, (extends_of_le repeats).2 body, ?_⟩
  · cases initial with
    | none => exact .refl _
    | some statement => exact (extends_of_le begins).2 statement
  · cases condition with
    | none => exact .refl _
    | some condition => exact (extends_of_le tests).1 condition
  · cases increment with
    | none => exact .refl _
    | some value => exact ((extends_of_le advances).1 value).bind fun _ => .refl _

/-- The route inside the block that the body and the increment have in the plain loop: its scope is
idle. -/
def routeInside {ι : Type} (loop : Counted ι) (route : Route) : Route :=
  if loop.increment.isSome then route.past else route

/-- The parts of two counted loops are parallel, the first one with the block that its body and its
increment have in the plain loop, and the second one without. -/
structure Parallel (tables : Tables) (route : Route) (first second : Counted Nat) : Prop where
  /-- Their first parts are parallel. -/
  initial : Option.Rel (Stmt.Parallel tables route.inside) first.initial second.initial
  /-- Their conditions are parallel. -/
  condition : Option.Rel (Expr.Parallel tables route.inside) first.condition second.condition
  /-- Their bodies are parallel past the block. -/
  body : first.body.Parallel tables (first.routeInside route.inside) second.body
  /-- Their increments are parallel past the block. -/
  increment : Option.Rel (Expr.Parallel tables (first.routeInside route.inside)) first.increment
    second.increment

section

variable {tables : Tables} {route : Route} {loop direct : Counted Nat}

/-- The condition of the plain loop and that of the loop itself come to the same. -/
theorem Parallel.check (parallel : loop.Parallel tables route direct) (steps : Nat) :
    (evaluate (steps + 1) loop.test).Parallel tables route.inside
      (Counted.check (steps + 1) direct.condition) := by
  have conditions := parallel.condition
  unfold test
  generalize loop.condition = condition at conditions
  generalize direct.condition = condition' at conditions
  cases conditions with
  | none => exact .pure _
  | some same => exact (lockstep tables (steps + 1)).1 _ _ _ same

/-- The body of the plain loop comes to the same as the body and the increment of the loop itself,
with some steps for them. -/
theorem Parallel.round (parallel : loop.Parallel tables route direct) (steps : Nat) :
    ∃ repeated, steps ≤ repeated ∧ repeated ≤ steps + 2 ∧ ∀ begun tested,
      (execute (steps + 2) loop.round).Parallel tables route.inside
        (direct.actions begun tested repeated steps).round := by
  obtain ⟨initial, condition, increment, body⟩ := loop
  obtain ⟨initial', condition', increment', body'⟩ := direct
  have bodies := parallel.body
  have increments := parallel.increment
  cases increments with
  | none =>
    refine ⟨steps + 2, by omega, by omega, fun begun tested => ?_⟩
    have alone : (Counted.actions ⟨initial', condition', none, body'⟩ begun tested (steps + 2)
        steps).round = execute (steps + 2) body' := bind_unlessReturned_normal _
    rw [alone]
    exact (lockstep tables (steps + 2)).2 _ _ _ bodies
  | @some value value' same =>
    refine ⟨steps + 1, by omega, by omega, fun begun tested => ?_⟩
    have step : advance steps (some value') >>= (fun _ => pure .normal) =
        (evaluate steps value' >>= fun _ => pure .normal : Run Completion) :=
      bind_assoc _ _ _
    have both : (Counted.actions ⟨initial', condition', some value', body'⟩ begun tested
        (steps + 1) steps).round =
          execute (steps + 1) body' >>=
            unlessReturned (evaluate steps value' >>= fun _ => pure .normal) := by
      rw [← step]
      rfl
    have inner : execute (steps + 2)
        (Counted.round ⟨initial, condition, some value, body⟩) =
          inNewFrame (execute (steps + 1) body >>=
            unlessReturned (evaluate steps value >>= fun _ => pure .normal)) := by
      have last := executeAll_cons (execute (steps + 1)) (.expression value) []
      have all := executeAll_cons (execute (steps + 1)) body [.expression value]
      have ended : executeAll (execute (steps + 1)) [] = pure .normal := rfl
      rw [last, ended, bind_unlessReturned_normal] at all
      exact congrArg inNewFrame all
    have advances : Run.Parallel tables route.inside.past
        (evaluate steps value >>= fun _ => pure Completion.normal)
        (evaluate steps value' >>= fun _ => pure .normal) :=
      .bind ((lockstep tables steps).1 _ _ _ same) fun _ => .pure _
    have follows : Elementary (execute (steps + 1) body' >>=
        unlessReturned (evaluate steps value' >>= fun _ => pure .normal)) :=
      .bind (execute_follows (steps + 1) body') (elementary_invariant.unlessReturned
        (.bind (evaluate_follows steps value') fun _ => .pure _))
    rw [both, inner]
    exact inNewFrame_idle (.bind ((lockstep tables (steps + 1)).2 _ _ _ bodies)
      (unlessReturned_parallel advances)) fun machine => (follows machine).frame

/-- Running the tree of a counted loop comes to the same as the loop itself, with some more steps
for its parts. -/
theorem Parallel.tree (parallel : loop.Parallel tables route direct) (steps : Nat) :
    ∃ repeated, steps ≤ repeated ∧ repeated ≤ steps + 2 ∧
      (execute (steps + 4) loop.tree).Parallel tables route
        ((direct.actions (steps + 3) (steps + 2) repeated steps).run (steps + 2)) := by
  obtain ⟨repeated, more, less, rounds⟩ := parallel.round steps
  refine ⟨repeated, more, less, ?_⟩
  have looped : (execute (steps + 3) (.loop loop.test loop.round)).Parallel tables route.inside
      (repeatWhile (Counted.check (steps + 2) direct.condition)
        (direct.actions (steps + 3) (steps + 2) repeated steps).round (steps + 2)) :=
    repeatWhile_parallel (parallel.check (steps + 1)) (rounds _ _) (steps + 2)
  rw [Actions.run_eq]
  refine inNewFrame_parallel ?_
  have alone : executeAll (execute (steps + 3)) [.loop loop.test loop.round] =
      execute (steps + 3) (.loop loop.test loop.round) :=
    (executeAll_cons _ _ []).trans (bind_unlessReturned_normal _)
  have begun (initial initial' : Option (Stmt Nat))
      (same : Option.Rel (Stmt.Parallel tables route.inside) initial initial') :
      (executeAll (execute (steps + 3)) (initial.toList ++ [.loop loop.test loop.round])).Parallel
        tables route.inside
        (begin (steps + 3) initial' >>= unlessReturned
          (repeatWhile (Counted.check (steps + 2) direct.condition)
            (direct.actions (steps + 3) (steps + 2) repeated steps).round (steps + 2))) := by
    cases same with
    | none => exact alone ▸ looped
    | @some first _ head =>
      have parts := executeAll_cons (execute (steps + 3)) first [.loop loop.test loop.round]
      rw [alone] at parts
      exact parts ▸ .bind ((lockstep tables (steps + 3)).2 _ _ _ head)
        (unlessReturned_parallel looped)
  exact begun _ _ parallel.initial

/-- Running the tree of a counted loop comes to the same as the loop itself at machines that are
parallel: where one of them is not suspended for steps, the other one comes to the same with a few
steps more. -/
theorem Parallel.concurs (parallel : loop.Parallel tables route direct) {pairs : Pairing}
    {machine other : Machine} (machines : Machine.Parallel tables route pairs machine other)
    (steps : Nat) :
    ((direct.run steps other).1 ≠ .error (.suspended .steps) →
        Concurs tables route pairs machine.store other.store (execute (steps + 4) loop.tree machine)
          (direct.run steps other)) ∧
      ((execute steps loop.tree machine).1 ≠ .error (.suspended .steps) →
        Concurs tables route pairs machine.store other.store (execute steps loop.tree machine)
          (direct.run (steps + 4) other)) := by
  obtain ⟨repeated, more, less, same⟩ := parallel.tree steps
  have met := same pairs machine other machines
  refine ⟨fun ended => ?_, fun ended => ?_⟩
  · have further : (direct.actions (steps + 3) (steps + 2) repeated steps).Extends
        (direct.actions steps steps steps steps) :=
      direct.actions_extends (by omega) (by omega) more le_rfl
    have last : (direct.actions (steps + 3) (steps + 2) repeated steps).run (steps + 2) other =
        direct.run steps other :=
      (further.run (by omega) other).resolve_left ended
    rw [last] at met
    exact met
  · have longer := ((extends_of_le (Nat.le_add_right steps 4)).2 loop.tree machine).resolve_left
      ended
    rw [longer] at met
    have further : (direct.actions (steps + 4) (steps + 4) (steps + 4) (steps + 4)).Extends
        (direct.actions (steps + 3) (steps + 2) repeated steps) :=
      direct.actions_extends (by omega) (by omega) (by omega) (by omega)
    have last : direct.run (steps + 4) other =
        (direct.actions (steps + 3) (steps + 2) repeated steps).run (steps + 2) other :=
      (further.run (by omega) other).resolve_left (met.result ▸ ended)
    rw [last]
    exact met

end

end Counted

end KoreanLox
