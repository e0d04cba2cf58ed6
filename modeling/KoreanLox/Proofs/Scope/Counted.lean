import KoreanLox.Proofs.Evaluation.Counted
import KoreanLox.Proofs.Scope.Cleanness
import KoreanLox.Proofs.Scope.Parallel
import KoreanLox.Proofs.Scope.Walk
import KoreanLox.Proofs.Tree.Numbering

/-!
# Scopes of counted loops

The parts of a counted loop share the scope of the loop. In the plain loop as which it is read, a
block lies between that scope and the body with the increment, but nothing is declared in it: copies
of the parts that are well scoped with the scope of the loop alone are parallel to those in the
plain loop (`Counted.parallel_of_visited`). There are such copies of every counted loop of an
accepted program (`Counted.exists_copy`).
-/

namespace KoreanLox

open Correspondence

/-! ## Statements that leave the scopes alone -/

section

variable {table : Nat → Option Nat} {known : Nat → Prop} {origins : List (Program Nat)}
  {context : Context} {scopes scopes' : Scopes}

/-- Statements that leave the scopes alone are well scoped one after the other if each is. -/
theorem Stmt.resolvedAll_iff_of_quiet {statements : List (Stmt Nat)}
    (quiet : ∀ statement ∈ statements, (statement.resolve context scopes).2 = scopes) :
    Stmt.ResolvedAll table context scopes statements ↔
      ∀ statement ∈ statements, statement.Resolved table context scopes := by
  induction statements with
  | nil => simp [Stmt.ResolvedAll]
  | cons first rest ih =>
    rw [Stmt.ResolvedAll, quiet first List.mem_cons_self,
      ih fun statement listed => quiet statement (List.mem_cons_of_mem _ listed),
      List.forall_mem_cons]

/-- Statements that leave the scopes alone resolve without errors if each does. -/
theorem Stmt.errorsAll_of_quiet {statements : List (Stmt Nat)}
    (quiet : ∀ statement ∈ statements, (statement.resolve context scopes).2 = scopes)
    (clean : ∀ statement ∈ statements, (statement.resolve context scopes).1.errors = []) :
    (Stmt.resolveAll context scopes statements).1.errors = [] := by
  induction statements with
  | nil => rfl
  | cons first rest ih =>
    have later := ih (fun statement listed => quiet statement (List.mem_cons_of_mem _ listed))
      fun statement listed => clean statement (List.mem_cons_of_mem _ listed)
    rw [Stmt.resolveAll, Resolution.errors_append, quiet first List.mem_cons_self, later,
      clean first List.mem_cons_self]
    rfl

/-- A statement that declares nothing and was visited resolves without errors in other scopes too,
if there is some scope and no initial value is being read there. -/
theorem Stmt.errors_of_visited (accepted : Accepted table known origins) {statement : Stmt Nat}
    (visited : Visited origins ⟨context, scopes, none⟩ (.statement statement))
    (single : ¬ statement.Declares) (inside : scopes ≠ []) (settled' : scopes'.Settled)
    (inside' : scopes' ≠ []) : (statement.resolve context scopes').1.errors = [] := by
  have ready := visited.ready accepted
  obtain ⟨marks, alike⟩ := ready.proper
  exact (alike.errors_resolve_iff single context ready.settled_of_statement settled' inside
    inside').mp (Stmt.errors_of_resolved ready.resolved)

end

/-! ## Parts with and without the block -/

namespace Counted

/-- The scopes around the condition, the body and the increment of a loop: that of the loop itself,
with what its first part declares, inside those around the loop. -/
def scopesInside (context : Context) (scopes : Scopes) (loop : Counted Nat) : Scopes :=
  (Stmt.resolveAll context ([] :: scopes) loop.initial.toList).2

/-- The parts of a counted loop are well scoped with no scope but that of the loop inside those
around the loop, and a table has the distances of their nodes. -/
structure Resolved (table : Nat → Option Nat) (context : Context) (scopes : Scopes)
    (loop : Counted Nat) : Prop where
  /-- The first part is well scoped in the new scope. -/
  initial : ∀ statement ∈ loop.initial, statement.Resolved table context ([] :: scopes)
  /-- The condition is well scoped behind the first part. -/
  condition : ∀ value ∈ loop.condition,
    value.Resolved table context.enclosing (loop.scopesInside context scopes)
  /-- The body is well scoped behind the first part. -/
  body : loop.body.Resolved table context (loop.scopesInside context scopes)
  /-- The increment is well scoped behind the first part. -/
  increment : ∀ value ∈ loop.increment,
    value.Resolved table context.enclosing (loop.scopesInside context scopes)

section

variable {tables : Tables} {known : Nat → Prop} {origins : List (Program Nat)} {context : Context}
  {scopes : Scopes} {loop direct : Counted Nat}

/-- Loops that agree have the same scopes inside. -/
theorem Agrees.scopesInside_eq (agree : loop.Agrees (anyLabels Nat Nat) direct)
    (context : Context) (scopes : Scopes) :
    direct.scopesInside context scopes = loop.scopesInside context scopes := by
  have initials := agree.initial
  unfold scopesInside
  generalize loop.initial = initial at initials
  generalize direct.initial = initial' at initials
  cases initials with
  | none => rfl
  | some same => exact (same.resolve context ([] :: scopes)).2

/-- Where a counted loop is visited, so is the plain loop, in the scopes inside. -/
theorem visited_plain
    (visited : Visited origins ⟨context, scopes, none⟩ (.statement loop.tree)) :
    Visited origins ⟨context, loop.scopesInside context scopes, none⟩
        (.statement (.loop loop.test loop.round)) ∧
      ∀ statement ∈ loop.initial,
        Visited origins ⟨context, [] :: scopes, none⟩ (.statement statement) := by
  obtain ⟨initial, condition, increment, body⟩ := loop
  have inside := visited.step fun _ visits => visits.block
  cases initial with
  | none => exact ⟨inside.step fun _ visits => visits.first, nofun⟩
  | some statement =>
    refine ⟨(inside.step fun _ visits => visits.rest).step fun _ visits => visits.first, ?_⟩
    rintro _ ⟨⟩
    exact inside.step fun _ visits => visits.first

/-- Where a plain loop is visited whose body is that of a counted loop with an increment, the body
and the increment are visited in one more scope, which stays empty. -/
theorem visited_block {table : Nat → Option Nat} (accepted : Accepted table known origins)
    {statement : Stmt Nat} {value : Expr Nat} (single : ¬ statement.Declares)
    (visited : Visited origins ⟨context, scopes, none⟩
      (.statement (.block [statement, .expression value]))) :
    Visited origins ⟨context, [] :: scopes, none⟩ (.statement statement) ∧
      Visited origins ⟨context, [] :: scopes, none⟩ (.statement (.expression value)) := by
  have inside := visited.step fun _ visits => visits.block
  have first := inside.step fun _ visits => visits.first
  have second := (inside.step fun _ visits => visits.rest).step fun _ visits => visits.first
  obtain ⟨marks, alike⟩ := (first.ready accepted).proper
  rw [statement.resolve_snd_of_not_declares ⟨marks, _, alike⟩ single] at second
  exact ⟨first, second⟩

/-- The parts of a counted loop that was visited are parallel to copies of them that are well scoped
with the scope of the loop alone. -/
theorem parallel_of_visited (accepted : Accepted tables.first known origins)
    (visited : Visited origins ⟨context, scopes, none⟩ (.statement loop.tree))
    (single : ¬ loop.body.Declares) (agree : loop.Agrees (anyLabels Nat Nat) direct)
    (resolved : direct.Resolved tables.second context scopes) :
    loop.Parallel tables id direct := by
  obtain ⟨plain, begins⟩ := visited_plain visited
  have same := agree.scopesInside_eq context scopes
  obtain ⟨initial, condition, increment, body⟩ := loop
  obtain ⟨initial', condition', increment', body'⟩ := direct
  obtain ⟨initials, conditions, increments, bodies⟩ := agree
  obtain ⟨begun, tested, repeated, advanced⟩ := resolved
  rw [same] at tested repeated advanced
  dsimp only at initials conditions increments bodies begun tested repeated advanced
  have around : Scopes.Routed (Route.inside id)
      (scopesInside context scopes ⟨initial, condition, increment, body⟩)
      (scopesInside context scopes ⟨initial, condition, increment, body⟩) := by
    rw [Route.inside_id]
    exact .same _
  refine ⟨?_, ?_, ?_, ?_⟩
  · cases initials with
    | none => exact .none
    | some head =>
      exact .some (Stmt.parallel_of_visited accepted (begins _ rfl) head
        ((Scopes.Routed.same scopes).inside []) (fun _ => Route.open_inside id) (begun _ rfl))
  · cases conditions with
    | none => exact .none
    | some test =>
      have ready := (plain.step fun _ visits => visits.operand List.mem_cons_self).ready accepted
      exact .some (Expr.parallel_of_resolved around ready.regular test ready.resolved
        (tested _ rfl))
  · have rounds := plain.step fun _ visits => visits.loopBody
    cases increments with
    | none =>
      exact Stmt.parallel_of_visited accepted rounds bodies around
        (fun declares => absurd declares single) repeated
    | some step =>
      obtain ⟨first, -⟩ := visited_block accepted single rounds
      exact Stmt.parallel_of_visited accepted first bodies around.past
        (fun declares => absurd declares single) repeated
  · have rounds := plain.step fun _ visits => visits.loopBody
    cases increments with
    | none => exact .none
    | some step =>
      obtain ⟨-, second⟩ := visited_block accepted single rounds
      have ready :=
        (second.step fun _ visits => visits.operand List.mem_cons_self).ready accepted
      exact .some (Expr.parallel_of_resolved around.past ready.regular step
        ready.resolved (advanced _ rfl))

end

/-! ## Copies without the block -/

section

variable {table : Nat → Option Nat} {context : Context} {scopes : Scopes}

variable {loop : Counted Nat}

/-- What is true of all parts behind the first one. -/
theorem forall_mem_later {fact : Stmt Nat → Prop} :
    (∀ statement ∈ loop.later, fact statement) ↔
      (∀ value ∈ loop.condition, fact (.expression value)) ∧ fact loop.body ∧
        ∀ value ∈ loop.increment, fact (.expression value) := by
  obtain ⟨initial, condition, increment, body⟩ := loop
  cases condition <;> cases increment <;> simp [later]

/-- The parts behind the first one leave the scopes alone if the body does. -/
theorem quiet_later (quiet : (loop.body.resolve context scopes).2 = scopes) :
    ∀ statement ∈ loop.later, (statement.resolve context scopes).2 = scopes :=
  forall_mem_later.mpr ⟨fun _ _ => rfl, quiet, fun _ _ => rfl⟩

/-- A loop is well scoped if its parts are one after the other. -/
theorem resolved_of_parts
    (quiet : (loop.body.resolve context (loop.scopesInside context scopes)).2 =
      loop.scopesInside context scopes)
    (resolved : Stmt.ResolvedAll table context ([] :: scopes) loop.parts) :
    loop.Resolved table context scopes := by
  have apart : (∀ statement ∈ loop.initial, statement.Resolved table context ([] :: scopes)) ∧
      Stmt.ResolvedAll table context (loop.scopesInside context scopes) loop.later := by
    obtain ⟨initial, condition, increment, body⟩ := loop
    cases initial with
    | none => exact ⟨nofun, resolved⟩
    | some statement =>
      refine ⟨?_, resolved.2⟩
      rintro _ ⟨⟩
      exact resolved.1
  obtain ⟨begun, later⟩ := apart
  obtain ⟨tested, repeated, advanced⟩ :=
    forall_mem_later.mp ((Stmt.resolvedAll_iff_of_quiet (quiet_later quiet)).mp later)
  exact ⟨begun, tested, repeated, advanced⟩

/-- The parts of a loop resolve without errors one after the other if each does. -/
theorem errors_parts
    (quiet : (loop.body.resolve context (loop.scopesInside context scopes)).2 =
      loop.scopesInside context scopes)
    (begun : ∀ statement ∈ loop.initial,
      (statement.resolve context ([] :: scopes)).1.errors = [])
    (clean : ∀ statement ∈ loop.later,
      (statement.resolve context (loop.scopesInside context scopes)).1.errors = []) :
    (Stmt.resolveAll context ([] :: scopes) loop.parts).1.errors = [] := by
  have last := Stmt.errorsAll_of_quiet (quiet_later quiet) clean
  obtain ⟨initial, condition, increment, body⟩ := loop
  cases initial with
  | none => exact last
  | some statement => exact List.append_eq_nil_iff.mpr ⟨begun _ rfl, last⟩

/-- There is some scope inside a loop. -/
theorem scopesInside_ne_nil (context : Context) (scopes : Scopes) (loop : Counted Nat) :
    loop.scopesInside context scopes ≠ [] := by
  have shared := (Stmt.shares_resolveAll loop.initial.toList context ([] :: scopes)).length
  intro empty
  rw [scopesInside] at empty
  rw [empty] at shared
  simp at shared

end

section

variable {table : Nat → Option Nat} {known : Nat → Prop} {origins : List (Program Nat)}
  {context : Context} {scopes : Scopes} {loop : Counted Nat}

/-- Where a counted loop is visited, its body is visited in some scopes, and so is its increment. -/
theorem exists_visited (accepted : Accepted table known origins)
    (visited : Visited origins ⟨context, scopes, none⟩ (.statement loop.tree))
    (single : ¬ loop.body.Declares) :
    ∃ around, around ≠ [] ∧
      Visited origins ⟨context, around, none⟩ (.statement loop.body) ∧
        ∀ value ∈ loop.increment,
          Visited origins ⟨context, around, none⟩ (.statement (.expression value)) := by
  have rounds := (visited_plain visited).1.step fun _ visits => visits.loopBody
  have inside := scopesInside_ne_nil context scopes loop
  obtain ⟨initial, condition, increment, body⟩ := loop
  cases increment with
  | none => exact ⟨_, inside, rounds, nofun⟩
  | some value =>
    obtain ⟨first, second⟩ := visited_block accepted single rounds
    refine ⟨_, List.cons_ne_nil _ _, first, ?_⟩
    rintro _ ⟨⟩
    exact second

/-- The body of a counted loop that was visited leaves the scopes alone. -/
theorem quiet_of_visited (accepted : Accepted table known origins)
    (visited : Visited origins ⟨context, scopes, none⟩ (.statement loop.tree))
    (single : ¬ loop.body.Declares) (scopes' : Scopes) :
    (loop.body.resolve context scopes').2 = scopes' := by
  obtain ⟨around, -, body, -⟩ := exists_visited accepted visited single
  obtain ⟨marks, alike⟩ := (body.ready accepted).proper
  exact loop.body.resolve_snd_of_not_declares ⟨marks, _, alike⟩ single context scopes'

/-- The parts of a counted loop that was visited resolve without errors with the scope of the loop
alone. -/
theorem errors_parts_of_visited (accepted : Accepted table known origins)
    (visited : Visited origins ⟨context, scopes, none⟩ (.statement loop.tree))
    (single : ¬ loop.body.Declares) :
    (Stmt.resolveAll context ([] :: scopes) loop.parts).1.errors = [] := by
  obtain ⟨plain, begins⟩ := visited_plain visited
  obtain ⟨around, outer, body, step⟩ := exists_visited accepted visited single
  have settled := (plain.ready accepted).settled_of_statement
  have inside := scopesInside_ne_nil context scopes loop
  refine errors_parts (quiet_of_visited accepted visited single _)
    (fun statement given =>
      Stmt.errors_of_resolved ((begins statement given).ready accepted).resolved)
    (forall_mem_later.mpr ⟨fun value given => ?_, ?_, fun value given => ?_⟩)
  · have tested := (plain.step fun _ visits => visits.operand List.mem_cons_self).ready accepted
    rw [test, given] at tested
    exact Expr.errors_of_resolved tested.resolved
  · exact Stmt.errors_of_visited accepted body single outer settled inside
  · exact Stmt.errors_of_visited accepted (step value given) id outer settled inside

/-- Of every counted loop that was visited there is a copy with labels from any number on, and
distances for these labels with which the copy is well scoped with the scope of the loop alone. -/
theorem exists_copy (accepted : Accepted table known origins)
    (visited : Visited origins ⟨context, scopes, none⟩ (.statement loop.tree))
    (single : ¬ loop.body.Declares) (next : Nat) :
    ∃ (direct : Counted Nat) (distances : List (Nat × Nat)) (finish : Nat),
      loop.Agrees (anyLabels Nat Nat) direct ∧
        (∀ entry ∈ distances, next ≤ entry.1 ∧ entry.1 < finish) ∧
        ∀ table' : Nat → Option Nat,
          (∀ label, next ≤ label → table' label = distances.reverse.lookup label) →
            direct.Resolved table' context scopes := by
  have copied := Stmt.agreesAll_numberAll loop.parts next
  have within {label : Nat} :
      label ∈ Stmt.labelsAll (Stmt.numberAll loop.parts next).1 ↔
        next ≤ label ∧ label < (Stmt.numberAll loop.parts next).2 :=
    Program.labels_eq _ ▸ Program.mem_labels_number
  have settles := Stmt.settlesAll (Stmt.numberAll loop.parts next).1 context ([] :: scopes)
    (Program.labels_eq _ ▸ Program.nodup_labels loop.parts next)
  have clean : (Stmt.resolveAll context ([] :: scopes)
      (Stmt.numberAll loop.parts next).1).1.errors = [] := by
    have errors := (copied.resolve context ([] :: scopes)).1.errors
    rw [errors_parts_of_visited accepted visited single] at errors
    exact List.forall₂_nil_left_iff.mp errors
  obtain ⟨direct, agree, numbered⟩ := exists_of_agreesAll copied
  refine ⟨direct, _, _, agree, fun entry listed => within.mp (settles.within entry listed),
    fun table' recorded => ?_⟩
  have resolved := settles.settled table'
    ⟨clean, fun label listed => recorded label (within.mp listed).1⟩
  rw [numbered] at resolved
  refine resolved_of_parts ?_ resolved
  rw [(agree.body.resolve context _).2]
  exact quiet_of_visited accepted visited single _

end

end Counted

end KoreanLox
