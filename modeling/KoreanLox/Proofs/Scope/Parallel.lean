import KoreanLox.Proofs.Evaluation.Placement
import KoreanLox.Proofs.Scope.Agreement
import KoreanLox.Proofs.Tree.Copies
import KoreanLox.Proofs.Tree.Parallel

/-!
# Copies of a tree with and without idle scopes

A scope is idle if nothing is ever declared in it. Names are found at the distances to which a route
takes those at which they are found without the idle scopes (`Scopes.Routed.distance?`). So two
copies of a tree are parallel if both are well scoped, one of them in scopes of which some are idle
and the other one in the same scopes without those, as long as nothing is declared in an idle scope
(`Stmt.parallel_of_visited`).
-/

namespace KoreanLox

/-! ## Idle scopes -/

namespace Scopes

/-- Some scopes are others with further ones among them that are empty, along a route. -/
inductive Routed : Route → Scopes → Scopes → Prop where
  /-- No scope is idle. -/
  | same (scopes : Scopes) : Routed id scopes scopes
  /-- One more scope. -/
  | inside {route : Route} {first second : Scopes} (scope : Scope)
    (outer : Routed route first second) : Routed route.inside (scope :: first) (scope :: second)
  /-- One more scope that is idle. -/
  | past {route : Route} {first second : Scopes} (outer : Routed route first second) :
    Routed route.past ([] :: first) second

namespace Routed

variable {route : Route} {first second : Scopes}

/-- The route rises. -/
theorem strictMono (routed : Routed route first second) : StrictMono route := by
  induction routed with
  | same => exact strictMono_id
  | inside _ _ ih => exact Route.strictMono_inside ih
  | past _ ih => exact Route.strictMono_past ih

/-- A name is found where the route leads from where it is found without the idle scopes. -/
theorem distance? (routed : Routed route first second) (name : String) :
    first.distance? name = (second.distance? name).map route := by
  induction routed with
  | same => simp
  | @inside route first second scope outer ih =>
    by_cases bound : scope.binds name = true
    · rw [distance?_cons_of_binds bound, distance?_cons_of_binds bound]
      rfl
    · have missing : scope.binds name = false := by simpa using bound
      rw [distance?_cons_of_not_binds missing, distance?_cons_of_not_binds missing, ih]
      cases Scopes.distance? second name <;> rfl
  | @past route first second outer ih =>
    rw [distance?_cons_of_not_binds (by rfl), ih]
    cases Scopes.distance? second name <;> rfl

/-- Binding a name in the innermost scope keeps the route, if that scope is not idle. -/
theorem bind (routed : Routed route first second) (opened : route.Open) (name : String)
    (binding : Binding) : Routed route (first.bind name binding) (second.bind name binding) := by
  cases routed with
  | same => exact .same _
  | inside scope outer => exact .inside _ outer
  | @past route => exact absurd opened route.not_open_past

/-- Introducing a name in the innermost scope keeps the route, if that scope is not idle. -/
theorem introduce (routed : Routed route first second) (opened : route.Open) (name : String) :
    Routed route (first.introduce name) (second.introduce name) :=
  (routed.bind opened name .declared).bind opened name .defined

/-- Introducing parameters in the innermost scope keeps the route, if that scope is not idle. -/
theorem introduceAll (routed : Routed route first second) (opened : route.Open)
    (names : List Identifier) :
    Routed route (first.introduceAll names) (second.introduceAll names) := by
  induction names generalizing first second with
  | nil => exact routed
  | cons name rest ih => exact ih (routed.introduce opened name.name)

end Routed

end Scopes

/-! ## Copies -/

section

variable {tables : Tables} {route : Route} {enclosing : ClassContext} {scopes scopes' : Scopes}

open Correspondence

/-- Names that both tables record as their scopes have them are found along the route. -/
theorem Tables.finds_of_routed (routed : Scopes.Routed route scopes scopes') {name : String}
    {label other : Nat} (found : tables.first label = scopes.distance? name)
    (found' : tables.second other = scopes'.distance? name) : tables.Finds route label other := by
  rw [Finds, found, found']
  exact routed.distance? name

/-- The superclass is found along the route, and the receiver just inside of it. -/
theorem Tables.findsParent_of_routed (routed : Scopes.Routed route scopes scopes')
    (regular : scopes.Regular .extending) {label other : Nat}
    (found : tables.first label = scopes.distance? parentName)
    (found' : tables.second other = scopes'.distance? parentName) :
    tables.FindsParent route label other := by
  obtain ⟨inner, below, above⟩ := regular.exists_parent
  have parent := routed.distance? parentName
  have receiver := routed.distance? receiverName
  rw [above] at parent
  rw [below] at receiver
  -- The receiver and the superclass are at distances that follow each other, also without the
  -- idle scopes, as the route rises.
  obtain ⟨far, outside, far_eq⟩ := Option.map_eq_some_iff.mp parent.symm
  obtain ⟨near, inside, near_eq⟩ := Option.map_eq_some_iff.mp receiver.symm
  have next : far = near + 1 := Route.eq_succ_of_route routed.strictMono (by omega)
  subst next
  refine ⟨finds_of_routed routed found found', fun looked => ?_, fun distance looked => ?_⟩
  · rw [found', outside] at looked
    simp at looked
  · rw [found', outside] at looked
    obtain rfl : near = distance := by simpa using looked
    omega

mutual

/-- Two copies of an expression are parallel if both are well scoped, one of them in further scopes
that are idle. -/
theorem Expr.parallel_of_resolved (routed : Scopes.Routed route scopes scopes')
    (regular : scopes.Regular enclosing) {first second : Expr Nat}
    (agree : first.Agrees (anyLabels Nat Nat) second)
    (resolved : first.Resolved tables.first enclosing scopes)
    (resolved' : second.Resolved tables.second enclosing scopes') :
    first.Parallel tables route second := by
  cases agree with
  | literal value => exact .literal value
  | grouping inner =>
    exact .grouping (Expr.parallel_of_resolved routed regular inner resolved resolved')
  | unary place operand =>
    obtain rfl := place
    exact .unary (Expr.parallel_of_resolved routed regular operand resolved resolved')
  | binary place left right =>
    obtain rfl := place
    exact .binary (Expr.parallel_of_resolved routed regular left resolved.1 resolved'.1)
      (Expr.parallel_of_resolved routed regular right resolved.2 resolved'.2)
  | logical left right =>
    exact .logical (Expr.parallel_of_resolved routed regular left resolved.1 resolved'.1)
      (Expr.parallel_of_resolved routed regular right resolved.2 resolved'.2)
  | @read reference other target =>
    obtain ⟨name, label⟩ := reference
    obtain ⟨name', label'⟩ := other
    obtain rfl : name' = name := target.target.eq
    exact .read (Tables.finds_of_routed routed resolved.2 resolved'.2)
  | @assign reference other _ _ target value =>
    obtain ⟨name, label⟩ := reference
    obtain ⟨name', label'⟩ := other
    obtain rfl : name' = name := target.target.eq
    exact .assign (Tables.finds_of_routed routed resolved.1 resolved'.1)
      (Expr.parallel_of_resolved routed regular value resolved.2 resolved'.2)
  | call head values place =>
    obtain rfl := place
    exact .call (Expr.parallel_of_resolved routed regular head resolved.1 resolved'.1)
      (Expr.parallelAll_of_resolved routed regular values resolved.2 resolved'.2)
  | get object name =>
    obtain rfl := name.eq
    exact .get (Expr.parallel_of_resolved routed regular object resolved resolved')
  | set object name given =>
    obtain rfl := name.eq
    exact .set (Expr.parallel_of_resolved routed regular object resolved.1 resolved'.1)
      (Expr.parallel_of_resolved routed regular given resolved.2 resolved'.2)
  | receiver place =>
    obtain rfl := place
    exact .receiver (Tables.finds_of_routed routed resolved.2 resolved'.2)
  | inherited place name =>
    obtain rfl := place
    obtain rfl := name.eq
    obtain rfl := resolved.1
    exact .inherited (Tables.findsParent_of_routed routed regular resolved.2 resolved'.2)

/-- Two copies of some expressions are parallel if both are well scoped. -/
theorem Expr.parallelAll_of_resolved (routed : Scopes.Routed route scopes scopes')
    (regular : scopes.Regular enclosing) {first second : List (Expr Nat)}
    (agree : Expr.AgreesAll (anyLabels Nat Nat) first second)
    (resolved : Expr.ResolvedAll tables.first enclosing scopes first)
    (resolved' : Expr.ResolvedAll tables.second enclosing scopes' second) :
    Expr.ParallelAll tables route first second := by
  cases agree with
  | nil => exact .nil
  | cons head tail =>
    exact .cons (Expr.parallel_of_resolved routed regular head resolved.1 resolved'.1)
      (Expr.parallelAll_of_resolved routed regular tail resolved.2 resolved'.2)

end

end

section

variable {tables : Tables} {known : Nat → Prop} {origins : List (Program Nat)}

open Correspondence

/-- Two copies of a statement lead to scopes along the same route, if nothing is declared in an idle
scope. -/
theorem Stmt.Agrees.routed_after {first second : Stmt Nat}
    (agree : first.Agrees (anyLabels Nat Nat) second)
    (proper : ∃ marks other, first.Alike (.itself known) marks other) {route : Route}
    {scopes scopes' : Scopes} (routed : Scopes.Routed route scopes scopes')
    (opened : first.Declares → route.Open) (context : Context) :
    Scopes.Routed route (first.resolve context scopes).2 (second.resolve context scopes').2 := by
  rw [(agree.resolve context scopes').2]
  by_cases declares : first.Declares
  · obtain ⟨name, declared⟩ := declares.exists_name
    rw [Stmt.resolve_snd_of_declared declared, Stmt.resolve_snd_of_declared declared]
    exact routed.introduce (opened declares) name
  · rw [first.resolve_snd_of_not_declares proper declares,
      first.resolve_snd_of_not_declares proper declares]
    exact routed

mutual

/-- Two copies of a statement are parallel if one was visited in an accepted program and the other
is well scoped in the same scopes without idle ones, and nothing is declared in an idle scope. -/
theorem Stmt.parallel_of_visited (accepted : Accepted tables.first known origins)
    {context : Context} {scopes scopes' : Scopes} {route : Route} {first second : Stmt Nat}
    (visited : Visited origins ⟨context, scopes, none⟩ (.statement first))
    (agree : first.Agrees (anyLabels Nat Nat) second)
    (routed : Scopes.Routed route scopes scopes') (opened : first.Declares → route.Open)
    (resolved' : second.Resolved tables.second context scopes') :
    first.Parallel tables route second := by
  have ready := visited.ready accepted
  have regular := ready.regular
  have resolved := ready.resolved
  obtain ⟨marks, proper⟩ := ready.proper
  -- The recursion is on the tree, so that its shape is split before the agreement.
  cases first with
  | expression =>
    cases agree with
    | expression value =>
      exact .expression (Expr.parallel_of_resolved routed regular value resolved resolved')
  | print =>
    cases agree with
    | print value =>
      exact .print (Expr.parallel_of_resolved routed regular value resolved resolved')
  | declare =>
    have bare := opened trivial
    cases agree with
    | declare named =>
      obtain rfl := named.eq
      exact .declare bare
    | initialise named value =>
      obtain rfl := named.eq
      have inside := (visited.step fun _ visits => visits.initial).ready accepted
      exact .initialise bare (Expr.parallel_of_resolved (routed.bind bare _ _) inside.regular value
        inside.resolved resolved'.2)
  | block =>
    cases agree with
    | block inside =>
      exact .block (Stmt.parallelAll_of_visited accepted
        (visited.step fun _ visits => visits.block) inside (routed.inside []) route.open_inside
        resolved')
  | choose condition branch other =>
    cases other with
    | none =>
      cases agree with
      | choose test chosen =>
        cases proper with
        | choose _ single _ =>
          exact .choose (Expr.parallel_of_resolved routed regular test resolved.1 resolved'.1)
            (Stmt.parallel_of_visited accepted (visited.step fun _ visits => visits.thenBranch)
              chosen routed (fun declares => absurd declares single) resolved'.2)
    | some other =>
      cases agree with
      | chooseElse test chosen otherwise =>
        cases proper with
        | chooseElse _ single branch alone _ =>
          have after := chosen.routed_after ⟨_, _, branch⟩ routed
            (fun declares => absurd declares single) context
          exact .chooseElse
            (Expr.parallel_of_resolved routed regular test resolved.1.1 resolved'.1.1)
            (Stmt.parallel_of_visited accepted (visited.step fun _ visits => visits.thenBranch)
              chosen routed (fun declares => absurd declares single) resolved'.1.2)
            (Stmt.parallel_of_visited accepted (visited.step fun _ visits => visits.elseBranch)
              otherwise after (fun declares => absurd declares alone) resolved'.2)
  | loop =>
    cases agree with
    | loop test repeated =>
      cases proper with
      | loop _ single _ =>
        exact .loop (Expr.parallel_of_resolved routed regular test resolved.1 resolved'.1)
          (Stmt.parallel_of_visited accepted (visited.step fun _ visits => visits.loopBody)
            repeated routed (fun declares => absurd declares single) resolved'.2)
  | function declaration =>
    have bare := opened trivial
    cases agree with
    | function made =>
      have named := made.same.1
      have introduced := routed.introduce bare declaration.name.name
      have inner := resolved'.2
      rw [named] at inner
      exact .function bare (Stmt.functionParallel_of_visited accepted
        (visited.step fun _ visits => visits.function) made introduced inner)
  | finish =>
    cases agree with
    | finish place =>
      obtain rfl := place
      exact .finish
    | finishWith place value =>
      obtain rfl := place
      exact .finishWith (Expr.parallel_of_resolved routed regular value resolved.2 resolved'.2)
  | classDeclaration name parent methods =>
    have bare := opened trivial
    cases agree with
    | @plainClass _ other _ _ named made =>
      obtain rfl : other = name := named.eq
      have introduced := routed.introduce bare other.name
      exact .plainClass bare (Stmt.methodsParallel_of_visited accepted
        (fun method listed => visited.step fun _ visits => visits.method listed) made
        (introduced.inside _) resolved'.2)
    | @extendingClass _ other reference reference' _ _ named extended made =>
      obtain rfl : other = name := named.eq
      obtain ⟨above, label⟩ := reference
      obtain ⟨above', label'⟩ := reference'
      obtain rfl : above' = above := extended.target.eq
      have introduced := routed.introduce bare other.name
      exact .extendingClass bare
        (Tables.finds_of_routed introduced resolved.1.2.2.2 resolved'.1.2.2.2)
        (Stmt.methodsParallel_of_visited accepted
          (fun method listed => visited.step fun _ visits => visits.method listed) made
          ((introduced.inside _).inside _) resolved'.2)
termination_by structural first

/-- Two copies of some statements are parallel if one was visited in an accepted program and the
other is well scoped in the same scopes without idle ones. -/
theorem Stmt.parallelAll_of_visited (accepted : Accepted tables.first known origins)
    {context : Context} {scopes scopes' : Scopes} {route : Route} {first second : List (Stmt Nat)}
    (visited : Visited origins ⟨context, scopes, none⟩ (.statements first))
    (agree : Stmt.AgreesAll (anyLabels Nat Nat) first second)
    (routed : Scopes.Routed route scopes scopes') (opened : route.Open)
    (resolved' : Stmt.ResolvedAll tables.second context scopes' second) :
    Stmt.ParallelAll tables route first second := by
  cases first with
  | nil =>
    cases agree with
    | nil => exact .nil
  | cons =>
    cases agree with
    | cons head tail =>
      have start := visited.step fun _ visits => visits.first
      obtain ⟨marks, proper⟩ := (start.ready accepted).proper
      have after := head.routed_after ⟨marks, _, proper⟩ routed (fun _ => opened) context
      exact .cons (Stmt.parallel_of_visited accepted start head routed (fun _ => opened)
          resolved'.1)
        (Stmt.parallelAll_of_visited accepted (visited.step fun _ visits => visits.rest) tail
          after opened resolved'.2)
termination_by structural first

/-- Two copies of a function are parallel if one was visited in an accepted program and the other is
well scoped in the same scopes without idle ones. -/
theorem Stmt.functionParallel_of_visited (accepted : Accepted tables.first known origins)
    {context : Context} {scopes scopes' : Scopes} {route : Route}
    {first second : FunctionDecl Nat}
    (visited : Visited origins ⟨context, scopes, none⟩ (.function first))
    (agree : Stmt.FunctionAgrees (anyLabels Nat Nat) first second)
    (routed : Scopes.Routed route scopes scopes')
    (resolved' : Stmt.ResolvedFunction tables.second context scopes' second) :
    Stmt.FunctionParallel tables route first second := by
  obtain ⟨name, parameters, body⟩ := first
  cases agree with
  | intro named taken inside =>
    obtain rfl := named.eq
    obtain rfl := parameters_eq taken
    exact .intro (Stmt.parallelAll_of_visited accepted (visited.step fun _ visits => visits.body)
      inside ((routed.inside []).introduceAll route.open_inside _) route.open_inside resolved'.2)
termination_by structural first

/-- Two copies of some methods are parallel if one was visited in an accepted program and the other
is well scoped in the same scopes without idle ones. -/
theorem Stmt.methodsParallel_of_visited (accepted : Accepted tables.first known origins)
    {enclosing : ClassContext} {scopes scopes' : Scopes} {route : Route}
    {first second : List (FunctionDecl Nat)}
    (visited : ∀ method ∈ first, Visited origins
      ⟨⟨methodContext method.name.name, enclosing⟩, scopes, none⟩ (.function method))
    (agree : Stmt.MethodsAgree (anyLabels Nat Nat) first second)
    (routed : Scopes.Routed route scopes scopes')
    (resolved' : Stmt.ResolvedMethods tables.second enclosing scopes' second) :
    Stmt.MethodsParallel tables route first second := by
  cases first with
  | nil =>
    cases agree with
    | nil => exact .nil
  | cons method rest =>
    cases agree with
    | cons head tail =>
      have inner := resolved'.1
      rw [head.same.1] at inner
      exact .cons (Stmt.functionParallel_of_visited accepted (visited method List.mem_cons_self)
          head routed inner)
        (Stmt.methodsParallel_of_visited accepted
          (fun other listed => visited other (List.mem_cons_of_mem _ listed)) tail routed
          resolved'.2)
termination_by structural first

end

end

end KoreanLox
