import KoreanLox.Proofs.Evaluation.Activation
import KoreanLox.Proofs.Store.Exactness

/-!
# Tasks are taken up where resolving visited them

A moment is placed if resolving one of the accepted programs visited its task at a site whose
scopes the current frame hosts with no other names, and the store is sound. The parts of a placed
moment are placed, and what it leaves is a sound store that keeps what there was
(`Moment.Placed.sustained`). So every
moment that a run comes to is placed if its beginning is (`Moment.Placed.of_reaches`).
-/

namespace KoreanLox

open Run Evaluation

/-- Some programs are well scoped with a table, and their names are ordinary and labels known. -/
def Accepted (table : Nat → Option Nat) (known : Nat → Prop) (origins : List (Program Nat)) :
    Prop :=
  ∀ program ∈ origins, Stmt.ResolvedAll table .topLevel [] program ∧
    ∃ marks, Stmt.AlikeAll (.itself known) marks program program

/-- A visited node of accepted programs is ready. -/
theorem Visited.ready {table : Nat → Option Nat} {known : Nat → Prop}
    {origins : List (Program Nat)} {site : Site} {node : Node}
    (visited : Visited origins site node) (accepted : Accepted table known origins) :
    node.Ready table known site := by
  obtain ⟨program, listed, visits⟩ := visited
  exact visits.ready (accepted program listed).1 (accepted program listed).2

/-- What follows a visit follows a visit of the same program. -/
theorem Visited.step {origins : List (Program Nat)} {site other : Site} {node part : Node}
    (visited : Visited origins site node)
    (inside : ∀ program : Program Nat, program.Visits site node → program.Visits other part) :
    Visited origins other part := by
  obtain ⟨program, listed, visits⟩ := visited
  exact ⟨program, listed, inside program visits⟩

/-- A sequence of runs that comes to a value has a first one that does. -/
theorem Run.bind_eq_ok {α β : Type} {first : Run α} {next : α → Run β} {machine after : Machine}
    {result : β} (came : (first >>= next) machine = (.ok result, after)) :
    ∃ value between, first machine = (.ok value, between) ∧
      next value between = (.ok result, after) := by
  rw [bind_apply] at came
  cases begun : first machine with
  | mk outcome between =>
    rw [begun] at came
    cases outcome with
    | error reason => simp at came
    | ok value => exact ⟨value, between, rfl, came⟩

namespace Moment

/-- The machine that a task leaves. -/
def after : Moment → Machine
  | ⟨.value steps expression, machine⟩ => (evaluate steps expression machine).2
  | ⟨.values steps expressions, machine⟩ =>
    (evaluateAll (evaluate steps) expressions machine).2
  | ⟨.statement steps statement, machine⟩ => (execute steps statement machine).2
  | ⟨.statements steps statements, machine⟩ =>
    (executeAll (execute steps) statements machine).2
  | ⟨.rounds steps bound condition body, machine⟩ =>
    (repeatWhile (evaluate steps condition) (execute steps body) bound machine).2
  | ⟨.call steps closure arguments closing, machine⟩ =>
    (callClosure (executeAll (execute steps)) closure arguments closing machine).2

/-- Resolving some programs visited the task of a moment at a site whose scopes the current frame
hosts, with no other names; a function that is called was made where its scopes are hosted. -/
def Stands (origins : List (Program Nat)) : Moment → Prop
  | ⟨.value _ expression, machine⟩ =>
    ∃ site, Visited origins site (.expression expression) ∧ machine.Stands site.pending site.scopes
  | ⟨.values _ expressions, machine⟩ =>
    ∃ site, (∀ expression ∈ expressions, Visited origins site (.expression expression)) ∧
      machine.Stands site.pending site.scopes
  | ⟨.statement _ statement, machine⟩ =>
    ∃ context scopes, Visited origins ⟨context, scopes, none⟩ (.statement statement) ∧
      machine.Stands none scopes
  | ⟨.statements _ statements, machine⟩ =>
    ∃ context scopes, Visited origins ⟨context, scopes, none⟩ (.statements statements) ∧
      machine.Stands none scopes
  | ⟨.rounds _ _ condition body, machine⟩ =>
    ∃ context scopes, Visited origins ⟨context, scopes, none⟩ (.statement (.loop condition body)) ∧
      machine.Stands none scopes
  | ⟨.call _ closure arguments _, machine⟩ =>
    machine.store.Prepared origins closure ∧
      arguments.length = closure.declaration.parameters.length

/-- A moment is placed: its task was visited where its frame hosts the scopes, and its store is
sound. -/
structure Placed (origins : List (Program Nat)) (moment : Moment) : Prop where
  /-- The store is sound. -/
  sound : moment.machine.store.Sound origins
  /-- The task was visited where the frame hosts the scopes. -/
  stands : moment.Stands origins

/-- A placed expression was visited where the frame hosts the scopes. -/
theorem Placed.visits {origins : List (Program Nat)} {steps : Nat} {expression : Expr Nat}
    {machine : Machine} (placed : Placed origins ⟨.value steps expression, machine⟩) :
    ∃ site, Visited origins site (.expression expression) ∧
      machine.store.Hosts site.pending machine.frame site.scopes := by
  obtain ⟨site, visited, stands⟩ := placed.stands
  exact ⟨site, visited, stands.hosts⟩

/-- At a machine, a run takes up placed tasks and leaves a sound store that keeps what there was. -/
structure Sustains {α : Type} (origins : List (Program Nat)) (run : Run α)
    (parts : Machine → List Moment) (machine : Machine) : Prop where
  /-- The tasks are placed. -/
  parts : ∀ part ∈ parts machine, part.Placed origins
  /-- The store leads to a sound one. -/
  leads : machine.store.Leads origins (run machine).2.store

namespace Sustains

variable {α β : Type} {origins : List (Program Nat)} {machine : Machine}

/-- A run that takes up nothing. -/
theorem quiet {run : Run α} (leads : machine.store.Leads origins (run machine).2.store) :
    Sustains origins run (fun _ => []) machine := ⟨by simp, leads⟩

/-- A run that takes up nothing and leaves the store as it is. -/
theorem same {run : Run α} (sound : machine.store.Sound origins)
    (unchanged : (run machine).2.store = machine.store) :
    Sustains origins run (fun _ => []) machine := by
  refine quiet ?_
  rw [unchanged]
  exact sound.leads_refl

/-- Runs in sequence take up what the first takes up, and then what the second does. -/
theorem bind {first : Run α} {next : α → Run β} {early : Machine → List Moment}
    {late : α → Machine → List Moment} (head : Sustains origins first early machine)
    (tail : ∀ value between, first machine = (.ok value, between) →
      machine.store.Leads origins between.store →
      Sustains origins (next value) (late value) between) :
    Sustains origins (first >>= next)
      (fun machine => early machine ++ followed (first machine) late) machine := by
  have begun := head.leads
  cases came : first machine with
  | mk result between =>
    rw [came] at begun
    cases result with
    | error reason =>
      refine ⟨fun part taken => ?_, ?_⟩
      · rw [came, followed, List.append_nil] at taken
        exact head.parts part taken
      · rw [bind_apply, came]
        exact begun
    | ok value =>
      have ended := tail value between came begun
      refine ⟨fun part taken => ?_, ?_⟩
      · rw [came, followed] at taken
        rcases List.mem_append.mp taken with taken | taken
        · exact head.parts part taken
        · exact ended.parts part taken
      · rw [bind_apply, came]
        exact begun.trans ended.leads

/-- A run that takes up nothing may come last. -/
theorem bind_quiet {first : Run α} {next : α → Run β} {early : Machine → List Moment}
    (head : Sustains origins first early machine)
    (tail : ∀ value between, first machine = (.ok value, between) →
      machine.store.Leads origins between.store →
      between.store.Leads origins (next value between).2.store) :
    Sustains origins (first >>= next) early machine := by
  have both := head.bind fun value between came leads => quiet (tail value between came leads)
  refine ⟨fun part taken => both.parts part ?_, both.leads⟩
  simpa only [followed_nothing, List.append_nil] using taken

end Sustains

/-- Changes of arrays lead to a sound store. -/
theorem leads_of_arraySteps {origins : List (Program Nat)} {before after : Store}
    (sound : before.Sound origins) (steps : Relation.ReflTransGen Store.ArrayStep before after) :
    before.Leads origins after := by
  induction steps with
  | refl => exact sound.leads_refl
  | tail _ single ih =>
    refine ih.trans ?_
    cases single <;> exact ih.sound.leads_of_same rfl rfl rfl

/-- A frame that hosts scopes hosts them after a run that restores the frame. -/
theorem hosts_between {α : Type} {origins : List (Program Nat)} {run : Run α}
    {machine between : Machine} {result : Except Stop α} {pending : Option String}
    {scopes : Scopes} (restores : Elementary run) (came : run machine = (result, between))
    (leads : machine.store.Leads origins between.store)
    (hosts : machine.store.Hosts pending machine.frame scopes) :
    between.store.Hosts pending between.frame scopes := by
  have same := (restores machine).frame
  rw [came] at same
  rw [same]
  exact hosts.keep leads.keeps

/-- A frame that hosts scopes with no other names does so after the value of an expression. -/
theorem stands_between {origins : List (Program Nat)} {steps : Nat} {expression : Expr Nat}
    {machine between : Machine} {result : Except Stop Value} {pending : Option String}
    {scopes : Scopes} (came : evaluate steps expression machine = (result, between))
    (leads : machine.store.Leads origins between.store) (stands : machine.Stands pending scopes) :
    between.Stands pending scopes where
  hosts := hosts_between (evaluate_follows steps expression) came leads stands.hosts
  bare := by
    have same := (evaluate_follows steps expression machine).frame
    have confines := (evaluate_confined steps expression).store machine
    rw [came] at same confines
    rw [same]
    exact stands.bare.confined confines stands.hosts.index_lt

section

variable {table : Nat → Option Nat} {known : Nat → Prop} {origins : List (Program Nat)}
  {steps : Nat} {machine : Machine}

/-- All values of placed expressions with some steps lead to sound stores. -/
def ValuesLead (origins : List (Program Nat)) (steps : Nat) : Prop :=
  ∀ expression machine, Placed origins ⟨.value steps expression, machine⟩ →
    machine.store.Leads origins (evaluate steps expression machine).2.store

/-- All placed statements with some steps lead to sound stores. -/
def StatementsLead (origins : List (Program Nat)) (steps : Nat) : Prop :=
  ∀ statement machine, Placed origins ⟨.statement steps statement, machine⟩ →
    machine.store.Leads origins (execute steps statement machine).2.store

/-- The value of a placed expression, as a task. -/
theorem value_sustains (values : ValuesLead origins steps) {expression : Expr Nat}
    (placed : Placed origins ⟨.value steps expression, machine⟩) :
    Sustains origins (evaluate steps expression)
      (fun machine => [⟨.value steps expression, machine⟩]) machine :=
  ⟨by simpa using placed, values expression machine placed⟩

/-- A placed statement, as a task. -/
theorem statement_sustains (statements : StatementsLead origins steps) {statement : Stmt Nat}
    (placed : Placed origins ⟨.statement steps statement, machine⟩) :
    Sustains origins (execute steps statement)
      (fun machine => [⟨.statement steps statement, machine⟩]) machine :=
  ⟨by simpa using placed, statements statement machine placed⟩

/-- The values of placed expressions. -/
theorem values_sustains (values : ValuesLead origins steps) {expressions : List (Expr Nat)}
    (placed : Placed origins ⟨.values steps expressions, machine⟩) :
    Sustains origins (evaluateAll (evaluate steps) expressions)
      (fun machine => parts ⟨.values steps expressions, machine⟩) machine := by
  induction expressions generalizing machine with
  | nil => exact .same placed.sound rfl
  | cons first rest ih =>
    obtain ⟨site, visited, stands⟩ := placed.stands
    have head : Placed origins ⟨.value steps first, machine⟩ :=
      ⟨placed.sound, site, visited first List.mem_cons_self, stands⟩
    refine (value_sustains values head).bind fun value between came leads => ?_
    have later : Placed origins ⟨.values steps rest, between⟩ :=
      ⟨leads.sound, site, fun other listed => visited other (List.mem_cons_of_mem _ listed),
        stands_between came leads stands⟩
    have listed : Sustains origins (evaluateAll (evaluate steps) rest)
        (fun machine => [⟨.values steps rest, machine⟩]) between :=
      ⟨by simpa using later, (ih later).leads⟩
    exact listed.bind_quiet fun _ _ _ leads => leads.sound.leads_refl

/-- A statement that declares a name binds it last. -/
theorem exists_define_of_declared {statement : Stmt Nat} {between : Machine} {name : String}
    (declared : statement.declared? = some name)
    (came : execute steps statement machine = (.ok .normal, between)) :
    ∃ (store : Store) (value : Value), between.store = store.define machine.frame name value := by
  have final {earlier : Machine} {name : String} {value : Value}
      (ended : (declare name value >>= fun _ => pure Completion.normal) earlier =
        (.ok .normal, between)) :
      between.store = earlier.store.define earlier.frame name value := by
    obtain rfl : _ = between := congrArg Prod.snd ended
    rfl
  cases steps with
  | zero => exact absurd (congrArg Prod.fst came) nofun
  | succ steps =>
    cases statement with
    | declare identifier initial =>
      obtain rfl := Option.some.inj declared
      cases initial with
      | none => exact ⟨_, _, final came⟩
      | some initial =>
        obtain ⟨value, earlier, begun, ended⟩ := Run.bind_eq_ok came
        have same := (evaluate_follows steps initial machine).frame
        rw [begun] at same
        exact ⟨_, _, (final ended).trans (by rw [same])⟩
    | function declaration =>
      obtain rfl := Option.some.inj declared
      obtain rfl : _ = between := congrArg Prod.snd came
      exact ⟨_, _, rfl⟩
    | classDeclaration identifier parent methods =>
      obtain rfl := Option.some.inj declared
      obtain ⟨extended, earlier, begun, ended⟩ := Run.bind_eq_ok came
      have same := (plain_pervasive.parentClass parent (fun _ _ => trivial) machine).frame
      rw [begun] at same
      obtain rfl : _ = between := congrArg Prod.snd ended
      rw [← same]
      cases extended <;> exact ⟨_, _, rfl⟩
    | _ => simp [Stmt.declared?] at declared

/-- After a placed statement that completes normally, the current frame hosts the scopes after
it. -/
theorem hosts_after (accepted : Accepted table known origins) {statement : Stmt Nat}
    {between : Machine} {context : Context} {scopes : Scopes}
    (visited : Visited origins ⟨context, scopes, none⟩ (.statement statement))
    (hosts : machine.store.Hosts none machine.frame scopes)
    (came : execute steps statement machine = (.ok .normal, between))
    (leads : machine.store.Leads origins between.store) :
    between.store.Hosts none between.frame (statement.resolve context scopes).2 := by
  obtain ⟨marks, proper⟩ := (visited.ready accepted).proper
  have kept := hosts_between (execute_follows steps statement) came leads hosts
  by_cases declares : statement.Declares
  · obtain ⟨name, declared⟩ := declares.exists_name
    obtain ⟨store, value, bound⟩ := exists_define_of_declared declared came
    have same := (execute_follows steps statement machine).frame
    rw [came] at same
    rw [Stmt.resolve_snd_of_declared declared]
    refine kept.introduce (proper.ordinary_of_declared declared) fun present => ?_
    rw [bound, same] at present ⊢
    exact Store.own?_define_self present
  · rw [statement.resolve_snd_of_not_declares ⟨marks, statement, proper⟩ declares context scopes]
    exact kept

/-- After a placed statement that completes normally, the current frame has no other names than the
scopes after it. -/
theorem stands_after (accepted : Accepted table known origins) {statement : Stmt Nat}
    {between : Machine} {context : Context} {scopes : Scopes}
    (visited : Visited origins ⟨context, scopes, none⟩ (.statement statement))
    (stands : machine.Stands none scopes)
    (came : execute steps statement machine = (.ok .normal, between))
    (leads : machine.store.Leads origins between.store) :
    between.Stands none (statement.resolve context scopes).2 where
  hosts := hosts_after accepted visited stands.hosts came leads
  bare := by
    have same := (execute_follows steps statement machine).frame
    have declares := execute_declares steps statement machine
    rw [came] at same declares
    rw [same]
    exact stands.bare.extend declares stands.hosts.index_lt
      (fun name offers => offers.resolve statement context)
      fun name here => scopes.offers_resolve statement context here.2

/-- Going on after a statement takes up the next task, if the statement completed normally. -/
theorem continued_sustains {next : Run Completion} {task : Task}
    (sound : machine.store.Sound origins) (completion : Completion) :
    (completion = .normal →
        Sustains origins next (fun machine => [⟨task, machine⟩]) machine) →
      Sustains origins (unlessReturned next completion)
        (fun machine =>
          match completion with
          | .normal => [⟨task, machine⟩]
          | .returned _ => []) machine := by
  intro normal
  cases completion with
  | normal => exact normal rfl
  | returned value => exact .same sound rfl

/-- Placed statements in order. -/
theorem statements_sustains (accepted : Accepted table known origins)
    (single : StatementsLead origins steps) {statements : List (Stmt Nat)}
    (placed : Placed origins ⟨.statements steps statements, machine⟩) :
    Sustains origins (executeAll (execute steps) statements)
      (fun machine => parts ⟨.statements steps statements, machine⟩) machine := by
  induction statements generalizing machine with
  | nil => exact .same placed.sound rfl
  | cons first rest ih =>
    obtain ⟨context, scopes, visited, stands⟩ := placed.stands
    have entered := visited.step fun _ => Program.Visits.first
    have head : Placed origins ⟨.statement steps first, machine⟩ :=
      ⟨placed.sound, context, scopes, entered, stands⟩
    rw [executeAll_cons]
    refine (statement_sustains single head).bind fun completion between came leads =>
      continued_sustains leads.sound completion fun normal => ?_
    subst normal
    have later : Placed origins ⟨.statements steps rest, between⟩ :=
      ⟨leads.sound, context, _, visited.step fun _ => Program.Visits.rest,
        stands_after accepted entered stands came leads⟩
    exact ⟨by simpa using later, (ih later).leads⟩

/-- The rounds of a placed loop. -/
theorem rounds_sustains (accepted : Accepted table known origins)
    (values : ValuesLead origins steps) (single : StatementsLead origins steps) {bound : Nat}
    {condition : Expr Nat} {body : Stmt Nat}
    (placed : Placed origins ⟨.rounds steps bound condition body, machine⟩) :
    Sustains origins (repeatWhile (evaluate steps condition) (execute steps body) bound)
      (fun machine => parts ⟨.rounds steps bound condition body, machine⟩) machine := by
  induction bound generalizing machine with
  | zero => exact .same placed.sound rfl
  | succ bound ih =>
    obtain ⟨context, scopes, visited, stands⟩ := placed.stands
    have tested := visited.step fun _ loop => Program.Visits.operand loop List.mem_cons_self
    have repeated := visited.step fun _ => Program.Visits.loopBody
    have head : Placed origins ⟨.value steps condition, machine⟩ :=
      ⟨placed.sound, ⟨context, scopes, none⟩, tested, stands⟩
    rw [repeatWhile_succ]
    refine (value_sustains values head).bind fun value between came leads => ?_
    have standing := stands_between came leads stands
    by_cases truthy : value.isTruthy
    · simp only [if_pos truthy]
      have round : Placed origins ⟨.statement steps body, between⟩ :=
        ⟨leads.sound, context, scopes, repeated, standing⟩
      refine (statement_sustains single round).bind fun completion last ended further =>
        continued_sustains further.sound completion fun normal => ?_
      subst normal
      have unchanged : (body.resolve context scopes).2 = scopes := by
        obtain ⟨marks, proper⟩ := (visited.ready accepted).proper
        cases proper with
        | loop _ alone repeated =>
          exact body.resolve_snd_of_not_declares ⟨_, _, repeated⟩ alone context scopes
      have again := stands_after accepted repeated standing ended further
      rw [unchanged] at again
      have later : Placed origins ⟨.rounds steps bound condition body, last⟩ :=
        ⟨further.sound, context, scopes, visited, again⟩
      exact ⟨by simpa using later, (ih later).leads⟩
    · simp only [if_neg truthy]
      exact .same leads.sound rfl

/-- The frame of a call of a prepared function hosts the scopes of its body. -/
theorem placed_body (accepted : Accepted table known origins) {closure : Closure}
    {arguments : List Value} {closing : Span}
    (placed : Placed origins ⟨.call steps closure arguments closing, machine⟩) :
    machine.store.Leads origins (inCall closure arguments machine).store ∧
      Placed origins
        ⟨.statements steps closure.declaration.body, inCall closure arguments machine⟩ := by
  obtain ⟨⟨context, scopes, visited, hosts⟩, counted⟩ := placed.stands
  have ordinary : ∀ name ∈ closure.declaration.parameters, Ordinary name.name := by
    obtain ⟨marks, proper⟩ := (visited.visited.ready accepted).proper
    generalize closure.declaration = declaration at proper
    cases proper with
    | intro _ _ taken => exact taken.ordinary
  have listed : ∀ binding ∈ (closure.declaration.parameters.map Identifier.name).zip arguments,
      Ordinary binding.1 := by
    intro binding listed
    obtain ⟨name, listed, same⟩ := List.mem_map.mp (List.of_mem_zip listed).1
    exact same ▸ ordinary name listed
  have opened := placed.sound.leads_addFrame ⟨{}, some closure.frame⟩
  have bound := opened.sound.leads_defineAll ⟨machine.store.frames.size⟩ listed
  have inside : machine.store.frames.size <
      (machine.store.addFrame ⟨{}, some closure.frame⟩).2.frames.size := by simp [Store.addFrame]
  have bare := (Store.Bare.push machine.store (some closure.frame) scopes).defineAll inside
    closure.declaration.parameters arguments
  exact ⟨opened.trans bound, bound.sound, context, _,
    visited.visited.step fun _ => Program.Visits.body,
    hosts.push.defineAll counted ordinary, bare⟩

/-- A placed call. -/
theorem call_sustains (accepted : Accepted table known origins)
    (single : StatementsLead origins steps) {closure : Closure} {arguments : List Value}
    {closing : Span} (placed : Placed origins ⟨.call steps closure arguments closing, machine⟩) :
    Sustains origins (callClosure (executeAll (execute steps)) closure arguments closing)
      (fun machine => parts ⟨.call steps closure arguments closing, machine⟩) machine := by
  obtain ⟨entered, inside⟩ := placed_body accepted placed
  have ran := (statements_sustains accepted single inside).leads
  refine ⟨fun part taken => ?_, ?_⟩
  · simp only [parts] at taken
    split at taken
    · simp at taken
    · obtain rfl := List.mem_singleton.mp taken
      exact inside
  · rw [callClosure_apply]
    split
    · exact entered
    · generalize executeAll (execute steps) closure.declaration.body _ = result at ran
      obtain ⟨result, last⟩ := result
      cases result <;> exact entered.trans ran

/-- What follows a check of the number of arguments follows if the number is right. -/
theorem checkArity_bind {β : Type} (callee : String) (expected : Nat) (arguments : List Value)
    (closing : Span) (next : Unit → Run β) (machine : Machine) :
    (checkArity callee expected arguments closing >>= next) machine =
      if arguments.length = expected then next () machine
      else
        (.error (.failure ⟨.arity callee expected arguments.length, some closing⟩), machine) := by
  unfold checkArity
  split <;> rfl

/-- A function of the store is called if the number of arguments is right. -/
theorem invokeFunction_apply (body : List (Stmt Nat) → Run Completion) (ref : FunctionRef)
    (arguments : List Value) (closing : Span) (machine : Machine) :
    invoke body (.function ref) arguments closing machine =
      match machine.store.function? ref with
      | none => (.error (.failure ⟨.notCallable (.function ref), some closing⟩), machine)
      | some closure =>
        if arguments.length = closure.declaration.parameters.length then
          callClosure body closure arguments closing machine
        else
          (.error (.failure ⟨.arity closure.declaration.name.name
            closure.declaration.parameters.length arguments.length, some closing⟩), machine) := by
  unfold invoke
  dsimp only
  rw [bind_apply, inspect]
  cases machine.store.function? ref with
  | none => rfl
  | some closure => exact checkArity_bind _ _ _ _ _ _

/-- Invoking a function of a sound store. -/
theorem invokeFunction_sustains (accepted : Accepted table known origins)
    (single : StatementsLead origins steps) {ref : FunctionRef} {arguments : List Value}
    {closing : Span} (sound : machine.store.Sound origins) :
    Sustains origins (invoke (executeAll (execute steps)) (.function ref) arguments closing)
      (invocation steps (.function ref) arguments closing) machine := by
  have ran := invokeFunction_apply (executeAll (execute steps)) ref arguments closing machine
  cases found : machine.store.function? ref with
  | none =>
    rw [found] at ran
    refine ⟨by simp [invocation, found], ?_⟩
    rw [ran]
    exact sound.leads_refl
  | some closure =>
    rw [found] at ran
    by_cases counted : arguments.length = closure.declaration.parameters.length
    · have called : Placed origins ⟨.call steps closure arguments closing, machine⟩ :=
        ⟨sound, sound.function ref closure found, counted⟩
      refine ⟨?_, ?_⟩
      · simpa [invocation, found, counted] using called
      · simp only [ran, if_pos counted]
        exact (call_sustains accepted single called).leads
    · refine ⟨by simp [invocation, found, counted], ?_⟩
      simp only [ran, if_neg counted]
      exact sound.leads_refl

/-- Making an instance runs the nearest initializer, bound to it. -/
theorem construct_apply {body : List (Stmt Nat) → Run Completion} {ref : ClassRef}
    {arguments : List Value} {closing : Span} {made : InstanceRef} {store : Store}
    (added : machine.store.addInstance ⟨ref, {}⟩ = (made, store)) :
    construct body ref arguments closing machine =
      match store.method? ref initializerName with
      | none => (.ok (.instanceObject made), { machine with store })
      | some method =>
        (callClosure body (store.bindMethod method made).1 arguments closing >>= fun _ =>
            pure (.instanceObject made))
          { machine with store := (store.bindMethod method made).2 } := by
  obtain rfl : _ = made := congrArg Prod.fst added
  obtain rfl : _ = store := congrArg Prod.snd added
  change (match (machine.store.addInstance ⟨ref, {}⟩).2.method? ref initializerName with
    | none => _
    | some method => _ : Run Value) _ = _
  cases (machine.store.addInstance ⟨ref, {}⟩).2.method? ref initializerName <;> rfl

/-- Making an instance of a class of a sound store. -/
theorem construct_sustains (accepted : Accepted table known origins)
    (single : StatementsLead origins steps) {ref : ClassRef} {arguments : List Value}
    (closing : Span) (sound : machine.store.Sound origins)
    (counted : arguments.length = machine.store.classArity ref) :
    Sustains origins (construct (executeAll (execute steps)) ref arguments closing)
      (invocation steps (.classObject ref) arguments closing) machine := by
  have leads : machine.store.Leads origins (machine.store.addInstance ⟨ref, {}⟩).2 :=
    sound.leads_of_same rfl rfl rfl
  have arity := Store.method?_addInstance machine.store ⟨ref, {}⟩ ref initializerName
  cases added : machine.store.addInstance ⟨ref, {}⟩ with
  | mk made store =>
    rw [added] at leads arity
    have ran : construct (executeAll (execute steps)) ref arguments closing machine = _ :=
      construct_apply added
    cases found : store.method? ref initializerName with
    | none =>
      rw [found] at ran
      refine ⟨by simp [invocation, counted, added, found], ?_⟩
      rw [ran]
      exact leads
    | some method =>
      rw [found] at ran arity
      obtain ⟨bound, prepared⟩ :=
        leads.sound.leads_bindMethod (leads.sound.prepared_method? found) made
      have taken : arguments.length = method.declaration.parameters.length := by
        rw [counted, Store.classArity, ← arity]
      have called : Placed origins
          ⟨.call steps (store.bindMethod method made).1 arguments closing,
            { machine with store := (store.bindMethod method made).2 }⟩ :=
        ⟨bound.sound, prepared, taken⟩
      have initialised : Sustains origins
          (callClosure (executeAll (execute steps)) (store.bindMethod method made).1 arguments
            closing >>= fun _ => pure (Value.instanceObject made)) _ _ :=
        (call_sustains accepted single called).bind_quiet fun _ _ _ further =>
          further.sound.leads_refl
      refine ⟨?_, ?_⟩
      · simpa [invocation, counted, added, found] using called
      · rw [ran]
        exact (leads.trans bound).trans initialised.leads

/-- Invoking a value at a sound store. -/
theorem invocation_sustains (accepted : Accepted table known origins)
    (single : StatementsLead origins steps) (callee : Value) (arguments : List Value)
    (closing : Span) (sound : machine.store.Sound origins) :
    Sustains origins (invoke (executeAll (execute steps)) callee arguments closing)
      (invocation steps callee arguments closing) machine := by
  cases callee with
  | function ref => exact invokeFunction_sustains accepted single sound
  | native native =>
    refine ⟨by simp [invocation], ?_⟩
    have ran : invoke (executeAll (execute steps)) (.native native) arguments closing machine = _ :=
      checkArity_bind _ _ _ _ _ _
    rw [ran]
    split
    · exact leads_of_arraySteps sound (callNative_follows closing native arguments machine).store
    · exact sound.leads_refl
  | classObject ref =>
    have ran : invoke (executeAll (execute steps)) (.classObject ref) arguments closing machine =
        _ := checkArity_bind _ _ _ _ _ _
    by_cases counted : arguments.length = machine.store.classArity ref
    · have made := construct_sustains accepted single closing sound counted
      refine ⟨made.parts, ?_⟩
      rw [ran, if_pos counted]
      exact made.leads
    · refine ⟨by simp [invocation, counted], ?_⟩
      rw [ran, if_neg counted]
      exact sound.leads_refl
  | _ => exact ⟨by simp [invocation], sound.leads_refl⟩

/-- Binding a prepared method and making it a function leads to a sound store. -/
theorem leads_bound (sound : machine.store.Sound origins) {method : Closure}
    (prepared : machine.store.PreparedMethod origins method) (receiver : InstanceRef) :
    machine.store.Leads origins (bound method receiver machine).2.store := by
  obtain ⟨leads, ready⟩ := sound.leads_bindMethod prepared receiver
  exact leads.trans (leads.sound.leads_addFunction ready)

/-- A property of an instance is a field, or else a method bound to it. -/
theorem property_apply (ref : InstanceRef) (name : Identifier) (machine : Machine) :
    property ref name machine =
      match machine.store.field? ref name.name with
      | some value => (.ok value, machine)
      | none =>
        match machine.store.instanceMethod? ref name.name with
        | some method => bound method ref machine
        | none => (.error (.failure ⟨.undefinedProperty name.name, some name.span⟩), machine) := by
  unfold property
  rw [bind_apply, inspect]
  cases machine.store.field? ref name.name with
  | some value => rfl
  | none =>
    dsimp only
    rw [bind_apply, inspect]
    cases machine.store.instanceMethod? ref name.name <;> rfl

/-- Taking a property of an instance leads to a sound store. -/
theorem leads_property (sound : machine.store.Sound origins) (ref : InstanceRef)
    (name : Identifier) : machine.store.Leads origins (property ref name machine).2.store := by
  rw [property_apply]
  split
  next => exact sound.leads_refl
  next =>
    split
    next method found =>
      unfold Store.instanceMethod? at found
      split at found
      · simp at found
      · exact leads_bound sound (sound.prepared_method? found) ref
    next => exact sound.leads_refl

/-- Finding the superclass and the receiver changes nothing. -/
theorem parentAndReceiver_snd (label : Nat) (keyword : Span) (machine : Machine) :
    (parentAndReceiver label keyword machine).2 = machine := by
  rw [parentAndReceiver_apply]
  split <;> rfl

/-- Taking a method of the superclass leads to a sound store. -/
theorem leads_inheritedMethod (sound : machine.store.Sound origins) (label : Nat) (keyword : Span)
    (method : Identifier) :
    machine.store.Leads origins (inheritedMethod label keyword method machine).2.store := by
  have same := parentAndReceiver_snd label keyword machine
  unfold inheritedMethod
  rw [bind_apply]
  cases came : parentAndReceiver label keyword machine with
  | mk result between =>
    obtain rfl : between = machine := by rw [came] at same; exact same
    cases result with
    | error reason => exact sound.leads_refl
    | ok found =>
      obtain ⟨parent, receiver⟩ := found
      dsimp only
      rw [bind_apply, inspect]
      cases listed : between.store.method? parent method.name with
      | none => exact sound.leads_refl
      | some found => exact leads_bound sound (sound.prepared_method? listed) receiver

/-- Giving an ordinary name another value leads to a sound store. -/
theorem leads_assignName (sound : machine.store.Sound origins) (label : Nat) {name : Identifier}
    (ordinary : Ordinary name.name) (value : Value) :
    machine.store.Leads origins (assignName label name value machine).2.store := by
  rw [assignName_apply]
  cases holder? machine label name.name with
  | none => exact sound.leads_refl
  | some frame => exact sound.leads_define frame ordinary value

/-- Reading a name changes nothing. -/
theorem readName_snd (label : Nat) (name : Identifier) (machine : Machine) :
    (readName label name machine).2 = machine := by
  simp only [readName]
  split <;> rfl

/-- The value of a placed expression. -/
theorem valueParts_sustains (accepted : Accepted table known origins)
    (values : ValuesLead origins steps) (single : StatementsLead origins steps)
    {expression : Expr Nat} (placed : Placed origins ⟨.value (steps + 1) expression, machine⟩) :
    Sustains origins (evaluate (steps + 1) expression)
      (fun machine => valueParts steps machine expression) machine := by
  obtain ⟨site, visited, stands⟩ := placed.stands
  have sound : machine.store.Sound origins := placed.sound
  have inner {part : Expr Nat} (listed : part ∈ expression.operands) {between : Machine}
      (leads : between.store.Sound origins)
      (standing : between.Stands site.pending site.scopes) :
      Placed origins ⟨.value steps part, between⟩ :=
    ⟨leads, site, visited.step fun _ visits => .inner visits listed, standing⟩
  have later {part : Expr Nat} {value : Value} {between : Machine}
      (came : evaluate steps part machine = (.ok value, between))
      (leads : machine.store.Leads origins between.store) := stands_between came leads stands
  cases expression with
  | literal => exact .same sound rfl
  | grouping inside => exact value_sustains values (inner List.mem_cons_self sound stands)
  | unary operator span operand =>
    refine (value_sustains values (inner List.mem_cons_self sound stands)).bind_quiet
      fun value between _ leads => ?_
    cases operator.apply value <;> exact leads.sound.leads_refl
  | binary operator span left right =>
    refine (value_sustains values (inner List.mem_cons_self sound stands)).bind
      fun value between came leads => ?_
    have second : Placed origins ⟨.value steps right, between⟩ :=
      inner (by simp [Expr.operands]) leads.sound (later came leads)
    refine (value_sustains values second).bind_quiet fun other last _ further => ?_
    cases operator.apply value other <;> exact further.sound.leads_refl
  | logical operator left right =>
    refine (value_sustains values (inner List.mem_cons_self sound stands)).bind
      fun value between came leads => ?_
    have second : Placed origins ⟨.value steps right, between⟩ :=
      inner (by simp [Expr.operands]) leads.sound (later came leads)
    by_cases decided : operator.isDecidedBy value
    · simp only [if_pos decided]
      exact .same leads.sound rfl
    · simp only [if_neg decided]
      exact value_sustains values second
  | read reference => exact .same sound (congrArg Machine.store (readName_snd _ _ _))
  | assign reference value =>
    refine (value_sustains values (inner List.mem_cons_self sound stands)).bind_quiet
      fun found between _ leads => leads_assignName leads.sound _ ?_ found
    obtain ⟨marks, proper⟩ := (visited.ready accepted).proper
    cases proper with
    | assign target =>
      obtain ⟨-, distance, -, named⟩ := target
      exact named.allowed
  | call callee arguments closing =>
    refine (value_sustains values (inner List.mem_cons_self sound stands)).bind
      fun called between came leads => ?_
    have given : Placed origins ⟨.values steps arguments, between⟩ :=
      ⟨leads.sound, site, fun part listed => visited.step fun _ visits =>
        .inner visits (List.mem_cons_of_mem callee listed), later came leads⟩
    have listed : Sustains origins (evaluateAll (evaluate steps) arguments)
        (fun machine => [⟨.values steps arguments, machine⟩]) between :=
      ⟨by simpa using given, (values_sustains values given).leads⟩
    exact listed.bind fun found last _ further =>
      invocation_sustains accepted single called found closing further.sound
  | get object name =>
    refine (value_sustains values (inner List.mem_cons_self sound stands)).bind_quiet
      fun found between _ leads => ?_
    cases found with
    | instanceObject ref => exact leads_property leads.sound ref name
    | _ => exact leads.sound.leads_refl
  | set object name value =>
    refine (value_sustains values (inner List.mem_cons_self sound stands)).bind
      fun found between came leads => ?_
    have second : Placed origins ⟨.value steps value, between⟩ :=
      inner (by simp [Expr.operands]) leads.sound (later came leads)
    cases found with
    | instanceObject ref =>
      exact (value_sustains values second).bind_quiet fun given last _ further =>
        further.sound.leads_of_same rfl rfl rfl
    | _ => exact .same leads.sound rfl
  | receiver keyword label => exact .same sound (congrArg Machine.store (readName_snd _ _ _))
  | inherited keyword method label =>
    exact .quiet (leads_inheritedMethod sound label keyword method)

/-- Declaring a placed class leads to a sound store. -/
theorem leads_declareClass (accepted : Accepted table known origins)
    (sound : machine.store.Sound origins) {context : Context} {scopes : Scopes}
    {name : Identifier} {parent : Option (Reference Nat)} {methods : List (FunctionDecl Nat)}
    (visited : Visited origins ⟨context, scopes, none⟩
      (.statement (.classDeclaration name parent methods)))
    (hosts : machine.store.Hosts none machine.frame scopes) {extended : Option ClassRef}
    (same : extended.isSome = parent.isSome) :
    machine.store.Leads origins (declareClass name.name extended methods machine).2.store := by
  have ordinary : Ordinary name.name := by
    obtain ⟨marks, proper⟩ := (visited.ready accepted).proper
    exact proper.ordinary_of_declared rfl
  have entered {method : FunctionDecl Nat} (listed : method ∈ methods) :=
    visited.step fun _ visits => Program.Visits.method visits listed
  -- The class frame, if there is one, is made before the class; the name is bound after both.
  have declared (store : Store) (leads : machine.store.Leads origins store) (frame : FrameRef)
      (hosted : ∀ after : Store, store.Keeps after →
        after.Hosts none machine.frame (scopes.introduce name.name) →
        after.Hosts none frame ((scopes.introduce name.name).forMethods parent.isSome).tail) :
      machine.store.Leads origins
        ((store.addClass ⟨name.name, extended, methodTable frame methods⟩).2.define
          machine.frame name.name (.classObject ⟨store.classes.size⟩)) := by
    have made : store.Keeps
        (store.addClass ⟨name.name, extended, methodTable frame methods⟩).2 :=
      .of_frames (Store.Step.addClass store _).grows rfl
    have kept := made.trans
      (Store.keeps_define _ machine.frame ordinary (.classObject ⟨store.classes.size⟩))
    have bound := ((hosts.keep leads.keeps).keep made).define ordinary
      (.classObject ⟨store.classes.size⟩)
    refine leads.trans (leads.sound.leads_declareClass machine.frame ordinary _
      fun key closure found => ?_)
    obtain ⟨method, listed, rfl⟩ := exists_of_methodTable found
    refine ⟨_, _, ⟨entered listed, fun initializer => ?_⟩, hosted _ kept bound⟩
    exact if_pos (of_decide_eq_true initializer)
  cases extended with
  | none =>
    have plain : parent.isSome = false := same.symm
    refine declared machine.store sound.leads_refl machine.frame fun after kept inside => ?_
    rw [plain]
    exact inside
  | some ref =>
    have extending : parent.isSome = true := same.symm
    refine declared _ (sound.leads_addFrame _) ⟨machine.store.frames.size⟩
      fun after kept inside => ?_
    rw [extending]
    have own : (machine.store.addFrame
        ⟨({} : Std.TreeMap String Value).insert parentName (.classObject ref),
          some machine.frame⟩).2.own? ⟨machine.store.frames.size⟩ parentName =
        some (.classObject ref) := by
      simp [Store.own?, Store.frame?, Store.addFrame]
    have around : (machine.store.addFrame
        ⟨({} : Std.TreeMap String Value).insert parentName (.classObject ref),
          some machine.frame⟩).2.enclosing? ⟨machine.store.frames.size⟩ =
        some machine.frame := by
      simp [Store.enclosing?, Store.frame?, Store.addFrame]
    have above := kept.parent _ _ own
    refine ⟨⟨fun key usable _ => ?_, fun bound => absurd bound (by decide), fun _ => ⟨ref, above⟩⟩,
      machine.frame, kept.enclosing _ _ around, inside⟩
    rw [Scope.state?_cons] at usable
    split at usable
    next same => exact Option.isSome_iff_exists.mpr ⟨_, same ▸ above⟩
    next => simp [Scope.state?] at usable

/-- Printing a value leaves the store as it is. -/
theorem printValue_store (value : Value) (machine : Machine) :
    (printValue value machine).2.store = machine.store := by
  change (orFail (machine.console.write (machine.store.text value ++ "\n")).1 _).2.store = _
  cases (machine.console.write (machine.store.text value ++ "\n")).1 <;> rfl

/-- Reading the class that a class extends changes nothing, and there is one if it is named. -/
theorem parentClass_cases (parent : Option (Reference Nat)) (machine : Machine) :
    (parentClass parent machine).2 = machine ∧
      ∀ extended, (parentClass parent machine).1 = .ok extended →
        extended.isSome = parent.isSome := by
  cases parent with
  | none => exact ⟨rfl, fun extended came => Except.ok.inj came ▸ rfl⟩
  | some parent =>
    have unchanged := readName_snd parent.label parent.target machine
    unfold parentClass
    dsimp only
    rw [bind_apply]
    generalize readName parent.label parent.target machine = result at unchanged
    obtain ⟨result, between⟩ := result
    cases result with
    | error reason => exact ⟨unchanged, by simp⟩
    | ok value =>
      cases value with
      | classObject ref => exact ⟨unchanged, fun extended came => Except.ok.inj came ▸ rfl⟩
      | _ => exact ⟨unchanged, by simp [failAt, stop]⟩

/-- A placed statement. -/
theorem statementParts_sustains (accepted : Accepted table known origins)
    (values : ValuesLead origins steps) (single : StatementsLead origins steps)
    {statement : Stmt Nat} (placed : Placed origins ⟨.statement (steps + 1) statement, machine⟩) :
    Sustains origins (execute (steps + 1) statement)
      (fun machine => statementParts steps machine statement) machine := by
  obtain ⟨context, scopes, visited, stands⟩ := placed.stands
  have sound : machine.store.Sound origins := placed.sound
  have hosts := stands.hosts
  have operand {value : Expr Nat} (listed : value ∈ statement.operands) :
      Sustains origins (evaluate steps value)
        (fun machine => [⟨.value steps value, machine⟩]) machine :=
    value_sustains values ⟨sound, ⟨context, scopes, none⟩,
      visited.step fun _ visits => .operand visits listed, stands⟩
  have ordinary {name : String} (declared : statement.declared? = some name) : Ordinary name := by
    obtain ⟨marks, proper⟩ := (visited.ready accepted).proper
    exact proper.ordinary_of_declared declared
  cases statement with
  | expression value =>
    exact (operand List.mem_cons_self).bind_quiet fun _ _ _ leads => leads.sound.leads_refl
  | print value =>
    refine (operand List.mem_cons_self).bind_quiet fun found between _ leads => ?_
    have unchanged := printValue_store found between
    rw [bind_apply]
    generalize printValue found between = result at unchanged
    obtain ⟨result, last⟩ := result
    dsimp only at unchanged
    cases result <;> exact unchanged ▸ leads.sound.leads_refl
  | declare name initial =>
    cases initial with
    | none => exact .quiet (sound.leads_define machine.frame (ordinary rfl) .nil)
    | some initial =>
      have new : scopes.bindsInnermost name.name = false := (visited.ready accepted).resolved.1
      have begun : Placed origins ⟨.value steps initial, machine⟩ :=
        ⟨sound, ⟨context, _, none⟩, visited.step fun _ => Program.Visits.initial,
          hosts.declaring (ordinary rfl), stands.bare.declaring new⟩
      exact (value_sustains values begun).bind_quiet fun found between _ leads =>
        leads.sound.leads_define between.frame (ordinary rfl) found
  | block body =>
    have inside : Placed origins ⟨.statements steps body, inNewFrame machine⟩ :=
      ⟨(sound.leads_addFrame _).sound, context, _, visited.step fun _ => Program.Visits.block,
        hosts.push, .push machine.store (some machine.frame) scopes⟩
    refine ⟨by simpa [statementParts] using inside, ?_⟩
    exact (sound.leads_addFrame _).trans (statements_sustains accepted single inside).leads
  | choose condition thenBranch elseBranch =>
    refine (operand List.mem_cons_self).bind fun value between came leads => ?_
    have standing := stands_between came leads stands
    by_cases truthy : value.isTruthy
    · simp only [if_pos truthy]
      exact statement_sustains single ⟨leads.sound, context, scopes,
        visited.step fun _ => Program.Visits.thenBranch, standing⟩
    · simp only [if_neg truthy]
      cases elseBranch with
      | none => exact .same leads.sound rfl
      | some elseBranch =>
        have unchanged : (thenBranch.resolve context scopes).2 = scopes := by
          obtain ⟨marks, proper⟩ := (visited.ready accepted).proper
          cases proper with
          | chooseElse _ alone chosen =>
            exact thenBranch.resolve_snd_of_not_declares ⟨_, _, chosen⟩ alone context scopes
        have entered := visited.step fun _ => Program.Visits.elseBranch
        rw [unchanged] at entered
        exact statement_sustains single ⟨leads.sound, context, scopes, entered, standing⟩
  | loop condition body =>
    have rounds : Placed origins ⟨.rounds steps steps condition body, machine⟩ :=
      ⟨sound, context, scopes, visited, stands⟩
    exact ⟨by simpa [statementParts] using rounds,
      (rounds_sustains accepted values single rounds).leads⟩
  | function declaration =>
    refine .quiet (sound.leads_declareFunction machine.frame (ordinary rfl) _ ?_)
    have kept : machine.store.Keeps
        (machine.store.addFunction ⟨declaration, machine.frame, false⟩).2 :=
      .of_frames (Store.Step.addFunction _ _).grows rfl
    exact ⟨_, _, ⟨visited.step fun _ => Program.Visits.function,
        fun initializer => absurd initializer Bool.false_ne_true⟩,
      (hosts.keep kept).define (ordinary rfl) _⟩
  | finish keyword value =>
    cases value with
    | none => exact .same sound rfl
    | some value =>
      exact (operand List.mem_cons_self).bind_quiet fun _ _ _ leads => leads.sound.leads_refl
  | classDeclaration name parent methods =>
    have declared : ∀ extended between, parentClass parent machine = (.ok extended, between) →
        machine.store.Leads origins between.store →
        between.store.Leads origins
          ((declareClass name.name extended methods >>= fun _ =>
            pure Completion.normal) between).2.store := by
      intro extended between came _
      obtain ⟨unchanged, named⟩ := parentClass_cases parent machine
      rw [came] at unchanged named
      obtain rfl : between = machine := unchanged
      have leads := leads_declareClass accepted sound visited hosts (named extended rfl)
      rw [bind_apply]
      generalize declareClass name.name extended methods between = result at leads
      obtain ⟨result, last⟩ := result
      cases result <;> exact leads
    cases parent with
    | none => exact (Sustains.same sound rfl).bind_quiet declared
    | some parent =>
      have read : Placed origins ⟨.value 1 (.read parent), machine⟩ :=
        ⟨sound, ⟨context, _, some name.name⟩, visited.step fun _ => Program.Visits.parent,
          hosts.pending (ordinary rfl), stands.bare.introduce name.name⟩
      have head : Sustains origins (parentClass (some parent))
          (fun machine => [⟨.value 1 (.read parent), machine⟩]) machine := by
        refine ⟨by simpa using read, ?_⟩
        rw [(parentClass_cases (some parent) machine).1]
        exact sound.leads_refl
      exact head.bind_quiet declared

/-- Placed values and placed statements lead to sound stores, with any number of steps. -/
theorem all_lead (accepted : Accepted table known origins) (steps : Nat) :
    ValuesLead origins steps ∧ StatementsLead origins steps := by
  induction steps with
  | zero =>
    exact ⟨fun _ _ placed => placed.sound.leads_refl, fun _ _ placed => placed.sound.leads_refl⟩
  | succ steps ih =>
    exact ⟨fun _ _ placed => (valueParts_sustains accepted ih.1 ih.2 placed).leads,
      fun _ _ placed => (statementParts_sustains accepted ih.1 ih.2 placed).leads⟩

/-- The parts of a placed moment are placed, and it leaves a sound store that keeps what there
was. -/
theorem Placed.sustained (accepted : Accepted table known origins) {moment : Moment}
    (placed : moment.Placed origins) :
    (∀ part ∈ moment.parts, part.Placed origins) ∧
      moment.machine.store.Leads origins moment.after.store := by
  obtain ⟨task, machine⟩ := moment
  cases task with
  | value steps expression =>
    cases steps with
    | zero => exact ⟨by simp [parts], placed.sound.leads_refl⟩
    | succ steps =>
      obtain ⟨values, statements⟩ := all_lead accepted steps
      have sustains := valueParts_sustains accepted values statements placed
      exact ⟨sustains.parts, sustains.leads⟩
  | values steps expressions =>
    have sustains := values_sustains (all_lead accepted steps).1 placed
    exact ⟨sustains.parts, sustains.leads⟩
  | statement steps statement =>
    cases steps with
    | zero => exact ⟨by simp [parts], placed.sound.leads_refl⟩
    | succ steps =>
      obtain ⟨values, statements⟩ := all_lead accepted steps
      have sustains := statementParts_sustains accepted values statements placed
      exact ⟨sustains.parts, sustains.leads⟩
  | statements steps statements =>
    have sustains := statements_sustains accepted (all_lead accepted steps).2 placed
    exact ⟨sustains.parts, sustains.leads⟩
  | rounds steps bound condition body =>
    obtain ⟨values, statements⟩ := all_lead accepted steps
    have sustains := rounds_sustains accepted values statements placed
    exact ⟨sustains.parts, sustains.leads⟩
  | call steps closure arguments closing =>
    have sustains := call_sustains accepted (all_lead accepted steps).2 placed
    exact ⟨sustains.parts, sustains.leads⟩

/-- Every moment that a run comes to is placed if its beginning is. -/
theorem Placed.of_reaches (accepted : Accepted table known origins) {start moment : Moment}
    {count : Nat} (placed : start.Placed origins) (reached : Reaches start count moment) :
    moment.Placed origins := by
  induction reached with
  | start => exact placed
  | part _ taken ih => exact (ih.sustained accepted).1 _ taken

end

end Moment

end KoreanLox
