import KoreanLox.Proofs.Store.Growth
import KoreanLox.Proofs.Tree.LookUps

/-!
# Which names a run binds

A name that is not bound in a frame is bound there by a declaration only. The value of an expression
binds no new name in the frames that were there before: functions that are called bind names in
frames of their own (`Evaluation.evaluate_confined`). A statement binds new names in the current
frame only, and only those that it declares in its scope (`Evaluation.execute_declares`).
-/

namespace KoreanLox

namespace Store

/-- In the frames of a store, new names are bound at certain places only. -/
structure Binds (new : FrameRef → String → Prop) (before after : Store) : Prop where
  /-- No frame is removed. -/
  size : before.frames.size ≤ after.frames.size
  /-- A name that is bound was bound before, or it is a new one. -/
  names : ∀ ref name, ref.index < before.frames.size → (after.own? ref name).isSome →
    (before.own? ref name).isSome ∨ new ref name

/-- In the frames of a store, no new names are bound. -/
abbrev Confines : Store → Store → Prop := Binds fun _ _ => False

namespace Binds

variable {new wider : FrameRef → String → Prop} {before between after : Store}

/-- Where nothing changes, nothing is bound. -/
theorem refl (store : Store) : store.Binds new store :=
  ⟨Nat.le_refl _, fun _ _ _ bound => .inl bound⟩

/-- What is bound in two parts is bound at the places of either. -/
theorem trans (early : before.Binds new between) (late : between.Binds new after) :
    before.Binds new after where
  size := Nat.le_trans early.size late.size
  names := by
    intro ref name inside bound
    rcases late.names ref name (Nat.lt_of_lt_of_le inside early.size) bound with bound | here
    · exact early.names ref name inside bound
    · exact .inr here

/-- More places may be allowed. -/
theorem mono (binds : before.Binds new after) (more : ∀ ref name, new ref name → wider ref name) :
    before.Binds wider after :=
  ⟨binds.size, fun ref name inside bound => (binds.names ref name inside bound).imp_right
    (more ref name)⟩

/-- No new names are bound at the places of none. -/
theorem of_confines (confines : before.Confines after) : before.Binds new after :=
  confines.mono fun _ _ => False.elim

/-- New names in new frames are none in the frames that were there. -/
theorem confines (binds : before.Binds new after)
    (fresh : ∀ ref name, new ref name → before.frames.size ≤ ref.index) :
    before.Confines after where
  size := binds.size
  names := by
    intro ref name inside bound
    rcases binds.names ref name inside bound with bound | here
    · exact .inl bound
    · have beyond := fresh ref name here
      omega

/-- With the same frames, nothing is bound. -/
theorem of_frames (same : after.frames = before.frames) : before.Binds new after where
  size := Nat.le_of_eq (congrArg Array.size same.symm)
  names := by
    intro ref name _ bound
    rw [own?, frame?, same] at bound
    exact .inl bound

/-- What is bound step by step is bound. -/
theorem of_steps (steps : Relation.ReflTransGen (Binds new) before after) :
    before.Binds new after := by
  induction steps with
  | refl => exact .refl before
  | tail _ single ih => exact ih.trans single

end Binds

/-- Making a frame binds no name in the others. -/
theorem confines_addFrame (store : Store) (frame : Frame) :
    store.Confines (store.addFrame frame).2 where
  size := by simp [addFrame]
  names := by
    intro ref name inside bound
    have same : (store.addFrame frame).2.frame? ref = store.frame? ref := by
      simp [frame?, addFrame, Array.getElem?_push, Nat.ne_of_lt inside]
    rw [own?, same] at bound
    exact .inl bound

/-- Binding a name binds it in its frame. -/
theorem binds_define (store : Store) (ref : FrameRef) (name : String) (value : Value) :
    store.Binds (fun other wanted => other = ref ∧ wanted = name)
      (store.define ref name value) where
  size := by simp [define]
  names := by
    intro other wanted _ bound
    rw [own?_define] at bound
    split at bound
    next here => exact .inr ⟨here.1.symm, here.2.1.symm⟩
    next => exact .inl bound

/-- Binding a bound name binds no new one. -/
theorem confines_define {store : Store} {ref : FrameRef} {name : String}
    (old : (store.own? ref name).isSome) (value : Value) :
    store.Confines (store.define ref name value) where
  size := by simp [define]
  names := by
    intro other wanted inside bound
    rcases (binds_define store ref name value).names other wanted inside bound with bound | here
    · exact .inl bound
    · obtain ⟨rfl, rfl⟩ := here
      exact .inl old

/-- Binding names in a frame binds them there. -/
theorem binds_defineAll (store : Store) (ref : FrameRef) (bindings : List (String × Value)) :
    store.Binds (fun other wanted => other = ref ∧ wanted ∈ bindings.map Prod.fst)
      (store.defineAll ref bindings) := by
  induction bindings generalizing store with
  | nil => exact .refl store
  | cons binding rest ih =>
    obtain ⟨name, value⟩ := binding
    have first : store.Binds (fun other wanted => other = ref ∧
        wanted ∈ ((name, value) :: rest).map Prod.fst) (store.define ref name value) :=
      (binds_define store ref name value).mono fun other wanted here =>
        ⟨here.1, here.2 ▸ List.mem_cons_self⟩
    exact first.trans ((ih _).mono fun other wanted here =>
      ⟨here.1, List.mem_cons_of_mem name here.2⟩)

/-- The frame outward that holds a name binds it. -/
theorem isSome_of_holderWithin? {store : Store} {name : String} {bound : Nat} {ref frame : FrameRef}
    (found : store.holderWithin? name bound ref = some frame) : (store.own? frame name).isSome := by
  induction bound generalizing ref with
  | zero => simp [holderWithin?] at found
  | succ bound ih =>
    unfold holderWithin? at found
    split at found
    next here =>
      obtain rfl := Option.some.inj found
      exact here
    next =>
      split at found
      next => simp at found
      next => exact ih found

/-- The frame at a distance that holds a name binds it. -/
theorem isSome_of_holderAt? {store : Store} {name : String} {distance : Nat} {ref frame : FrameRef}
    (found : store.holderAt? ref distance name = some frame) : (store.own? frame name).isSome := by
  unfold holderAt? at found
  split at found
  next => simp at found
  next =>
    split at found
    next here =>
      obtain rfl := Option.some.inj found
      exact here
    next => simp at found

end Store

namespace Evaluation

open Run

/-- The frame whose binding an assignment changes binds the name. -/
theorem isSome_of_holder? {machine : Machine} {label : Nat} {name : String} {frame : FrameRef}
    (found : holder? machine label name = some frame) :
    (machine.store.own? frame name).isSome := by
  unfold holder? at found
  split at found
  next => exact Store.isSome_of_holderAt? found
  next => exact Store.isSome_of_holderWithin? found

/-! ## Expressions -/

/-- Whatever machine a run begins at, it binds no new names in the frames that were there. -/
abbrev Confined {α : Type} (run : Run α) : Prop := run.Follows Store.Confines fun _ => True

/-- A run that leaves the machine as it is binds nothing. -/
theorem confined_of_same {α : Type} {run : Run α} (same : ∀ machine, (run machine).2 = machine) :
    Confined run := .of_same same fun _ _ _ => trivial

/-- A run with a confined store is confined. -/
theorem Confined.store {α : Type} {run : Run α} (confined : Confined run) (machine : Machine) :
    machine.store.Confines (run machine).2.store := .of_steps (confined machine).store

/-- A run that changes arrays only binds nothing. -/
theorem confined_of_arrayOnly {α : Type} {run : Run α} (arrays : run.ArrayOnly) : Confined run := by
  refine arrays.weaken (fun before after single => ?_) fun _ _ => trivial
  cases single <;> exact .of_frames rfl

/-- Giving a bound name another value binds no new name. -/
theorem assignName_confined (label : Nat) (name : Identifier) (value : Value) :
    Confined (assignName label name value) := by
  have assigned : Elementary (assignName label name value) :=
    elementary_invariant.assignName label name value trivial
  intro machine
  have follows := assigned machine
  refine ⟨follows.frame, follows.depth, follows.distances, ?_, fun _ _ => trivial⟩
  rw [assignName_apply]
  cases found : holder? machine label name.name with
  | none => exact .refl
  | some frame => exact .single (Store.confines_define (isSome_of_holder? found) value)

/-- What the machine reads off itself binds nothing; a new function is no frame, and a method taken
from an instance gets a frame of its own. -/
theorem confined_heritable : Heritable (fun _ => True) fun run => Confined run where
  pure := .pure
  bind := .bind
  failAt _ _ := .stop trivial
  look _ := confined_of_same fun _ => rfl
  addFunction _ := .change fun _ => .single (.of_frames rfl)
  bindMethod _ _ := .change fun store => .single (Store.confines_addFrame store _)

/-! ## Statements -/

/-- Whatever machine a run begins at, the new names that it binds in the frames that were there are
some names in the current frame. -/
def Declares {α : Type} (names : List String) (run : Run α) : Prop :=
  ∀ machine : Machine,
    machine.store.Binds (fun ref name => ref = machine.frame ∧ name ∈ names) (run machine).2.store

namespace Declares

variable {α β : Type} {names more : List String}

/-- A confined run declares nothing. -/
theorem of_confined {run : Run α} (confined : Confined run) : Declares names run :=
  fun machine => .of_confines (confined.store machine)

/-- More names may be declared. -/
theorem mono {run : Run α} (declares : Declares names run) (further : names ⊆ more) :
    Declares more run :=
  fun machine => (declares machine).mono fun _ _ here => ⟨here.1, further here.2⟩

/-- Runs in sequence declare what their parts declare, if the first one comes back to its frame. -/
theorem bind {first : Run α} {next : α → Run β} (restores : Elementary first)
    (head : Declares names first) (tail : ∀ value, Declares names (next value)) :
    Declares names (first >>= next) := by
  intro machine
  have begun := head machine
  have frame := (restores machine).frame
  rw [bind_apply]
  generalize first machine = result at begun frame
  obtain ⟨result, between⟩ := result
  cases result with
  | error reason => exact begun
  | ok value =>
    have ended := tail value between
    rw [show between.frame = machine.frame from frame] at ended
    exact begun.trans ended

/-- A run after the value of an expression. -/
theorem afterValue {first : Run α} {next : α → Run β} (restores : Elementary first)
    (confined : Confined first) (tail : ∀ value, Declares names (next value)) :
    Declares names (first >>= next) :=
  bind restores (.of_confined confined) tail

/-- A run that goes on unless something returned declares what goes on declares. -/
theorem unlessReturned {next : Run Completion} (declares : Declares names next)
    (completion : Completion) : Declares names (unlessReturned next completion) := by
  cases completion with
  | normal => exact declares
  | returned value => exact .of_confined (.pure _)

end Declares

/-- Declaring a name binds it in the current frame. -/
theorem declare_declares (name : String) (value : Value) : Declares [name] (declare name value) :=
  fun machine => (Store.binds_define machine.store machine.frame name value).mono
    fun _ _ here => ⟨here.1, List.mem_singleton.mpr here.2⟩

/-- Declaring a class binds its name in the current frame. -/
theorem declareClass_declares (name : String) (parent : Option ClassRef)
    (methods : List (FunctionDecl Nat)) : Declares [name] (declareClass name parent methods) := by
  have made (frame : FrameRef) : Declares [name]
      (change (fun store => store.addClass ⟨name, parent, methodTable frame methods⟩) >>=
        fun ref => declare name (.classObject ref)) :=
    .afterValue (.change fun store => .single (.addClass store _))
      (.change fun store => .single (.of_frames rfl)) fun ref => declare_declares _ _
  have current : Confined currentFrame := confined_heritable.currentFrame
  cases parent with
  | none => exact .afterValue elementary_invariant.currentFrame current made
  | some parent =>
    refine .afterValue ?_ ?_ made
    · exact .bind elementary_invariant.currentFrame fun frame =>
        .change fun store => .single (.addFrame store _)
    · exact .bind current fun frame =>
        .change fun store => .single (Store.confines_addFrame store _)

/-- Statements in order declare what each of them declares. -/
theorem executeAll_declares {execute : Stmt Nat → Run Completion}
    (restores : ∀ statement, Elementary (execute statement))
    (each : ∀ statement, Declares statement.introduced (execute statement))
    (statements : List (Stmt Nat)) :
    Declares (statements.flatMap Stmt.introduced) (executeAll execute statements) := by
  induction statements with
  | nil => exact .of_confined (.pure _)
  | cons first rest ih =>
    rw [executeAll_cons, List.flatMap_cons]
    refine .bind (restores first) ((each first).mono (List.subset_append_left _ _)) ?_
    exact Declares.unlessReturned (ih.mono (List.subset_append_right _ _))

/-- A loop declares what its body declares. -/
theorem repeatWhile_declares {condition : Run Value} {body : Run Completion} {names : List String}
    (tested : Elementary condition) (confined : Confined condition) (repeated : Elementary body)
    (declares : Declares names body) (bound : Nat) :
    Declares names (repeatWhile condition body bound) := by
  induction bound with
  | zero => exact .of_confined (.stop trivial)
  | succ bound ih =>
    rw [repeatWhile_succ]
    refine .afterValue tested confined fun value => ?_
    split
    next => exact .bind repeated declares (Declares.unlessReturned ih)
    next => exact .of_confined (.pure _)

section

variable {body : List (Stmt Nat) → Run Completion}

/-- What statements declare in a new frame is bound in no frame that was there. -/
theorem confines_inFrame {names : List String} {run : Run Completion}
    (declares : Declares names run) {machine : Machine} {inner : Machine}
    (opened : machine.store.Binds (fun ref _ => ref = inner.frame) inner.store)
    (fresh : inner.frame = ⟨machine.store.frames.size⟩) :
    machine.store.Confines (run inner).2.store := by
  have ran : inner.store.Binds (fun ref _ => ref = inner.frame) (run inner).2.store :=
    (declares inner).mono fun _ _ here => here.1
  refine (opened.trans ran).confines fun ref name here => ?_
  have place : ref = ⟨machine.store.frames.size⟩ := here.trans fresh
  exact Nat.le_of_eq (congrArg Ref.index place).symm

/-- The frame of a call is made and its parameters are bound in it. -/
theorem binds_inCall (closure : Closure) (arguments : List Value) (machine : Machine) :
    machine.store.Binds (fun ref _ => ref = (inCall closure arguments machine).frame)
      (inCall closure arguments machine).store := by
  have opened := Store.confines_addFrame machine.store ⟨{}, some closure.frame⟩
  have bound := Store.binds_defineAll (machine.store.addFrame ⟨{}, some closure.frame⟩).2
    ⟨machine.store.frames.size⟩
    ((closure.declaration.parameters.map Identifier.name).zip arguments)
  exact (Store.Binds.of_confines opened).trans (bound.mono fun _ _ here => here.1)

/-- A call of a function binds names in frames of its own. -/
theorem callClosure_confined {names : List (Stmt Nat) → List String}
    (restores : ∀ statements, Elementary (body statements))
    (each : ∀ statements, Declares (names statements) (body statements)) (closure : Closure)
    (arguments : List Value) (closing : Span) :
    Confined (callClosure body closure arguments closing) := by
  intro machine
  have follows := elementary_invariant.callClosure restores closure arguments closing machine
  refine ⟨follows.frame, follows.depth, follows.distances, .single ?_, fun _ _ => trivial⟩
  have entered := binds_inCall closure arguments machine
  have ran := confines_inFrame (each closure.declaration.body) entered rfl
  rw [callClosure_apply]
  split
  · refine entered.confines fun ref name here => ?_
    rw [show ref = (inCall closure arguments machine).frame from here]
    exact Nat.le_refl _
  · generalize body closure.declaration.body (inCall closure arguments machine) = result at ran
    obtain ⟨result, after⟩ := result
    cases result <;> exact ran

/-- Making an instance binds names in new frames only. -/
theorem construct_confined {names : List (Stmt Nat) → List String}
    (restores : ∀ statements, Elementary (body statements))
    (each : ∀ statements, Declares (names statements) (body statements)) (ref : ClassRef)
    (arguments : List Value) (closing : Span) :
    Confined (construct body ref arguments closing) := by
  refine .bind (.change fun store => .single (.of_frames rfl)) fun made =>
    .bind (.inspect _) fun method => ?_
  cases method with
  | none => exact .pure _
  | some method =>
    exact .bind (.change fun store => .single (Store.confines_addFrame store _)) fun closure =>
      .bind (callClosure_confined restores each closure arguments closing) fun _ => .pure _

/-- A call of a value binds names in new frames only. -/
theorem invoke_confined {names : List (Stmt Nat) → List String}
    (restores : ∀ statements, Elementary (body statements))
    (each : ∀ statements, Declares (names statements) (body statements)) (callee : Value)
    (arguments : List Value) (closing : Span) :
    Confined (invoke body callee arguments closing) := by
  cases callee with
  | function ref =>
    refine .bind (.inspect _) fun found => ?_
    cases found with
    | none => exact .stop trivial
    | some closure =>
      exact .bind (confined_heritable.checkArity trivial _ _ _) fun _ =>
        callClosure_confined restores each closure arguments closing
  | native native =>
    exact .bind (confined_heritable.checkArity trivial _ _ _) fun _ =>
      confined_of_arrayOnly (callNative_follows closing native arguments)
  | classObject ref =>
    exact .bind (.inspect _) fun _ => .bind (confined_heritable.checkArity trivial _ _ _) fun _ =>
      construct_confined restores each ref arguments closing
  | _ => exact .stop trivial

end

/-- An expression is confined if the expressions and statements one level down are. -/
theorem evaluate_succ_confined {steps : Nat}
    (expressions : ∀ expression, Confined (evaluate steps expression))
    (statements : ∀ statement, Declares statement.introduced (execute steps statement))
    (expression : Expr Nat) : Confined (evaluate (steps + 1) expression) := by
  cases expression with
  | literal => exact .pure _
  | grouping inner => exact expressions inner
  | unary operator span operand =>
    exact .bind (expressions operand) fun value =>
      confined_heritable.orRefuse trivial (unary_apply_ordinary operator value)
  | binary operator span left right =>
    exact .bind (expressions left) fun left => .bind (expressions right) fun right =>
      confined_heritable.orRefuse trivial (binary_apply_ordinary operator left right)
  | logical operator left right =>
    refine .bind (expressions left) fun value => ?_
    split
    next => exact .pure _
    next => exact expressions right
  | read reference => exact confined_heritable.readName _ _ trivial
  | assign reference value =>
    exact .bind (expressions value) fun value => assignName_confined _ _ value
  | call callee arguments closing =>
    exact .bind (expressions callee) fun callee =>
      .bind (confined_heritable.evaluateAll expressions arguments) fun values =>
        invoke_confined (executeAll_follows steps)
          (executeAll_declares (execute_follows steps) statements) callee values closing
  | get object name =>
    refine .bind (expressions object) fun object => ?_
    cases object with
    | instanceObject ref => exact confined_heritable.property ref name trivial
    | _ => exact .stop trivial
  | set object name value =>
    refine .bind (expressions object) fun object => ?_
    cases object with
    | instanceObject ref =>
      exact .bind (expressions value) fun value =>
        .bind (.update fun store => .of_frames rfl) fun _ => .pure _
    | _ => exact .stop trivial
  | receiver keyword label => exact confined_heritable.readName _ _ trivial
  | inherited keyword method label => exact confined_heritable.inheritedMethod _ _ _ trivial trivial

/-- A statement declares its names if the expressions one level down are confined and the statements
there declare theirs. -/
theorem execute_succ_declares {steps : Nat}
    (expressions : ∀ expression, Confined (evaluate steps expression))
    (statements : ∀ statement, Declares statement.introduced (execute steps statement))
    (statement : Stmt Nat) : Declares statement.introduced (execute (steps + 1) statement) := by
  have restores := evaluate_follows steps
  cases statement with
  | expression value =>
    exact .afterValue (restores value) (expressions value) fun _ => .of_confined (.pure _)
  | print value =>
    have printed (value : Value) : (printValue value).Follows Store.Confines Stop.Ordinary :=
      .bind (.inspect _) fun _ => .bind (write_follows _) fun _ => orFail_follows _
    refine .afterValue (restores value) (expressions value) fun value => .of_confined ?_
    exact .bind ((printed value).weaken (fun _ _ same => same) fun _ _ => trivial) fun _ => .pure _
  | declare name initial =>
    have bound (value : Value) : Declares [name.name]
        (declare name.name value >>= fun _ => pure Completion.normal) :=
      .bind (elementary_invariant.declare _ _) (declare_declares _ _) fun _ =>
        .of_confined (.pure _)
    cases initial with
    | none => exact bound .nil
    | some initial => exact .afterValue (restores initial) (expressions initial) bound
  | block body =>
    intro machine
    have declares := executeAll_declares (execute_follows steps) statements body
    have opened := Store.confines_addFrame machine.store ⟨{}, some machine.frame⟩
    let inner : Machine := { machine with
      store := (machine.store.addFrame ⟨{}, some machine.frame⟩).2
      frame := ⟨machine.store.frames.size⟩ }
    have ran : machine.store.Confines (executeAll (execute steps) body inner).2.store :=
      confines_inFrame declares (.of_confines opened) rfl
    exact .of_confines ran
  | choose condition thenBranch elseBranch =>
    refine .afterValue (restores condition) (expressions condition) fun value => ?_
    cases elseBranch with
    | none =>
      split
      next => exact statements thenBranch
      next => exact .of_confined (.pure _)
    | some elseBranch =>
      split
      next => exact (statements thenBranch).mono (List.subset_append_left _ _)
      next => exact (statements elseBranch).mono (List.subset_append_right _ _)
  | loop condition body =>
    exact repeatWhile_declares (restores condition) (expressions condition)
      (execute_follows steps body) (statements body) steps
  | function declaration =>
    refine .afterValue elementary_invariant.currentFrame confined_heritable.currentFrame
      fun frame => .afterValue (elementary_invariant.newFunction _)
        (confined_heritable.newFunction _) fun value => ?_
    exact .bind (elementary_invariant.declare _ _) (declare_declares _ _) fun _ =>
      .of_confined (.pure _)
  | finish keyword value =>
    cases value with
    | none => exact .of_confined (.pure _)
    | some value =>
      exact .afterValue (restores value) (expressions value) fun _ => .of_confined (.pure _)
  | classDeclaration name parent methods =>
    have read : Confined (parentClass parent) := confined_heritable.parentClass _ fun _ _ => trivial
    refine .afterValue (elementary_invariant.parentClass _ fun _ _ => trivial) read
      fun extended => ?_
    exact .bind (elementary_invariant.declareClass _ extended methods)
      (declareClass_declares _ extended methods) fun _ => .of_confined (.pure _)

/-- Every expression is confined, and every statement declares the names that it introduces only,
with any number of steps. -/
theorem confined_all (steps : Nat) :
    (∀ expression, Confined (evaluate steps expression)) ∧
      ∀ statement, Declares statement.introduced (execute steps statement) := by
  induction steps with
  | zero => exact ⟨fun _ => .stop trivial, fun _ => .of_confined (.stop trivial)⟩
  | succ steps ih =>
    exact ⟨evaluate_succ_confined ih.1 ih.2, execute_succ_declares ih.1 ih.2⟩

/-- The value of an expression binds no new names in the frames that were there. -/
theorem evaluate_confined (steps : Nat) (expression : Expr Nat) :
    Confined (evaluate steps expression) := (confined_all steps).1 expression

/-- A statement binds new names in the current frame only, and only those that it declares. -/
theorem execute_declares (steps : Nat) (statement : Stmt Nat) :
    Declares statement.introduced (execute steps statement) := (confined_all steps).2 statement

end Evaluation

end KoreanLox
