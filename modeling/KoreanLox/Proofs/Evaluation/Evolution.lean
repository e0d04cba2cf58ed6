import KoreanLox.Proofs.Evaluation.Invariance
import Mathlib.Logic.Relation

/-!
# How a run changes the machine

A run changes the store only by elementary steps: it makes an object, binds a name in a frame, sets
a field, or changes an array. However it ends, with a value, a completion, a failure or a
suspension, it leaves the current frame, the number of calls in progress and the recorded
distances as they were (`Evaluation.evaluate_follows`, `Evaluation.execute_follows`). A native
function changes arrays only, and it never reports too many calls
(`Evaluation.callNative_follows`).
-/

namespace KoreanLox

/-- An elementary change of a store. -/
inductive Store.Step : Store → Store → Prop where
  /-- A frame is made. -/
  | addFrame (store : Store) (frame : Frame) : Step store (store.addFrame frame).2
  /-- An array is made. -/
  | addArray (store : Store) (elements : Array Value) : Step store (store.addArray elements).2
  /-- A function is made. -/
  | addFunction (store : Store) (closure : Closure) : Step store (store.addFunction closure).2
  /-- A class is made. -/
  | addClass (store : Store) (object : ClassObject) : Step store (store.addClass object).2
  /-- An instance is made. -/
  | addInstance (store : Store) (object : InstanceObject) :
    Step store (store.addInstance object).2
  /-- A name is bound in a frame. -/
  | define (store : Store) (ref : FrameRef) (name : String) (value : Value) :
    Step store (store.define ref name value)
  /-- An array grows. -/
  | push (store : Store) (ref : ArrayRef) (value : Value) : Step store (store.push ref value)
  /-- An element of an array is replaced. -/
  | replace (store : Store) (ref : ArrayRef) (position : Nat) (value : Value) :
    Step store (store.replace ref position value)
  /-- A field of an instance is set. -/
  | setField (store : Store) (ref : InstanceRef) (name : String) (value : Value) :
    Step store (store.setField ref name value)

/-- Elementary changes one after the other. -/
abbrev Store.Steps : Store → Store → Prop := Relation.ReflTransGen Store.Step

/-- Binding several names is binding one after the other. -/
theorem Store.steps_defineAll (store : Store) (ref : FrameRef) (bindings : List (String × Value)) :
    store.Steps (store.defineAll ref bindings) := by
  induction bindings generalizing store with
  | nil => exact .refl
  | cons binding rest ih =>
    obtain ⟨name, value⟩ := binding
    exact .head (.define store ref name value) (ih _)

/-- A change of arrays only. -/
inductive Store.ArrayStep : Store → Store → Prop where
  /-- An array is made. -/
  | addArray (store : Store) (elements : Array Value) :
    ArrayStep store (store.addArray elements).2
  /-- An array grows. -/
  | push (store : Store) (ref : ArrayRef) (value : Value) : ArrayStep store (store.push ref value)
  /-- An element of an array is replaced. -/
  | replace (store : Store) (ref : ArrayRef) (position : Nat) (value : Value) :
    ArrayStep store (store.replace ref position value)

/-- A change of arrays is an elementary change. -/
theorem Store.ArrayStep.toStep {before after : Store} (single : before.ArrayStep after) :
    before.Step after := by
  cases single with
  | addArray elements => exact .addArray before elements
  | push ref value => exact .push before ref value
  | replace ref position value => exact .replace before ref position value

/-- A stop that is not for too many calls in progress. -/
def Stop.Ordinary : Stop → Prop
  | .failure ⟨.stackOverflow, _⟩ => False
  | _ => True

/-- What a run that begins at a machine may come to: its store changes by certain steps and its
stops are of a certain kind, while the frame, the calls in progress and the distances are as
before. -/
structure Run.FollowsFrom {α : Type} (step : Store → Store → Prop) (stops : Stop → Prop)
    (before : Machine) (result : Except Stop α × Machine) : Prop where
  /-- The current frame is the same. -/
  frame : result.2.frame = before.frame
  /-- As many calls are in progress. -/
  depth : result.2.depth = before.depth
  /-- The same distances are recorded. -/
  distances : result.2.distances = before.distances
  /-- The store changed by the steps. -/
  store : Relation.ReflTransGen step before.store result.2.store
  /-- A stop is of the kind. -/
  stop : ∀ reason, result.1 = .error reason → stops reason

namespace Run

variable {α β : Type}

/-- What follows a result that allowed steps led to is reached by allowed steps too. -/
theorem FollowsFrom.trans {step : Store → Store → Prop} {stops : Stop → Prop} {before : Machine}
    {result : Except Stop α × Machine} {later : Except Stop β × Machine}
    (moved : FollowsFrom step stops before result)
    (next : FollowsFrom step stops result.2 later) : FollowsFrom step stops before later where
  frame := next.frame.trans moved.frame
  depth := next.depth.trans moved.depth
  distances := next.distances.trans moved.distances
  store := moved.store.trans next.store
  stop := next.stop

/-- Whatever machine a run begins at, its store changes by certain steps and its stops are of a
certain kind. -/
def Follows (step : Store → Store → Prop) (stops : Stop → Prop) (run : Run α) : Prop :=
  ∀ machine, FollowsFrom step stops machine (run machine)

namespace Follows

variable {step wider : Store → Store → Prop} {stops broader : Stop → Prop}

/-- More steps and more stops may be allowed. -/
theorem weaken {run : Run α} (follows : run.Follows step stops)
    (steps : ∀ before after, step before after → wider before after)
    (kinds : ∀ reason, stops reason → broader reason) : run.Follows wider broader := by
  intro machine
  have moved := follows machine
  exact ⟨moved.frame, moved.depth, moved.distances,
    Relation.ReflTransGen.mono steps _ _ moved.store,
    fun reason stopped => kinds reason (moved.stop reason stopped)⟩

/-- A run that leaves the machine as it is changes nothing. -/
theorem of_same {run : Run α} (same : ∀ machine, (run machine).2 = machine)
    (kind : ∀ machine reason, (run machine).1 = .error reason → stops reason) :
    run.Follows step stops := by
  intro machine
  have unchanged := same machine
  refine ⟨?_, ?_, ?_, ?_, kind machine⟩
  all_goals rw [unchanged]

/-- Giving a value changes nothing. -/
theorem pure (value : α) : Follows step stops (Pure.pure value : Run α) :=
  of_same (fun _ => rfl) fun _ _ stopped => nomatch stopped

/-- Stopping changes nothing. -/
theorem stop {reason : Stop} (allowed : stops reason) :
    Follows step stops (Run.stop reason : Run α) := by
  refine of_same (fun _ => rfl) fun _ other stopped => ?_
  obtain rfl : reason = other := Except.error.inj stopped
  exact allowed

/-- Looking at the store changes nothing. -/
theorem inspect (view : Store → α) : Follows step stops (Run.inspect view) :=
  of_same (fun _ => rfl) fun _ _ stopped => nomatch stopped

/-- Runs in sequence do what their parts do. -/
theorem bind {first : Run α} {next : α → Run β} (head : first.Follows step stops)
    (tail : ∀ value, (next value).Follows step stops) : Follows step stops (first >>= next) := by
  intro machine
  have moved := head machine
  rw [bind_apply]
  generalize first machine = result at moved
  obtain ⟨result, after⟩ := result
  cases result with
  | error reason =>
    refine ⟨moved.frame, moved.depth, moved.distances, moved.store, fun other stopped => ?_⟩
    obtain rfl : reason = other := Except.error.inj stopped
    exact moved.stop reason rfl
  | ok value =>
    exact moved.trans (tail value after)

/-- A change of the store is made of the steps. -/
theorem change {change : Store → α × Store}
    (steps : ∀ store, Relation.ReflTransGen step store (change store).2) :
    Follows step stops (Run.change change) :=
  fun machine => ⟨rfl, rfl, rfl, steps machine.store, fun _ stopped => nomatch stopped⟩

/-- An update of the store is one of the steps. -/
theorem update {update : Store → Store} (single : ∀ store, step store (update store)) :
    Follows step stops (Run.update update) := change fun store => .single (single store)

/-- A run in another frame comes back to the frame before. -/
theorem within {run : Run α} (frame : FrameRef) (inner : run.Follows step stops) :
    Follows step stops (Run.within frame run) := by
  intro machine
  have moved := inner { machine with frame }
  exact ⟨rfl, moved.depth, moved.distances, moved.store, moved.stop⟩

/-- A call comes back to the number of calls before. -/
theorem asCall {run : Run α} (span : Span) (inner : run.Follows step stops)
    (overflow : stops (.failure ⟨.stackOverflow, some span⟩)) :
    Follows step stops (Run.asCall span run) := by
  intro machine
  have moved := inner { machine with depth := machine.depth + 1 }
  have kept := depth_asCall span moved.depth
  simp only [Run.asCall] at kept ⊢
  split at kept
  next full => rw [if_pos full]; exact stop overflow machine
  next room =>
    rw [if_neg room]
    exact ⟨moved.frame, kept, moved.distances, moved.store, moved.stop⟩

end Follows

/-- Runs that only make elementary changes and do not report too many calls. -/
abbrev Plain (run : Run α) : Prop := run.Follows Store.Step Stop.Ordinary

/-- Runs that change arrays only and do not report too many calls. -/
abbrev ArrayOnly (run : Run α) : Prop := run.Follows Store.ArrayStep Stop.Ordinary

section

variable {step : Store → Store → Prop}

/-- Only a failure for too many calls is not ordinary. -/
theorem ordinary_failure {cause : RuntimeCause} (other : cause ≠ .stackOverflow)
    (place : Option Span) : Stop.Ordinary (.failure ⟨cause, place⟩) := by
  cases cause with
  | stackOverflow => exact other rfl
  | _ => trivial

/-- A write changes the console only. -/
theorem write_follows (text : String) : (write text).Follows step Stop.Ordinary :=
  fun _ => ⟨rfl, rfl, rfl, .refl, fun _ stopped => nomatch stopped⟩

/-- A flush changes nothing. -/
theorem flush_follows : flush.Follows step Stop.Ordinary :=
  .of_same (fun _ => rfl) fun _ _ stopped => nomatch stopped

/-- Reading a line changes the console only. -/
theorem readLine_follows : readLine.Follows step Stop.Ordinary := by
  intro machine
  simp only [readLine]
  split
  next =>
    refine ⟨rfl, rfl, rfl, .refl, fun reason stopped => ?_⟩
    obtain rfl : .suspended .line = reason := Except.error.inj stopped
    trivial
  next => exact ⟨rfl, rfl, rfl, .refl, fun _ stopped => nomatch stopped⟩

/-- A reading of the clock changes the console only. -/
theorem readClock_follows : readClock.Follows step Stop.Ordinary :=
  fun _ => ⟨rfl, rfl, rfl, .refl, fun _ stopped => nomatch stopped⟩

/-- A difference of positions changes nothing. -/
theorem lengthBetween_follows (first last : Nat) :
    (lengthBetween first last).Follows step Stop.Ordinary := by
  refine .of_same (fun machine => ?_) fun machine reason stopped => ?_
  · rcases lengthBetween_cases first last machine with ⟨_, told⟩ | ⟨_, told⟩ <;> rw [told]
  · rcases lengthBetween_cases first last machine with ⟨_, told⟩ | ⟨_, told⟩
    · rw [told] at stopped
      cases stopped
    · rw [told] at stopped
      obtain rfl : .trapped = reason := Except.error.inj stopped
      trivial

/-- Going on with what the console gave changes nothing. -/
theorem orFailAt_follows (span : Span) (result : Except ConsoleError α) :
    (orFailAt span result).Follows step Stop.Ordinary := by
  cases result with
  | ok value => exact .pure value
  | error error => exact .stop trivial

/-- Going on with what the console gave changes nothing. -/
theorem orFail_follows (result : Except ConsoleError α) :
    (orFail result).Follows step Stop.Ordinary := by
  cases result with
  | ok value => exact .pure value
  | error error => exact .stop trivial

end

/-- What is done to arrays changes arrays only. -/
theorem arrayOnly_congruence :
    ArrayCongruence (fun span place => span = place) fun run _ => run.ArrayOnly where
  pure := .pure
  bind := .bind
  failAt _ other := .stop (ordinary_failure other _)
  inspect view _ := .inspect view
  addArray elements := .change fun store => .single (.addArray store elements)
  push ref value := .update fun store => .push store ref value
  replace ref position value := .update fun store => .replace store ref position value
  readClock := readClock_follows
  lengthBetween := lengthBetween_follows

/-- What the machine does by itself makes elementary changes, and stops for anything but too many
calls. -/
theorem follows_pervasive {stops : Stop → Prop}
    (ordinary : ∀ reason : Stop, reason.Ordinary → stops reason) :
    Pervasive (fun _ => True) fun run => run.Follows Store.Step stops where
  pure := .pure
  bind := .bind
  failAt _ other := .stop (ordinary _ (ordinary_failure other _))
  look _ := .of_same (fun _ => rfl) fun _ _ stopped => nomatch stopped
  addFunction closure := .change fun store => .single (.addFunction store closure)
  bindMethod _ _ := .change fun store => .single (.addFrame store _)
  addFrame frame := .change fun store => .single (.addFrame store frame)
  addClass object := .change fun store => .single (.addClass store object)
  define frame name value := .update fun store => .define store frame name value
  addArray elements := .change fun store => .single (.addArray store elements)
  push ref value := .update fun store => .push store ref value
  replace ref position value := .update fun store => .replace store ref position value
  readClock := readClock_follows.weaken (fun _ _ single => single) ordinary
  lengthBetween first last :=
    (lengthBetween_follows first last).weaken (fun _ _ single => single) ordinary

/-- The machine by itself makes elementary changes and does not report too many calls. -/
theorem plain_pervasive : Pervasive (fun _ => True) fun run => run.Plain :=
  follows_pervasive fun _ ordinary => ordinary

end Run

namespace Evaluation

open Run

/-- A native function changes arrays only, and it never reports too many calls. -/
theorem callNative_follows (span : Span) (native : Native) (arguments : List Value) :
    (callNative span native arguments).ArrayOnly :=
  arrayOnly_congruence.callNative rfl native arguments fun _ _ =>
    arrayOnly_congruence.promptedLine rfl (write_follows _) flush_follows readLine_follows

/-- A unary operator never reports too many calls. -/
theorem unary_apply_ordinary (operator : UnaryOperator) (value : Value) (cause : RuntimeCause)
    (failed : operator.apply value = .error cause) : cause ≠ .stackOverflow := by
  rintro rfl
  unfold UnaryOperator.apply at failed
  split at failed <;> simp at failed

/-- A binary operator never reports too many calls. -/
theorem binary_apply_ordinary (operator : BinaryOperator) (left right : Value)
    (cause : RuntimeCause) (failed : operator.apply left right = .error cause) :
    cause ≠ .stackOverflow := by
  rintro rfl
  unfold BinaryOperator.apply at failed
  split at failed <;> simp at failed

/-- A name that a frame holds is given the value there, and one that none holds is reported. -/
theorem assignName_apply (label : Nat) (name : Identifier) (value : Value) (machine : Machine) :
    assignName label name value machine =
      match holder? machine label name.name with
      | some frame =>
        (.ok value, { machine with store := machine.store.define frame name.name value })
      | none => (.error (.failure ⟨.undefinedVariable name.name, some name.span⟩), machine) := by
  change (match holder? machine label name.name with
    | some frame => _
    | none => _ : Run Value) machine = _
  cases holder? machine label name.name <;> rfl

/-- A name with a recorded distance is assigned to at this distance, and any other one as a global
name. -/
theorem assignName_eq (label : Nat) (name : Identifier) (value : Value) (machine : Machine) :
    assignName label name value machine =
      match (match machine.distances[label]? with
        | some distance => machine.store.assignAt? machine.frame distance name.name value
        | none => machine.store.assign? Store.globals name.name value) with
      | some store => (.ok value, { machine with store })
      | none => (.error (.failure ⟨.undefinedVariable name.name, some name.span⟩), machine) := by
  rw [assignName_apply, holder?]
  cases machine.distances[label]? with
  | some distance =>
    simp only [Store.assignAt?]
    cases machine.store.holderAt? machine.frame distance name.name <;> rfl
  | none =>
    simp only [Store.assign?]
    cases machine.store.holder? Store.globals name.name <;> rfl

/-- Binding a method to an instance makes a frame. -/
theorem steps_bindMethod (store : Store) (method : Closure) (receiver : InstanceRef) :
    store.Steps (store.bindMethod method receiver).2 := .single (.addFrame store _)

/-- Printing changes the console only. -/
theorem printValue_follows (value : Value) : (printValue value).Plain :=
  .bind (.inspect _) fun _ => .bind (write_follows _) fun _ => orFail_follows _

/-- A run that makes elementary changes, with any kind of stop. -/
abbrev Elementary {α : Type} (run : Run α) : Prop := run.Follows Store.Step fun _ => True

/-- The frame of a call is made and its parameters are bound. -/
theorem steps_callFrame (store : Store) (outer : FrameRef) (bindings : List (String × Value)) :
    store.Steps ((store.addFrame ⟨{}, some outer⟩).2.defineAll
      (store.addFrame ⟨{}, some outer⟩).1 bindings) :=
  .head (.addFrame store _) (Store.steps_defineAll _ _ _)

/-- A run without reports of too many calls is allowed to have them. -/
theorem elementary {α : Type} {run : Run α} (plain : run.Plain) : Elementary run :=
  plain.weaken (fun _ _ single => single) fun _ _ => trivial

/-- Whatever the machine does makes elementary changes. -/
theorem elementary_invariant : Invariant fun run => Elementary run where
  toPervasive := follows_pervasive fun _ _ => trivial
  stop _ := .stop trivial
  addInstance object := .change fun store => .single (.addInstance store object)
  setField ref name value := .update fun store => .setField store ref name value
  bindAll outer bindings := .change fun store => steps_callFrame store outer bindings
  write text := elementary (write_follows text)
  flush := elementary flush_follows
  readLine := elementary readLine_follows
  within frame _ inner := .within frame inner
  asCall closing _ inner := .asCall closing inner trivial

section

variable {body : List (Stmt Nat) → Run Completion}

/-- The machine inside the frame of a call, with its parameters bound and the call in progress. -/
def inCall (closure : Closure) (arguments : List Value) (machine : Machine) : Machine :=
  let (frame, store) := machine.store.addFrame ⟨{}, some closure.frame⟩
  let names := closure.declaration.parameters.map Identifier.name
  { machine with
    store := store.defineAll frame (names.zip arguments)
    frame
    depth := machine.depth + 1 }

/-- The value of a call whose body completed. -/
def callValue (closure : Closure) (store : Store) : Completion → Value
  | .returned value =>
    if closure.isInitializer then (store.own? closure.frame receiverName).getD .nil else value
  | .normal =>
    if closure.isInitializer then (store.own? closure.frame receiverName).getD .nil else .nil

/-- A call fails if as many calls as allowed are in progress; otherwise its body runs inside its
frame as one more call, and when it ends the frame is the one before and one call less is in
progress. -/
theorem callClosure_apply (closure : Closure) (arguments : List Value) (closing : Span)
    (machine : Machine) :
    callClosure body closure arguments closing machine =
      if maxDepth ≤ machine.depth then
        (.error (.failure ⟨.stackOverflow, some closing⟩),
          { machine with store := (inCall closure arguments machine).store })
      else
        match body closure.declaration.body (inCall closure arguments machine) with
        | (.error reason, after) =>
          (.error reason, { after with frame := machine.frame, depth := after.depth - 1 })
        | (.ok completion, after) =>
          (.ok (callValue closure after.store completion),
            { after with frame := machine.frame, depth := after.depth - 1 }) := by
  have opened : callClosure body closure arguments closing machine =
      (asCall closing (within (inCall closure arguments machine).frame
          (body closure.declaration.body)) >>= fun completion =>
        if closure.isInitializer then
          inspect fun store => (store.own? closure.frame receiverName).getD .nil
        else
          match completion with
          | .returned value => return value
          | .normal => return .nil)
        { machine with store := (inCall closure arguments machine).store } := rfl
  rw [opened, bind_apply]
  by_cases full : maxDepth ≤ machine.depth
  · rw [if_pos full]
    simp only [asCall, if_pos full]
    rfl
  · rw [if_neg full]
    have ran : asCall closing (within (inCall closure arguments machine).frame
        (body closure.declaration.body))
          { machine with store := (inCall closure arguments machine).store } =
        ((body closure.declaration.body (inCall closure arguments machine)).1,
          { (body closure.declaration.body (inCall closure arguments machine)).2 with
            frame := machine.frame
            depth := (body closure.declaration.body
              (inCall closure arguments machine)).2.depth - 1 }) := by
      simp only [asCall, if_neg full]
      rfl
    rw [ran]
    generalize body closure.declaration.body (inCall closure arguments machine) = result
    obtain ⟨result, after⟩ := result
    rcases result with reason | completion
    · rfl
    · cases completion <;> simp only [callValue] <;> split <;> rfl

end

/-- An expression makes elementary changes only. -/
theorem evaluate_follows (steps : Nat) (expression : Expr Nat) :
    Elementary (evaluate steps expression) := (elementary_invariant.all steps).1 expression

/-- A statement makes elementary changes only. -/
theorem execute_follows (steps : Nat) (statement : Stmt Nat) :
    Elementary (execute steps statement) := (elementary_invariant.all steps).2 statement

/-- Statements in order make elementary changes only. -/
theorem executeAll_follows (steps : Nat) (statements : List (Stmt Nat)) :
    Elementary (executeAll (execute steps) statements) :=
  elementary_invariant.executeAll (execute_follows steps) statements

end Evaluation

end KoreanLox
