import KoreanLox.Proofs.Console.Output
import KoreanLox.Proofs.Evaluation.Likeness
import KoreanLox.Proofs.Store.Agreement

/-!
# Runs that agree

Programs that agree do the same at machines that agree: they come to the same values, or they stop
for one cause at places that correspond, and they leave machines that agree. Labels and places
decide nothing. One machine may have a limit on its output that the other one lacks; then the two
agree until a text does not fit, and there the one with the limit stops (`Run.Meets.cut`). All runs
together are treated by induction on the steps (`Evaluation.agrees_all`).
-/

namespace KoreanLox

/-- What may differ between two runs that agree. -/
structure Variation where
  /-- Which labels and places correspond. -/
  links : Correspondence Nat Nat
  /-- The limit on the output of the second machine, if the first one lacks it. -/
  cap : Option Nat

/-- Two machines agree. -/
structure Machine.Agrees (variation : Variation) (first second : Machine) : Prop where
  /-- Their stores agree. -/
  store : first.store.Agrees variation.links second.store
  /-- Their consoles are in step. -/
  console : Console.InStep variation.cap first.console second.console
  /-- They stand in one frame. -/
  frame : second.frame = first.frame
  /-- They have as many calls in progress. -/
  depth : second.depth = first.depth
  /-- Labels that correspond have one distance. -/
  distances : ∀ label other, variation.links.label label other →
    second.distances[other]? = first.distances[label]?

/-- Two stops agree: for one cause at places that correspond, or for one need. -/
inductive Stop.Agrees (links : Correspondence Nat Nat) : Stop → Stop → Prop where
  | failure {cause : RuntimeCause} {span place : Option Span}
    (places : Option.Rel links.place span place) :
    Agrees links (.failure ⟨cause, span⟩) (.failure ⟨cause, place⟩)
  | suspended (need : Need) : Agrees links (.suspended need) (.suspended need)
  | trapped : Agrees links .trapped .trapped

namespace Run

variable {α β γ δ : Type} {variation : Variation}

/-- A run only uses the console. -/
def Talks (run : Run α) : Prop :=
  ∀ machine : Machine, machine.console.Steps (run machine).2.console

/-- What two runs that began at one state of the console came to agrees, or the console of the
second one is cut off from that of the first one, and that is where it failed. -/
inductive Meets (variation : Variation) (related : α → β → Prop) (before : Console) :
    Except Stop α × Machine → Except Stop β × Machine → Prop where
  | value {value : α} {value' : β} {machine other : Machine} (values : related value value')
    (agree : machine.Agrees variation other) :
    Meets variation related before (.ok value, machine) (.ok value', other)
  | stop {reason reason' : Stop} {machine other : Machine}
    (stops : reason.Agrees variation.links reason') (agree : machine.Agrees variation other) :
    Meets variation related before (.error reason, machine) (.error reason', other)
  | cut {limit : Nat} (capped : variation.cap = some limit) {result : Except Stop α}
    {machine other : Machine} {place : Option Span}
    (parted : Console.CutOff limit before machine.console other.console) :
    Meets variation related before (result, machine)
      (.error (.failure ⟨.console .outputLimit, place⟩), other)

/-- Two runs agree: the first one only uses the console, and what they come to at machines that
agree does. -/
structure Agrees (variation : Variation) (related : α → β → Prop) (first : Run α)
    (second : Run β) : Prop where
  /-- The first one only uses the console. -/
  talks : first.Talks
  /-- What they come to agrees. -/
  meets : ∀ machine other, machine.Agrees variation other →
    Meets variation related machine.console (first machine) (second other)

/-- What agrees since some use of the console does so since every earlier one. -/
theorem Meets.from {related : α → β → Prop} {before between : Console}
    {first : Except Stop α × Machine} {second : Except Stop β × Machine}
    (met : Meets variation related between first second) (used : before.Steps between) :
    Meets variation related before first second := by
  cases met with
  | value values agree => exact .value values agree
  | stop stops agree => exact .stop stops agree
  | cut capped parted => exact .cut capped (parted.from used)

/-- Runs in sequence only use the console. -/
theorem Talks.bind {first : Run α} {next : α → Run β} (head : first.Talks)
    (tail : ∀ value, (next value).Talks) : (first >>= next).Talks := by
  intro machine
  have early := head machine
  rw [bind_apply]
  generalize first machine = result at early
  obtain ⟨result, after⟩ := result
  cases result with
  | error reason => exact early
  | ok value => exact early.trans (tail value after)

/-- Reading a line uses the console as the console reads a line. -/
theorem readLine_console (machine : Machine) :
    (Run.readLine machine).2.console = machine.console.readLine.2 := by
  simp only [Run.readLine]
  split <;> rfl

/-- A difference of positions does not use the console. -/
theorem Talks.lengthBetween (first last : Nat) : (Run.lengthBetween first last).Talks := by
  intro machine
  rcases lengthBetween_cases first last machine with ⟨_, told⟩ | ⟨_, told⟩ <;> rw [told]

/-- A run in another frame only uses the console if it does so otherwise. -/
theorem Talks.within {run : Run α} (frame : FrameRef) (inner : run.Talks) :
    (Run.within frame run).Talks :=
  fun machine => inner { machine with frame }

/-- A call only uses the console if what it runs does. -/
theorem Talks.asCall {run : Run α} (span : Span) (inner : run.Talks) :
    (Run.asCall span run).Talks := by
  intro machine
  by_cases full : maxDepth ≤ machine.depth
  · simp only [Run.asCall, if_pos full]
    exact .refl
  · simp only [Run.asCall, if_neg full]
    exact inner { machine with depth := machine.depth + 1 }

/-- Whatever the machine does only uses the console. -/
theorem talks_invariant : Invariant fun run => run.Talks where
  pure _ _ := .refl
  bind := .bind
  failAt _ _ _ := .refl
  look _ _ := .refl
  addFunction _ _ := .refl
  bindMethod _ _ _ := .refl
  addFrame _ _ := .refl
  addClass _ _ := .refl
  define _ _ _ _ := .refl
  addArray _ _ := .refl
  push _ _ _ := .refl
  replace _ _ _ _ := .refl
  readClock machine := .single (.readClock machine.console)
  lengthBetween := .lengthBetween
  stop _ _ := .refl
  addInstance _ _ := .refl
  setField _ _ _ _ := .refl
  bindAll _ _ _ := .refl
  write text machine := .single (.write machine.console text)
  flush _ := .refl
  readLine machine := by
    rw [readLine_console]
    exact .single (.readLine machine.console)
  within frame _ inner := .within frame inner
  asCall closing _ inner := .asCall closing inner

namespace Agrees

variable {related : α → β → Prop} {further : γ → δ → Prop}

/-- Runs that leave the machines alone agree if their results do. -/
theorem still {first : Run α} {second : Run β} (alone : ∀ machine, (first machine).2 = machine)
    (meets : ∀ machine other, machine.Agrees variation other →
      Meets variation related machine.console (first machine) (second other)) :
    first.Agrees variation related second := by
  refine ⟨fun machine => ?_, meets⟩
  rw [alone machine]

/-- Giving values that are related agrees. -/
theorem pure {value : α} {value' : β} (values : related value value') :
    (Pure.pure value : Run α).Agrees variation related (Pure.pure value' : Run β) :=
  still (fun _ => rfl) fun _ _ agree => .value values agree

/-- Stopping for reasons that agree agrees. -/
theorem stop {reason reason' : Stop} (stops : reason.Agrees variation.links reason') :
    (Run.stop reason : Run α).Agrees variation related (Run.stop reason' : Run β) :=
  still (fun _ => rfl) fun _ _ agree => .stop stops agree

/-- Failing for one cause at places that correspond agrees. -/
theorem failAt {span place : Span} (places : variation.links.place span place)
    (cause : RuntimeCause) :
    (Run.failAt span cause : Run α).Agrees variation related (Run.failAt place cause : Run β) :=
  stop (.failure (.some places))

/-- Failing for one cause at no known place agrees. -/
theorem fail (cause : RuntimeCause) :
    (Run.fail cause : Run α).Agrees variation related (Run.fail cause : Run β) :=
  stop (.failure .none)

/-- Runs in sequence agree. -/
theorem bind {first : Run α} {second : Run β} {next : α → Run γ} {next' : β → Run δ}
    (head : first.Agrees variation related second)
    (tail : ∀ value value', related value value' →
      (next value).Agrees variation further (next' value'))
    (talks : ∀ value, (next value).Talks) :
    (first >>= next).Agrees variation further (second >>= next') := by
  refine ⟨head.talks.bind talks, fun machine other agree => ?_⟩
  have used := head.talks machine
  have met := head.meets machine other agree
  rw [bind_apply, bind_apply]
  generalize first machine = result at used met
  generalize second other = result' at met
  cases met with
  | value values agree => exact ((tail _ _ values).meets _ _ agree).from used
  | stop stops agree => exact .stop stops agree
  | @cut limit capped result after other place parted =>
    -- The second run has stopped; the first one goes on and only uses its console.
    refine .cut capped ?_
    cases result with
    | error reason => exact parted
    | ok value => exact parted.after (talks value after)

/-- Runs in sequence agree if the second ones do after every value. -/
theorem andThen {first second : Run α} {next : α → Run γ} {next' : α → Run δ}
    (head : first.Agrees variation Eq second)
    (tail : ∀ value, (next value).Agrees variation further (next' value)) :
    (first >>= next).Agrees variation further (second >>= next') :=
  head.bind (by rintro value _ rfl; exact tail value) fun value => (tail value).talks

/-- Looking at what is related in stores that agree agrees. -/
theorem inspect {view : Store → α} {view' : Store → β}
    (views : ∀ first second, Store.Agrees variation.links first second →
      related (view first) (view' second)) :
    (Run.inspect view).Agrees variation related (Run.inspect view') :=
  still (fun _ => rfl) fun _ _ agree => .value (views _ _ agree.store) agree

/-- Changes of stores that keep them in agreement agree. -/
theorem change {step : Store → α × Store} {step' : Store → β × Store}
    (kept : ∀ first second, Store.Agrees variation.links first second →
      related (step first).1 (step' second).1 ∧
        (step first).2.Agrees variation.links (step' second).2) :
    (Run.change step).Agrees variation related (Run.change step') := by
  refine ⟨fun machine => .refl, fun machine other agree => ?_⟩
  obtain ⟨values, stores⟩ := kept _ _ agree.store
  exact .value values ⟨stores, agree.console, agree.frame, agree.depth, agree.distances⟩

/-- Updates of stores that keep them in agreement agree. -/
theorem update {step step' : Store → Store}
    (kept : ∀ first second, Store.Agrees variation.links first second →
      (step first).Agrees variation.links (step' second)) :
    (Run.update step).Agrees variation Eq (Run.update step') :=
  change fun first second agree => ⟨rfl, kept first second agree⟩

/-- The current frame is the same. -/
theorem currentFrame : Run.currentFrame.Agrees variation Eq Run.currentFrame :=
  still (fun _ => rfl) fun _ _ agree => .value agree.frame.symm agree

/-- Runs in one other frame agree. -/
theorem within {first : Run α} {second : Run β} (frame : FrameRef)
    (inner : first.Agrees variation related second) :
    (Run.within frame first).Agrees variation related (Run.within frame second) := by
  refine ⟨inner.talks.within frame, fun machine other agree => ?_⟩
  have met := inner.meets { machine with frame } { other with frame }
    ⟨agree.store, agree.console, rfl, agree.depth, agree.distances⟩
  unfold Run.within
  generalize first { machine with frame } = result at met
  generalize second { other with frame } = result' at met
  cases met with
  | value values left =>
    exact .value values ⟨left.store, left.console, agree.frame, left.depth, left.distances⟩
  | stop stops left =>
    exact .stop stops ⟨left.store, left.console, agree.frame, left.depth, left.distances⟩
  | cut capped parted => exact .cut capped parted

/-- Calls at places that correspond agree if what they run does. -/
theorem asCall {first : Run α} {second : Run β} {span place : Span}
    (places : variation.links.place span place)
    (inner : first.Agrees variation related second) :
    (Run.asCall span first).Agrees variation related (Run.asCall place second) := by
  refine ⟨inner.talks.asCall span, fun machine other agree => ?_⟩
  have depth := agree.depth
  by_cases full : maxDepth ≤ machine.depth
  · simp only [Run.asCall, depth, if_pos full]
    exact (failAt places .stackOverflow).meets machine other agree
  · simp only [Run.asCall, depth, if_neg full]
    have met := inner.meets { machine with depth := machine.depth + 1 }
      { other with depth := machine.depth + 1 }
      ⟨agree.store, agree.console, agree.frame, rfl, agree.distances⟩
    generalize first { machine with depth := machine.depth + 1 } = result at met
    generalize second { other with depth := machine.depth + 1 } = result' at met
    cases met with
    | value values left =>
      exact .value values
        ⟨left.store, left.console, left.frame, congrArg (· - 1) left.depth, left.distances⟩
    | stop stops left =>
      exact .stop stops
        ⟨left.store, left.console, left.frame, congrArg (· - 1) left.depth, left.distances⟩
    | cut capped parted => exact .cut capped parted

/-- Flushing agrees. -/
theorem flush : Run.flush.Agrees variation Eq Run.flush :=
  still (fun _ => rfl) fun _ _ agree => .value agree.console.flush.symm agree

/-- Reading a line agrees. -/
theorem readLine : Run.readLine.Agrees variation Eq Run.readLine := by
  refine ⟨talks_invariant.readLine, fun machine other agree => ?_⟩
  obtain ⟨same, console⟩ := agree.console.readLine
  simp only [Run.readLine, same]
  cases machine.console.readLine.1 with
  | none =>
    exact .stop (.suspended .line)
      ⟨agree.store, console, agree.frame, agree.depth, agree.distances⟩
  | some result =>
    exact .value rfl ⟨agree.store, console, agree.frame, agree.depth, agree.distances⟩

/-- Reading the clock agrees. -/
theorem readClock : Run.readClock.Agrees variation Eq Run.readClock := by
  refine ⟨talks_invariant.readClock, fun machine other agree => ?_⟩
  obtain ⟨same, console⟩ := agree.console.readClock
  exact .value same.symm ⟨agree.store, console, agree.frame, agree.depth, agree.distances⟩

/-- A difference of positions agrees. -/
theorem lengthBetween (first last : Nat) :
    (Run.lengthBetween first last).Agrees variation Eq (Run.lengthBetween first last) := by
  refine ⟨.lengthBetween first last, fun machine other agree => ?_⟩
  have checked := agree.console.checked
  simp only [Run.lengthBetween, checked]
  split
  next => exact .value rfl agree
  next =>
    split
    next => exact .stop .trapped agree
    next => exact .value rfl agree

/-- Going on with what the console gave agrees. -/
theorem orFailAt {span place : Span} (places : variation.links.place span place)
    (result : Except ConsoleError α) :
    (Run.orFailAt span result).Agrees variation Eq (Run.orFailAt place result) := by
  cases result with
  | ok value => exact pure rfl
  | error error => exact failAt places _

/-- Writing a text agrees, where what follows fails with the error of the console. If the text does
not fit into the second console, that is where the second run fails. -/
theorem write (text : String) {follow follow' : Except ConsoleError Unit → Run Unit}
    (each : ∀ result, (follow result).Agrees variation Eq (follow' result))
    (fails : ∃ place, ∀ error, follow' (.error error) = Run.stop (.failure ⟨.console error, place⟩))
    (goesOn : follow (.ok ()) = Pure.pure ()) :
    (Run.write text >>= follow).Agrees variation Eq (Run.write text >>= follow') := by
  refine ⟨(talks_invariant.write text).bind fun result => (each result).talks,
    fun machine other agree => ?_⟩
  rcases agree.console.write text with
    ⟨same, console⟩ | ⟨limit, capped, fitted, refused, parted⟩
  · rw [bind_apply, bind_apply]
    have written : machine.console.Steps (machine.console.write text).2 :=
      .single (.write machine.console text)
    have left : Machine.Agrees variation
        { machine with console := (machine.console.write text).2 }
        { other with console := (other.console.write text).2 } :=
      ⟨agree.store, console, agree.frame, agree.depth, agree.distances⟩
    simp only [Run.write, ← same]
    exact ((each _).meets _ _ left).from written
  · obtain ⟨place, failed⟩ := fails
    rw [bind_apply, bind_apply]
    simp only [Run.write, fitted, refused, goesOn, failed]
    exact .cut capped parted

end Agrees

end Run

namespace Evaluation

open Run

section

variable {variation : Variation} {span place : Span}

/-- What is done to arrays agrees. -/
theorem agrees_congruence :
    ArrayCongruence variation.links.place fun first second =>
      first.Agrees variation Eq second where
  pure _ := .pure rfl
  bind := .andThen
  failAt places _ := .failAt places _
  inspect _ depends := .inspect fun first second agree =>
    depends first second (funext fun ref => (agree.resembles.elements ref).symm)
  addArray elements := .change fun _ _ agree =>
    ⟨(agree.addArray elements).1.symm, (agree.addArray elements).2⟩
  push ref value := .update fun _ _ agree => agree.push ref value
  replace ref position value := .update fun _ _ agree => agree.replace ref position value
  readClock := .readClock
  lengthBetween := .lengthBetween

/-- Prompting for a line agrees. -/
theorem promptedLine_agrees (places : variation.links.place span place) :
    (promptedLine span).Agrees variation Eq (promptedLine place) := by
  have prompted : (Run.write ">> " >>= orFailAt span).Agrees variation Eq
      (Run.write ">> " >>= orFailAt place) :=
    .write ">> " (fun result => .orFailAt places result) ⟨some place, fun _ => rfl⟩ rfl
  have read : (do
        orFailAt span (← flush)
        let line ← orFailAt span (← readLine)
        return Value.string (String.ofList (Text.withoutEnding line.toList)) : Run Value).Agrees
      variation Eq (do
        orFailAt place (← flush)
        let line ← orFailAt place (← readLine)
        return Value.string (String.ofList (Text.withoutEnding line.toList))) :=
    .andThen .flush fun _ => .andThen (.orFailAt places _) fun _ =>
      .andThen .readLine fun _ => .andThen (.orFailAt places _) fun _ => .pure rfl
  have opened (span : Span) : promptedLine span =
      ((Run.write ">> " >>= orFailAt span) >>= fun _ => do
        orFailAt span (← flush)
        let line ← orFailAt span (← readLine)
        return Value.string (String.ofList (Text.withoutEnding line.toList)) : Run Value) := by
    funext machine
    simp only [promptedLine, bind_apply]
    generalize Run.write ">> " machine = result
    obtain ⟨result, after⟩ := result
    cases result <;> rfl
  rw [opened, opened]
  exact .andThen prompted fun _ => read

/-- Calls of a native function agree. -/
theorem callNative_agrees (places : variation.links.place span place) (native : Native)
    (arguments : List Value) :
    (callNative span native arguments).Agrees variation Eq
      (callNative place native arguments) :=
  agrees_congruence.callNative places native arguments fun _ _ => promptedLine_agrees places

/-- Printing a value agrees. -/
theorem printValue_agrees (value : Value) :
    (printValue value).Agrees variation Eq (printValue value) := by
  have shown : (inspect fun store => store.text value).Agrees variation Eq
      (inspect fun store => store.text value) :=
    .inspect fun _ _ agree => (agree.resembles.text value).symm
  have ended (result : Except ConsoleError Unit) :
      (orFail result).Agrees variation Eq (orFail result) := by
    cases result with
    | ok value => exact .pure rfl
    | error error => exact .fail _
  exact .andThen shown fun text =>
    .write (text ++ "\n") ended ⟨none, fun _ => rfl⟩ rfl

end

section

variable {variation : Variation}

/-- Names whose labels correspond have the same value at machines that agree. -/
theorem nameValue?_agrees {machine other : Machine} (agree : machine.Agrees variation other)
    {label label' : Nat} (labels : variation.links.label label label') (name : String) :
    nameValue? other label' name = nameValue? machine label name := by
  unfold nameValue?
  rw [agree.distances label label' labels, agree.frame]
  cases machine.distances[label]? with
  | some distance => exact Store.getAt?_congr agree.store.frames _ distance name
  | none => exact Store.find?_congr agree.store.frames _ name

/-- Reading a name agrees. -/
theorem readName_agrees {label label' : Nat} (labels : variation.links.label label label')
    {name name' : Identifier} (names : variation.links.Identifiers name name') :
    (readName label name).Agrees variation Eq (readName label' name') := by
  refine .still (fun machine => ?_) fun machine other agree => ?_
  · rw [readName_apply]
    split <;> rfl
  · have same := nameValue?_agrees agree labels name.name
    rw [readName_apply, readName_apply, names.name, same]
    cases nameValue? machine label name.name with
    | some value => exact .value rfl agree
    | none => exact .stop (.failure (.some names.place)) agree

/-- Assigning to a name agrees. -/
theorem assignName_agrees {reference other : Reference Nat}
    (target : variation.links.References reference other) (value : Value) :
    (assignName reference.label reference.target value).Agrees variation Eq
      (assignName other.label other.target value) := by
  have held : Run.Agrees variation Eq
      (fun machine =>
        (.ok (Evaluation.holder? machine reference.label reference.target.name), machine) :
          Run (Option FrameRef))
      (fun machine =>
        (.ok (Evaluation.holder? machine other.label other.target.name), machine)) := by
    refine .still (fun _ => rfl) fun machine machine' agree => .value ?_ agree
    unfold Evaluation.holder?
    rw [agree.distances _ _ target.label, agree.frame, target.target.name]
    cases machine.distances[reference.label]? with
    | some distance => exact (Store.holderAt?_congr agree.store.frames _ distance _).symm
    | none => exact (Store.holder?_congr agree.store.frames _ _).symm
  refine .andThen held fun found => ?_
  cases found with
  | some frame =>
    rw [target.target.name]
    exact .andThen (.update fun _ _ agree => agree.define frame _ value) fun _ => .pure rfl
  | none =>
    rw [target.target.name]
    exact .failAt target.target.place _

/-- Declaring a name agrees. -/
theorem declare_agrees {name name' : String} (names : name' = name) (value : Value) :
    (declare name value).Agrees variation Eq (declare name' value) := by
  subst names
  exact .andThen .currentFrame fun frame => .update fun _ _ agree => agree.define frame _ value

/-- Making functions that agree agrees. -/
theorem newFunction_agrees {closure closure' : Closure}
    (same : closure.Agrees variation.links closure') :
    (newFunction closure).Agrees variation Eq (newFunction closure') := by
  refine .andThen (.change fun first second agree => ?_) fun ref => .pure rfl
  have added := agree.addFunction same
  exact ⟨added.1.symm, added.2⟩

/-- Binding methods that agree agrees. -/
theorem bindMethod_agrees {method method' : Closure}
    (same : method.Agrees variation.links method') (receiver : InstanceRef) :
    (change fun store => store.bindMethod method receiver).Agrees variation
      (Closure.Agrees variation.links) (change fun store => store.bindMethod method' receiver) := by
  apply Run.Agrees.change
  intro first second agree
  have bound := agree.bindMethod same receiver
  exact ⟨bound.2, bound.1⟩

/-- Taking methods that agree from an instance agrees. -/
theorem bound_agrees {method method' : Closure} (same : method.Agrees variation.links method')
    (receiver : InstanceRef) :
    (bound method receiver).Agrees variation Eq (bound method' receiver) :=
  .bind (bindMethod_agrees same receiver) (fun _ _ closures => newFunction_agrees closures)
    talks_invariant.newFunction

/-- Going on with methods that agree, or failing, agrees. -/
theorem found_agrees (receiver : InstanceRef) {span place : Span}
    (places : variation.links.place span place) (cause : RuntimeCause)
    (found found' : Option Closure) :
    Option.Rel (Closure.Agrees variation.links) found found' →
      Run.Agrees variation Eq
        (match found with
        | some method => bound method receiver
        | none => failAt span cause : Run Value)
        (match found' with
        | some method => bound method receiver
        | none => failAt place cause) := by
  intro both
  cases both with
  | some same => exact bound_agrees same receiver
  | none => exact .failAt places cause

/-- Reading a property agrees. -/
theorem property_agrees (ref : InstanceRef) {name name' : Identifier}
    (names : variation.links.Identifiers name name') :
    (property ref name).Agrees variation Eq (property ref name') := by
  have fields : (inspect fun store => store.field? ref name.name).Agrees variation Eq
      (inspect fun store => store.field? ref name.name) :=
    .inspect fun _ _ agree => (agree.resembles.field? ref name.name).symm
  have methods : (inspect fun store => store.instanceMethod? ref name.name).Agrees variation
      (Option.Rel (Closure.Agrees variation.links))
      (inspect fun store => store.instanceMethod? ref name.name) :=
    .inspect fun _ _ agree => agree.resembles.instanceMethod? ref name.name
  unfold property
  rw [names.name]
  refine .andThen fields fun field => ?_
  cases field with
  | some value => exact .pure rfl
  | none =>
    exact .bind methods (found_agrees ref names.place _) fun found =>
      talks_invariant.boundOrFail found ref trivial (by simp)

/-- The superclass and the receiver are the same for labels that correspond at machines that
agree. -/
theorem parentReceiver?_agrees {machine other : Machine} (agree : machine.Agrees variation other)
    {label label' : Nat} (labels : variation.links.label label label') :
    parentReceiver? other label' = parentReceiver? machine label := by
  have got (distance : Nat) (name : String) :
      other.store.getAt? other.frame distance name =
        machine.store.getAt? machine.frame distance name := by
    rw [agree.frame]
    exact Store.getAt?_congr agree.store.frames _ distance name
  exact parentReceiver?_congr (agree.distances label label' labels) (got · parentName)
    (got · receiverName)

/-- Looking up the superclass and the receiver agrees. -/
theorem parentAndReceiver_agrees {label label' : Nat}
    (labels : variation.links.label label label') {keyword place : Span}
    (places : variation.links.place keyword place) :
    (parentAndReceiver label keyword).Agrees variation Eq (parentAndReceiver label' place) := by
  refine .still (fun machine => ?_) fun machine other agree => ?_
  · rw [parentAndReceiver_apply]
    split <;> rfl
  · rw [parentAndReceiver_apply, parentAndReceiver_apply, parentReceiver?_agrees agree labels]
    cases parentReceiver? machine label with
    | ok pair => exact .value rfl agree
    | error name => exact .stop (.failure (.some places)) agree

/-- Taking a method of the superclass agrees. -/
theorem inheritedMethod_agrees {label label' : Nat}
    (labels : variation.links.label label label') {keyword place : Span}
    (places : variation.links.place keyword place) {method method' : Identifier}
    (names : variation.links.Identifiers method method') :
    (inheritedMethod label keyword method).Agrees variation Eq
      (inheritedMethod label' place method') := by
  unfold inheritedMethod
  rw [names.name]
  refine .andThen (parentAndReceiver_agrees labels places) fun found => ?_
  obtain ⟨parent, receiver⟩ := found
  exact .bind (.inspect fun _ _ agree => agree.resembles.method? parent method.name)
    (found_agrees receiver names.place _) fun found =>
      talks_invariant.boundOrFail found receiver trivial (by simp)

/-- Looking up the class that a class extends agrees. -/
theorem parentClass_agrees {parent parent' : Reference Nat}
    (extended : variation.links.References parent parent') :
    (parentClass (some parent)).Agrees variation Eq (parentClass (some parent')) := by
  refine .andThen (readName_agrees extended.label extended.target) fun value => ?_
  cases value with
  | classObject ref => exact .pure rfl
  | _ => exact .failAt extended.target.place _

/-- The tables of methods that agree agree. -/
theorem methodTable_agrees {links : Correspondence Nat Nat} (frame : FrameRef)
    {methods methods' : List (FunctionDecl Nat)} (made : Stmt.MethodsAgree links methods methods')
    (name : String) :
    Option.Rel (Closure.Agrees links) (methodTable frame methods)[name]?
      (methodTable frame methods')[name]? := by
  refine methodTable_related ?_ name
  induction methods generalizing methods' with
  | nil =>
    cases made with
    | nil => exact .nil
  | cons method rest ih =>
    cases made with
    | cons head tail =>
      exact .cons ⟨head.same.1, rfl, by rw [head.same.1], head⟩ (ih tail)

/-- Declaring classes that agree agrees. -/
theorem declareClass_agrees {name name' : Identifier}
    (names : variation.links.Identifiers name name') (parent : Option ClassRef)
    {methods methods' : List (FunctionDecl Nat)}
    (made : Stmt.MethodsAgree variation.links methods methods') :
    (declareClass name.name parent methods).Agrees variation Eq
      (declareClass name'.name parent methods') := by
  have framed : (methodFrame parent).Agrees variation Eq (methodFrame parent) := by
    cases parent with
    | none => exact .currentFrame
    | some parent =>
      refine .andThen .currentFrame fun frame => .change fun first second agree => ?_
      have opened := agree.addFrame
        ⟨({} : Std.TreeMap String Value).insert parentName (.classObject parent), some frame⟩
      exact ⟨opened.1.symm, opened.2⟩
  unfold declareClass
  rw [names.name]
  refine .andThen framed fun frame => .andThen (.change fun first second agree => ?_) fun ref =>
    declare_agrees rfl _
  have objects : ClassObject.Agrees variation.links
      ⟨name.name, parent, methodTable frame methods⟩
      ⟨name.name, parent, methodTable frame methods'⟩ :=
    ⟨rfl, rfl, methodTable_agrees frame made⟩
  have added := agree.addClass objects
  exact ⟨added.1.symm, added.2⟩

/-- Declaring functions that agree agrees. -/
theorem declareFunction_agrees {declaration declaration' : FunctionDecl Nat}
    (made : Stmt.FunctionAgrees variation.links declaration declaration') :
    (do
      let frame ← currentFrame
      let value ← newFunction ⟨declaration, frame, false⟩
      declare declaration.name.name value
      return Completion.normal : Run Completion).Agrees variation Eq
    (do
      let frame ← currentFrame
      let value ← newFunction ⟨declaration', frame, false⟩
      declare declaration'.name.name value
      return Completion.normal) :=
  .andThen .currentFrame fun _ =>
    .andThen (newFunction_agrees ⟨rfl, rfl, made⟩) fun value =>
      .andThen (declare_agrees made.same.1 value) fun _ => .pure rfl

/-- Runs in new frames agree. -/
theorem inNewFrame_agrees {α : Type} {first second : Run α}
    (inside : first.Agrees variation Eq second) :
    (inNewFrame first).Agrees variation Eq (inNewFrame second) := by
  refine .andThen .currentFrame fun outer => .andThen (.change fun store store' agree => ?_)
    fun frame => inside.within frame
  have opened := agree.addFrame ⟨{}, some outer⟩
  exact ⟨opened.1.symm, opened.2⟩

end

section

variable {variation : Variation} {body : List (Stmt Nat) → Run Completion}

/-- Calls of functions that agree agree. -/
theorem callClosure_agrees
    (runs : ∀ first second, Stmt.AgreesAll variation.links first second →
      (body first).Agrees variation Eq (body second))
    {closure closure' : Closure} (same : closure.Agrees variation.links closure')
    (arguments : List Value) {closing place : Span}
    (places : variation.links.place closing place) :
    (callClosure body closure arguments closing).Agrees variation Eq
      (callClosure body closure' arguments place) := by
  obtain ⟨-, parameters, inside⟩ := same.declaration.same
  unfold callClosure
  rw [same.frame, same.initializer, parameters]
  refine .andThen (.change fun first second agree => ?_) fun frame =>
    .andThen (.asCall places ((runs _ _ inside).within frame)) fun completion => ?_
  · obtain ⟨refs, stores⟩ := agree.addFrame ⟨{}, some closure.frame⟩
    refine ⟨refs.symm, ?_⟩
    dsimp only
    rw [refs]
    exact stores.defineAll _ _
  · by_cases initializer : closure.isInitializer
    · rw [if_pos initializer]
      apply Run.Agrees.inspect
      intro first second agree
      rw [Store.own?_congr agree.frames]
    · rw [if_neg initializer]
      cases completion <;> exact .pure rfl

/-- Making instances of a class agrees. -/
theorem construct_agrees
    (runs : ∀ first second, Stmt.AgreesAll variation.links first second →
      (body first).Agrees variation Eq (body second))
    (talks : ∀ statements, (body statements).Talks) (ref : ClassRef) (arguments : List Value)
    {closing place : Span} (places : variation.links.place closing place) :
    (construct body ref arguments closing).Agrees variation Eq
      (construct body ref arguments place) := by
  have made : (change fun store => store.addInstance ⟨ref, {}⟩).Agrees variation Eq
      (change fun store => store.addInstance ⟨ref, {}⟩) :=
    .change fun _ _ agree => ⟨(agree.addInstance ⟨ref, {}⟩).1.symm, (agree.addInstance ⟨ref, {}⟩).2⟩
  refine .andThen made fun made =>
    .bind (.inspect fun _ _ agree => agree.resembles.method? ref initializerName)
      (fun found found' both => ?_) (talks_invariant.initialise talks made arguments closing)
  cases both with
  | none => exact .pure rfl
  | some same =>
    exact .bind (bindMethod_agrees same made)
      (fun _ _ closures => .andThen (callClosure_agrees runs closures arguments places)
        fun _ => .pure rfl)
      fun closure => (talks_invariant.callClosure talks closure arguments closing).bind
        fun _ _ => .refl

/-- Calls of a value agree. -/
theorem invoke_agrees
    (runs : ∀ first second, Stmt.AgreesAll variation.links first second →
      (body first).Agrees variation Eq (body second))
    (talks : ∀ statements, (body statements).Talks) (callee : Value) (arguments : List Value)
    {closing place : Span} (places : variation.links.place closing place) :
    (invoke body callee arguments closing).Agrees variation Eq
      (invoke body callee arguments place) := by
  cases callee with
  | function ref =>
    refine .bind (.inspect fun _ _ agree => agree.function ref) (fun found found' both => ?_)
      fun found => ?_
    · cases both with
      | none => exact .failAt places _
      | @some closure closure' same =>
        dsimp only
        rw [same.declaration.same.1, same.declaration.length_parameters]
        exact .andThen (agrees_congruence.checkArity places _ _ arguments) fun _ =>
          callClosure_agrees runs same arguments places
    · cases found with
      | none => exact talks_invariant.stop (by simp)
      | some closure =>
        exact (talks_invariant.checkArity trivial _ _ arguments).bind fun _ =>
          talks_invariant.callClosure talks closure arguments closing
  | native native =>
    exact .andThen (agrees_congruence.checkArity places _ _ arguments) fun _ =>
      callNative_agrees places native arguments
  | classObject ref =>
    refine .andThen (.inspect fun first second agree => ?_) fun named => ?_
    · rw [agree.resembles.className, agree.resembles.classArity]
    · exact .andThen (agrees_congruence.checkArity places _ _ arguments) fun _ =>
        construct_agrees runs talks ref arguments places
  | _ => exact .failAt places _

end

section

variable {variation : Variation}

/-- Values of expressions that agree agree. -/
theorem evaluateAll_agrees {evaluate : Expr Nat → Run Value}
    (each : ∀ first second, first.Agrees variation.links second →
      (evaluate first).Agrees variation Eq (evaluate second))
    {first second : List (Expr Nat)} (agree : Expr.AgreesAll variation.links first second) :
    (evaluateAll evaluate first).Agrees variation Eq (evaluateAll evaluate second) := by
  induction first generalizing second with
  | nil =>
    cases agree with
    | nil => exact .pure rfl
  | cons expression rest ih =>
    cases agree with
    | cons head tail =>
      exact .andThen (each _ _ head) fun _ => .andThen (ih tail) fun _ => .pure rfl

/-- Going on after a statement unless it returned agrees. -/
theorem unlessReturned_agrees {next next' : Run Completion}
    (agree : next.Agrees variation Eq next') (completion : Completion) :
    (unlessReturned next completion).Agrees variation Eq (unlessReturned next' completion) := by
  cases completion with
  | normal => exact agree
  | returned value => exact .pure rfl

/-- Statements in order that agree agree. -/
theorem executeAll_agrees {execute : Stmt Nat → Run Completion}
    (each : ∀ first second, first.Agrees variation.links second →
      (execute first).Agrees variation Eq (execute second))
    {first second : List (Stmt Nat)} (agree : Stmt.AgreesAll variation.links first second) :
    (executeAll execute first).Agrees variation Eq (executeAll execute second) := by
  induction first generalizing second with
  | nil =>
    cases agree with
    | nil => exact .pure rfl
  | cons statement rest ih =>
    cases agree with
    | cons head tail =>
      rw [executeAll_cons, executeAll_cons]
      exact .andThen (each _ _ head) (unlessReturned_agrees (ih tail))

/-- Loops whose conditions and bodies agree agree. -/
theorem repeatWhile_agrees {condition condition' : Run Value} {body body' : Run Completion}
    (test : condition.Agrees variation Eq condition') (round : body.Agrees variation Eq body')
    (bound : Nat) :
    Run.Agrees variation Eq (repeatWhile condition body bound)
      (repeatWhile condition' body' bound) := by
  induction bound with
  | zero => exact .stop (.suspended .steps)
  | succ bound ih =>
    rw [repeatWhile_succ, repeatWhile_succ]
    refine .andThen test fun value => ?_
    split
    next => exact .andThen round (unlessReturned_agrees ih)
    next => exact .pure rfl

variable {steps : Nat}

/-- Expressions that agree do so when they are evaluated, if expressions and statements one level
down do. -/
theorem evaluate_succ_agrees
    (expressions : ∀ first second, Expr.Agrees variation.links first second →
      (evaluate steps first).Agrees variation Eq (evaluate steps second))
    (statements : ∀ first second, Stmt.Agrees variation.links first second →
      (execute steps first).Agrees variation Eq (execute steps second))
    (talks : ∀ statements, (executeAll (execute steps) statements).Talks)
    {first second : Expr Nat} (agree : first.Agrees variation.links second) :
    (evaluate (steps + 1) first).Agrees variation Eq (evaluate (steps + 1) second) := by
  cases agree with
  | literal value => exact .pure rfl
  | grouping inner => exact expressions _ _ inner
  | unary place operand =>
    exact .andThen (expressions _ _ operand) fun value =>
      agrees_congruence.orRefuse place (unary_apply_ordinary _ value)
  | binary place left right =>
    exact .andThen (expressions _ _ left) fun first =>
      .andThen (expressions _ _ right) fun second =>
        agrees_congruence.orRefuse place (binary_apply_ordinary _ first second)
  | logical left right =>
    refine .andThen (expressions _ _ left) fun value => ?_
    split
    next => exact .pure rfl
    next => exact expressions _ _ right
  | read target => exact readName_agrees target.label target.target
  | assign target value =>
    exact .andThen (expressions _ _ value) fun _ => assignName_agrees target _
  | call head values place =>
    have runs (body body' : List (Stmt Nat)) (agree : Stmt.AgreesAll variation.links body body') :
        (executeAll (execute steps) body).Agrees variation Eq
          (executeAll (execute steps) body') :=
      executeAll_agrees statements agree
    exact .andThen (expressions _ _ head) fun callee =>
      .andThen (evaluateAll_agrees expressions values) fun arguments =>
        invoke_agrees runs talks callee arguments place
  | get object name =>
    refine .andThen (expressions _ _ object) fun value => ?_
    cases value with
    | instanceObject ref => exact property_agrees ref name
    | _ => exact .failAt name.place _
  | set object name given =>
    refine .andThen (expressions _ _ object) fun value => ?_
    cases value with
    | instanceObject ref =>
      refine .andThen (expressions _ _ given) fun value => ?_
      rw [name.name]
      exact .andThen (.update fun _ _ agree => agree.setField ref _ value) fun _ => .pure rfl
    | _ => exact .failAt name.place _
  | receiver place labels => exact readName_agrees labels ⟨rfl, place⟩
  | inherited place name labels => exact inheritedMethod_agrees labels place name

/-- Statements that agree do so when they are run, if expressions and statements one level down
do. -/
theorem execute_succ_agrees
    (expressions : ∀ first second, Expr.Agrees variation.links first second →
      (evaluate steps first).Agrees variation Eq (evaluate steps second))
    (statements : ∀ first second, Stmt.Agrees variation.links first second →
      (execute steps first).Agrees variation Eq (execute steps second))
    {first second : Stmt Nat} (agree : first.Agrees variation.links second) :
    (execute (steps + 1) first).Agrees variation Eq (execute (steps + 1) second) := by
  cases agree with
  | expression value => exact .andThen (expressions _ _ value) fun _ => .pure rfl
  | print value =>
    exact .andThen (expressions _ _ value) fun value =>
      .andThen (printValue_agrees value) fun _ => .pure rfl
  | declare names => exact .andThen (declare_agrees names.name _) fun _ => .pure rfl
  | initialise names value =>
    exact .andThen (expressions _ _ value) fun value =>
      .andThen (declare_agrees names.name value) fun _ => .pure rfl
  | block inside => exact inNewFrame_agrees (executeAll_agrees statements inside)
  | choose test chosen =>
    refine .andThen (expressions _ _ test) fun value => ?_
    split
    next => exact statements _ _ chosen
    next => exact .pure rfl
  | chooseElse test chosen otherwise =>
    refine .andThen (expressions _ _ test) fun value => ?_
    split
    next => exact statements _ _ chosen
    next => exact statements _ _ otherwise
  | loop test repeated =>
    exact repeatWhile_agrees (expressions _ _ test) (statements _ _ repeated) steps
  | function made => exact declareFunction_agrees made
  | finish place => exact .pure rfl
  | finishWith place value => exact .andThen (expressions _ _ value) fun _ => .pure rfl
  | plainClass names made =>
    exact .andThen (.pure rfl) fun parent =>
      .andThen (declareClass_agrees names parent made) fun _ => .pure rfl
  | extendingClass names extended made =>
    exact .andThen (parentClass_agrees extended) fun parent =>
      .andThen (declareClass_agrees names parent made) fun _ => .pure rfl

/-- Statements in order only use the console. -/
theorem talks_executeAll (steps : Nat) (statements : List (Stmt Nat)) :
    (executeAll (execute steps) statements).Talks :=
  talks_invariant.executeAll (talks_invariant.all steps).2 statements

/-- Expressions and statements that agree do so when they are run. -/
theorem agrees_all (variation : Variation) (steps : Nat) :
    (∀ first second, Expr.Agrees variation.links first second →
      (evaluate steps first).Agrees variation Eq (evaluate steps second)) ∧
    ∀ first second, Stmt.Agrees variation.links first second →
      (execute steps first).Agrees variation Eq (execute steps second) := by
  induction steps with
  | zero =>
    exact ⟨fun _ _ _ => .stop (.suspended .steps), fun _ _ _ => .stop (.suspended .steps)⟩
  | succ steps ih =>
    exact ⟨fun _ _ agree => evaluate_succ_agrees ih.1 ih.2 (talks_executeAll steps) agree,
      fun _ _ agree => execute_succ_agrees ih.1 ih.2 agree⟩

/-- Programs that agree do so when they are run. -/
theorem program_agrees (variation : Variation) (steps : Nat) {first second : List (Stmt Nat)}
    (agree : Stmt.AgreesAll variation.links first second) :
    (executeAll (execute steps) first).Agrees variation Eq
      (executeAll (execute steps) second) :=
  executeAll_agrees (agrees_all variation steps).2 agree

end

end Evaluation

end KoreanLox
