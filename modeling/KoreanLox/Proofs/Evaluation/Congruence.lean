import KoreanLox.Evaluation.Evaluate

/-!
# Congruences of runs

A relation between runs is a congruence if it holds of the runs that give a value and of those that
fail, and of runs in sequence where it holds of their parts; it then holds of all that is made of
these (`Run.Congruence`). With a clause for each thing that is done to arrays it holds of every
native function (`Run.ArrayCongruence.callNative`). So a native function is gone through once, and
not again for every relation between runs.
-/

namespace KoreanLox

namespace Run

/-- A relation between runs is a congruence: it holds of giving a value, of runs in sequence if it
holds of their parts, and of failing for one cause at places that correspond. Only calls of
functions report too many calls, so nothing is asked for that cause. -/
structure Congruence (places : Span → Span → Prop)
    (related : {α : Type} → Run α → Run α → Prop) : Prop where
  /-- Giving a value. -/
  pure : ∀ {α : Type} (value : α), related (Pure.pure value) (Pure.pure value)
  /-- Runs in sequence. -/
  bind : ∀ {α β : Type} {first second : Run α} {next next' : α → Run β},
    related first second → (∀ value, related (next value) (next' value)) →
      related (first >>= next) (second >>= next')
  /-- Failing. -/
  failAt : ∀ {α : Type} {span place : Span} {cause : RuntimeCause}, places span place →
    cause ≠ .stackOverflow → related (Run.failAt span cause : Run α) (Run.failAt place cause)

/-- A congruence that also holds of what is done to arrays, of a reading of the clock, and of
differences of positions. -/
structure ArrayCongruence (places : Span → Span → Prop)
    (related : {α : Type} → Run α → Run α → Prop) : Prop
    extends Congruence places related where
  /-- Looking at elements. -/
  inspect : ∀ {α : Type} (view : Store → α),
    (∀ first second : Store, first.elements = second.elements → view first = view second) →
      related (Run.inspect view) (Run.inspect view)
  /-- Making an array. -/
  addArray : ∀ elements : Array Value, related (Run.change fun store => store.addArray elements)
    (Run.change fun store => store.addArray elements)
  /-- Appending to an array. -/
  push : ∀ (ref : ArrayRef) (value : Value), related (Run.update fun store => store.push ref value)
    (Run.update fun store => store.push ref value)
  /-- Replacing an element. -/
  replace : ∀ (ref : ArrayRef) (position : Nat) (value : Value),
    related (Run.update fun store => store.replace ref position value)
      (Run.update fun store => store.replace ref position value)
  /-- Taking a reading of the clock. -/
  readClock : related Run.readClock Run.readClock
  /-- Taking the difference of two positions. -/
  lengthBetween : ∀ first last : Nat,
    related (Run.lengthBetween first last) (Run.lengthBetween first last)

namespace Congruence

variable {places : Span → Span → Prop} {related : {α : Type} → Run α → Run α → Prop}
  {span place : Span}

/-- Refusing arguments. -/
theorem refuse {α : Type} (holds : Congruence places related) (here : places span place)
    (native : Native) (problem : NativeProblem) :
    related (Evaluation.refuse span native problem : Run α)
      (Evaluation.refuse place native problem) :=
  holds.failAt here nofun

/-- Checking for a string. -/
theorem wantString (holds : Congruence places related) (here : places span place)
    (native : Native) (value : Value) :
    related (Evaluation.wantString span native value)
      (Evaluation.wantString place native value) := by
  cases value with
  | string text => exact holds.pure text
  | _ => exact holds.refuse here native _

/-- Checking for a number. -/
theorem wantNumber (holds : Congruence places related) (here : places span place)
    (native : Native) (value : Value) :
    related (Evaluation.wantNumber span native value)
      (Evaluation.wantNumber place native value) := by
  cases value with
  | number value => exact holds.pure value
  | _ => exact holds.refuse here native _

/-- Checking for an array. -/
theorem wantArray (holds : Congruence places related) (here : places span place)
    (native : Native) (value : Value) :
    related (Evaluation.wantArray span native value)
      (Evaluation.wantArray place native value) := by
  cases value with
  | array ref => exact holds.pure ref
  | _ => exact holds.refuse here native _

/-- Reading an integer. -/
theorem integerOf (holds : Congruence places related) (here : places span place)
    (text : String) :
    related (Evaluation.integerOf span text) (Evaluation.integerOf place text) := by
  unfold Evaluation.integerOf
  split
  next => exact holds.pure _
  next => exact holds.refuse here _ _

/-- Going on with what the console gave. -/
theorem orFailAt {α : Type} (holds : Congruence places related) (here : places span place)
    (result : Except ConsoleError α) :
    related (Run.orFailAt span result) (Run.orFailAt place result) := by
  cases result with
  | ok value => exact holds.pure value
  | error error => exact holds.failAt here nofun

/-- Prompting for a line. -/
theorem promptedLine (holds : Congruence places related) (here : places span place)
    (writes : related (write ">> ") (write ">> ")) (flushes : related flush flush)
    (reads : related readLine readLine) :
    related (Evaluation.promptedLine span) (Evaluation.promptedLine place) :=
  holds.bind writes fun _ => holds.bind (holds.orFailAt here _) fun _ =>
    holds.bind flushes fun _ => holds.bind (holds.orFailAt here _) fun _ =>
      holds.bind reads fun _ => holds.bind (holds.orFailAt here _) fun _ => holds.pure _

/-- Going on with a value, or failing for anything but too many calls. -/
theorem orRefuse {α : Type} (holds : Congruence places related) (here : places span place)
    {result : Except RuntimeCause α}
    (ordinary : ∀ cause, result = .error cause → cause ≠ .stackOverflow) :
    related (Evaluation.orRefuse span result) (Evaluation.orRefuse place result) := by
  cases result with
  | ok value => exact holds.pure value
  | error cause => exact holds.failAt here (ordinary cause rfl)

/-- Checking the number of arguments. -/
theorem checkArity (holds : Congruence places related) (here : places span place)
    (callee : String) (expected : Nat) (arguments : List Value) :
    related (Evaluation.checkArity callee expected arguments span)
      (Evaluation.checkArity callee expected arguments place) := by
  unfold Evaluation.checkArity
  split
  next => exact holds.pure ()
  next => exact holds.failAt here nofun

end Congruence

/-! ## Native functions -/

namespace ArrayCongruence

variable {places : Span → Span → Prop} {related : {α : Type} → Run α → Run α → Prop}
  {span place : Span}

/-- Telling the time. -/
theorem currentTime (holds : ArrayCongruence places related) (here : places span place) :
    related (Evaluation.currentTime span) (Evaluation.currentTime place) := by
  refine holds.bind holds.readClock fun reading => ?_
  split
  next => exact holds.refuse here _ _
  next => exact holds.pure _

/-- Cutting a text. -/
theorem substringOf (holds : ArrayCongruence places related) (here : places span place)
    (text : String) (start finish : Float) :
    related (Evaluation.substringOf span text start finish)
      (Evaluation.substringOf place text start finish) := by
  unfold Evaluation.substringOf
  dsimp only
  split
  next => exact holds.bind (holds.lengthBetween _ _) fun _ => holds.pure _
  next => exact holds.refuse here _ _

/-- Making an array and giving it. -/
theorem newArray (holds : ArrayCongruence places related) (elements : Array Value) :
    related (Evaluation.newArray elements) (Evaluation.newArray elements) :=
  holds.bind (holds.addArray elements) fun _ => holds.pure _

/-- Looking at the length of an array. -/
theorem arrayLength (holds : ArrayCongruence places related) (ref : ArrayRef) :
    related (Run.inspect fun store => store.arrayLength ref)
      (Run.inspect fun store => store.arrayLength ref) :=
  holds.inspect _ fun first second same => by simp only [Store.arrayLength, same]

/-- Reading an element. -/
theorem elementAt (holds : ArrayCongruence places related) (here : places span place)
    (ref : ArrayRef) (index : Float) :
    related (Evaluation.elementAt span ref index) (Evaluation.elementAt place ref index) := by
  refine holds.bind (holds.inspect _ fun first second same => ?_) fun found => ?_
  · simp only [Store.element?, Store.arrayLength, same]
  · obtain ⟨value, length⟩ := found
    cases value with
    | some value => exact holds.pure value
    | none => exact holds.failAt here nofun

/-- Replacing an element at an index. -/
theorem replaceAt (holds : ArrayCongruence places related) (here : places span place)
    (ref : ArrayRef) (index : Float) (value : Value) :
    related (Evaluation.replaceAt span ref index value)
      (Evaluation.replaceAt place ref index value) := by
  refine holds.bind (holds.arrayLength ref) fun length => ?_
  split
  next position _ => exact holds.bind (holds.replace ref position value) fun _ => holds.pure value
  next => exact holds.failAt here nofun

/-- Calling a native function, where it also holds of prompting for a line if that is what is
called. -/
theorem callNative (holds : ArrayCongruence places related) (here : places span place)
    (native : Native) (arguments : List Value)
    (prompts : native = .readInput → arguments = [] →
      related (Evaluation.promptedLine span) (Evaluation.promptedLine place)) :
    related (Evaluation.callNative span native arguments)
      (Evaluation.callNative place native arguments) := by
  have string := holds.wantString here
  have number := holds.wantNumber here
  have array := holds.wantArray here
  unfold Evaluation.callNative
  split
  next => exact holds.currentTime here
  next => exact prompts rfl rfl
  next =>
    exact holds.bind (string _ _) fun _ => holds.bind (string _ _) fun _ => holds.newArray _
  next => exact holds.bind (string _ _) fun _ => holds.pure _
  next =>
    exact holds.bind (string _ _) fun _ => holds.bind (number _ _) fun _ =>
      holds.bind (number _ _) fun _ => holds.substringOf here _ _ _
  next => exact holds.bind (string _ _) fun _ => holds.bind (string _ _) fun _ => holds.pure _
  next => exact holds.bind (string _ _) fun _ => holds.integerOf here _
  next => exact holds.newArray _
  next =>
    exact holds.bind (array _ _) fun ref => holds.bind (holds.arrayLength ref) fun _ =>
      holds.pure _
  next =>
    exact holds.bind (array _ _) fun ref => holds.bind (holds.push ref _) fun _ => holds.pure _
  next =>
    exact holds.bind (array _ _) fun _ => holds.bind (number _ _) fun _ =>
      holds.elementAt here _ _
  next =>
    exact holds.bind (array _ _) fun _ => holds.bind (number _ _) fun _ =>
      holds.replaceAt here _ _ _
  next => exact holds.failAt here nofun

end ArrayCongruence

end Run

end KoreanLox
