import KoreanLox.Evaluation.Failure

/-!
# The machine

A machine is all that a running program can see and change: the store, the console, the recorded
distances of names, the current frame and the number of calls in progress. A run takes a machine
to a value or to a stop, and to a machine again in both cases. A stop is a failure of the program,
or the machine ends the program without one, or it is only for now: more steps, or a line of input,
would let the run go on.
-/

namespace KoreanLox

/-- All that a running program can see and change. -/
structure Machine where
  /-- The objects made so far. -/
  store : Store
  /-- Where the program prints to and reads from. -/
  console : Console
  /-- How many frames outward a name is found, by the label of the node that looks it up. -/
  distances : Std.TreeMap Nat Nat
  /-- The current frame. -/
  frame : FrameRef
  /-- The number of calls of functions of the program that are in progress. -/
  depth : Nat

/-- What a run that stopped for now would need to go on. -/
inductive Need where
  /-- More steps. -/
  | steps
  /-- A line of input. -/
  | line
  deriving DecidableEq, Repr

/-- Why a run stops without a value. -/
inductive Stop where
  /-- The program fails. -/
  | failure (error : RuntimeError)
  /-- The run stops for now. -/
  | suspended (need : Need)
  /-- The machine ends the program, because a difference of positions went below zero. -/
  | trapped

/-- A run of some part of a program. -/
def Run (α : Type) : Type := Machine → Except Stop α × Machine

namespace Run

variable {α β : Type}

/-- Gives a value and changes nothing. -/
@[inline]
def done (value : α) : Run α := fun machine => (.ok value, machine)

/-- Runs one part, and then another with its value unless it stopped. -/
@[inline]
def andThen (first : Run α) (next : α → Run β) : Run β := fun machine =>
  match first machine with
  | (.ok value, machine) => next value machine
  | (.error stop, machine) => (.error stop, machine)

instance : Monad Run where
  pure := done
  bind := andThen

/-- A run that gives a value at once, at a machine. -/
@[simp]
theorem pure_apply (value : α) (machine : Machine) :
    (pure value : Run α) machine = (.ok value, machine) := rfl

/-- A run in sequence, at a machine. -/
theorem bind_apply (first : Run α) (next : α → Run β) (machine : Machine) :
    (first >>= next) machine =
      match first machine with
      | (.ok value, machine) => next value machine
      | (.error stop, machine) => (.error stop, machine) := rfl

/-- Stops. -/
@[inline]
def stop (reason : Stop) : Run α := fun machine => (.error reason, machine)

/-- Stops for now. -/
def suspend (need : Need) : Run α := stop (.suspended need)

/-- Fails at a known place. -/
def failAt (span : Span) (cause : RuntimeCause) : Run α := stop (.failure ⟨cause, some span⟩)

/-- Fails at no known place. -/
def fail (cause : RuntimeCause) : Run α := stop (.failure ⟨cause, none⟩)

/-- Reads something off the store. -/
@[inline]
def inspect (view : Store → α) : Run α := fun machine => (.ok (view machine.store), machine)

/-- A look at the store, at a machine. -/
@[simp]
theorem inspect_apply (view : Store → α) (machine : Machine) :
    inspect view machine = (.ok (view machine.store), machine) := rfl

/-- Changes the store, and gives what the change gives. -/
@[inline]
def change (step : Store → α × Store) : Run α := fun machine =>
  match machine with
  | ⟨store, console, distances, frame, depth⟩ =>
    let (value, store) := step store
    (.ok value, ⟨store, console, distances, frame, depth⟩)

/-- A change of the store, at a machine. -/
@[simp]
theorem change_apply (step : Store → α × Store) (machine : Machine) :
    change step machine =
      (.ok (step machine.store).1, { machine with store := (step machine.store).2 }) := rfl

/-- Changes the store. -/
@[inline]
def update (step : Store → Store) : Run Unit := change fun store => ((), step store)

/-- An update of the store, at a machine. -/
@[simp]
theorem update_apply (step : Store → Store) (machine : Machine) :
    update step machine = (.ok (), { machine with store := step machine.store }) := rfl

/-- The current frame. -/
@[inline]
def currentFrame : Run FrameRef := fun machine => (.ok machine.frame, machine)

/-- Runs in another frame, and comes back to the frame before however the run ends. -/
@[inline]
def within (frame : FrameRef) (run : Run α) : Run α := fun machine =>
  let outer := machine.frame
  let (result, machine) := run { machine with frame }
  (result, { machine with frame := outer })

/-- A run in another frame leaves the current frame as it was. -/
@[simp]
theorem frame_within (frame : FrameRef) (run : Run α) (machine : Machine) :
    (within frame run machine).2.frame = machine.frame := rfl

/-- How many calls may be in progress. -/
def maxDepth : Nat := 1024

/-- Runs as one more call in progress, which ends however the run ends, and fails at a place if
there are too many already. -/
@[inline]
def asCall (span : Span) (run : Run α) : Run α := fun machine =>
  if maxDepth ≤ machine.depth then failAt span .stackOverflow machine
  else
    let (result, after) := run { machine with depth := machine.depth + 1 }
    (result, { after with depth := after.depth - 1 })

/-- A call leaves the number of calls in progress as it was, if what it runs does so. -/
theorem depth_asCall {run : Run α} {machine : Machine} (span : Span)
    (keeps : (run { machine with depth := machine.depth + 1 }).2.depth = machine.depth + 1) :
    (asCall span run machine).2.depth = machine.depth := by
  simp only [asCall]
  split
  next => rfl
  next => rw [keeps, Nat.add_sub_cancel]

/-- Writes a text. -/
def write (text : String) : Run (Except ConsoleError Unit) := fun machine =>
  match machine with
  | ⟨store, console, distances, frame, depth⟩ =>
    let (result, console) := console.write text
    (.ok result, ⟨store, console, distances, frame, depth⟩)

/-- Flushes the output. -/
def flush : Run (Except ConsoleError Unit) := fun machine =>
  (.ok machine.console.flush, machine)

/-- Reads a line, or stops until there is one. -/
def readLine : Run (Except ConsoleError String) := fun machine =>
  match machine with
  | ⟨store, console, distances, frame, depth⟩ =>
    let (read, console) := console.readLine
    let machine := ⟨store, console, distances, frame, depth⟩
    match read with
    | none => suspend .line machine
    | some result => (.ok result, machine)

/-- Takes a reading of the clock. -/
def readClock : Run Float := fun machine =>
  match machine with
  | ⟨store, console, distances, frame, depth⟩ =>
    let (reading, console) := console.readClock
    (.ok reading, ⟨store, console, distances, frame, depth⟩)

/-- The number of positions from one up to before another. Where the other one comes first the
machine ends the program if it checks its arithmetic, and otherwise counts modulo the number of
positions. -/
def lengthBetween (first last : Nat) : Run Nat := fun machine =>
  if first ≤ last then (.ok (last - first), machine)
  else if machine.console.checked then (.error .trapped, machine)
  else (.ok (last + Number.positions - first), machine)

/-- Positions in order are as far apart as they are. -/
theorem lengthBetween_of_le {first last : Nat} (ordered : first ≤ last) (machine : Machine) :
    lengthBetween first last machine = (.ok (last - first), machine) := if_pos ordered

/-- The number of positions between two is told, unless the machine checks its arithmetic. -/
theorem lengthBetween_cases (first last : Nat) (machine : Machine) :
    (∃ length, lengthBetween first last machine = (.ok length, machine)) ∨
      machine.console.checked = true ∧
        lengthBetween first last machine = (.error .trapped, machine) := by
  unfold lengthBetween
  split
  next => exact .inl ⟨_, rfl⟩
  next =>
    split
    next checked => exact .inr ⟨checked, rfl⟩
    next => exact .inl ⟨_, rfl⟩

/-- Goes on with what the console gave, or fails at a place. -/
def orFailAt (span : Span) : Except ConsoleError α → Run α
  | .ok value => done value
  | .error error => failAt span (.console error)

/-- Goes on with what the console gave, or fails at no known place. -/
def orFail : Except ConsoleError α → Run α
  | .ok value => done value
  | .error error => fail (.console error)

end Run

end KoreanLox
