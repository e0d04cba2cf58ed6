import KoreanLox.Proofs.Evaluation.Inheritance
import KoreanLox.Proofs.Session.Provenance
import Mathlib.Data.List.Chain

/-!
# Bound methods stay bound

The stores that a session comes through keep, one after the other, what frames know of receivers and
superclasses. So the frame that was made to bind a method to an instance never binds another
receiver, whatever is bound before or after it (`Session.ComesTo.receiver_eq`).
-/

namespace KoreanLox

open Run Evaluation

/-- Keeping what there was is transitive. -/
instance : Trans Store.Keeps Store.Keeps Store.Keeps := ⟨Store.Keeps.trans⟩

namespace Moment

/-! ## The stores of a task -/

/-- All that a moment does itself keeps what there is. -/
theorem keeps_of_changes {moment : Moment} {before after : Store}
    (changes : Relation.ReflTransGen moment.Does before after) : before.Keeps after := by
  induction changes with
  | refl => exact .refl before
  | tail _ does ih => exact ih.trans does.keeps

/-- Tasks one after the other come through stores that keep what there was, if each of them
does. -/
theorem Moves.isChain_keeps {moment : Moment} {before last : Store} {parts : List Moment}
    (moves : Moves moment.Does before parts last)
    (each : ∀ part ∈ parts, (part.instants.map Machine.store).IsChain Store.Keeps) :
    (before :: ((parts.flatMap instants).map Machine.store ++ [last])).IsChain Store.Keeps := by
  induction moves with
  | finish changes => simpa using keeps_of_changes changes
  | @take before last part rest changes _ ih =>
    have inside := each part List.mem_cons_self
    have further := ih fun other listed => each other (List.mem_cons_of_mem _ listed)
    rw [instants_eq] at inside
    simp only [List.map_append, List.map_cons, List.map_nil] at inside
    have joined := List.isChain_split.mpr ⟨inside, further⟩
    rw [List.flatMap_cons, instants_eq]
    simpa using ⟨keeps_of_changes changes, joined⟩

/-- A placed moment comes through stores that keep what there was. -/
theorem Placed.isChain_keeps {table : Nat → Option Nat} {known : Nat → Prop}
    {origins : List (Program Nat)} (accepted : Accepted table known origins) (moment : Moment)
    (placed : moment.Placed origins) :
    (moment.instants.map Machine.store).IsChain Store.Keeps := by
  induction moment using instants.induct with
  | case1 moment ih =>
    obtain ⟨moves, -⟩ := moment.carried (placed.ordinary accepted)
    have standing := (placed.sustained accepted).1
    have chain := moves.isChain_keeps fun part taken => ih ⟨part, taken⟩ (standing part taken)
    rw [instants_eq]
    simpa using chain

/-! ## Binding a method -/

/-- A task that binds a method to an instance comes to where the frame of the bound method binds
the instance. -/
theorem Binds.exists_instant {moment : Moment} {before : Store} {method : Closure}
    {receiver : InstanceRef} (binds : moment.Binds before method receiver) :
    ∃ machine ∈ moment.instants,
      machine.store.own? ⟨before.frames.size⟩ receiverName = some (.instanceObject receiver) := by
  have ended {machine : Machine}
      (result : moment.HasResult (bound method receiver machine)) :
      ∃ later ∈ moment.instants, later.store.own? ⟨machine.store.frames.size⟩ receiverName =
        some (.instanceObject receiver) := by
    refine ⟨moment.after, moment.mem_instants.2, ?_⟩
    rw [result.after]
    exact machine.store.own?_bindMethod method receiver
  obtain ⟨task', machine⟩ := moment
  cases binds with
  | @property steps object name between _ _ task came missing found =>
    obtain rfl : task' = _ := task
    have result := hasResult_get name came
    rw [property_apply, missing, found] at result
    exact ended result
  | @inherited steps keyword name label parent _ _ task came found =>
    obtain rfl : task' = _ := task
    have same := parentAndReceiver_snd label keyword machine
    have result : HasResult ⟨.value (steps + 1) (.inherited keyword name label), machine⟩ _ :=
      hasResult_inherited (Prod.ext came same)
    rw [found] at result
    exact ended result
  | @construction _ _ _ closing ref _ between values method task called given counted found =>
    have calls := CallsClass.intro task called given
    obtain ⟨steps, listed, -⟩ := calls.exists_result
    rw [invocation_initializer steps closing counted found] at listed
    have call := List.mem_of_mem_filter (listed ▸ List.mem_cons_self)
    refine ⟨_, (Reaches.part .start call).instants_subset (mem_instants _).1, ?_⟩
    exact Store.own?_bindMethod _ method _

end Moment

namespace Session

/-! ## The stores of a session -/

/-- The machines of a session begin with its own. -/
theorem exists_instants_eq_cons (session : Session) (units : List (Nat × String)) :
    ∃ rest, session.instants units = session.machine :: rest := by
  cases units with
  | nil => exact ⟨[], rfl⟩
  | cons unit rest => exact ⟨_, rfl⟩

/-- A unit leaves a consistent session consistent with some programs, and on the way it comes
through stores that keep what there was. -/
theorem Consistent.isChain_keeps_run {session : Session} {origins : List (Program Nat)}
    (consistent : session.Consistent origins) (steps : Nat) (source : String) :
    ((session.machine :: session.unitInstants steps source ++
      [(session.run steps source).2.machine]).map Machine.store).IsChain Store.Keeps ∧
        ∃ further, (session.run steps source).2.Consistent further := by
  rcases run_cases session steps source with
    ⟨failure, refused, same⟩ | ⟨program, loaded, accepted, same⟩
  · obtain ⟨count, drawn⟩ := session.exists_dismiss_eq_draw source
    have left := consistent.draw count
    rw [same, unitInstants, refused]
    refine ⟨?_, origins, drawn ▸ left⟩
    simpa [machine_dismiss] using Store.Keeps.refl session.machine.store
  · have ready := consistent.load accepted
    have known := ready.accepted loaded.distance? fun _ _ => rfl
    have inside := (ready.placed steps).isChain_keeps known _
    have store : session.machine.store = loaded.machine.store := by rw [load_machine accepted]
    have entered : session.unitInstants steps source =
        Moment.instants ⟨.statements steps program, loaded.machine⟩ := by
      rw [unitInstants, accepted]
    have enters := Store.Keeps.refl loaded.machine.store
    have leaves : (Moment.after ⟨.statements steps program, loaded.machine⟩).store.Keeps
        (loaded.execute steps program).2.machine.store := by
      rw [execute_snd]
      exact .refl _
    rw [Moment.instants_eq] at inside entered
    rw [same, entered]
    refine ⟨?_, _, ready.execute steps⟩
    simp only [List.map_append, List.map_cons, List.map_nil] at inside ⊢
    simpa [store] using ⟨enters, inside, leaves⟩

/-- A consistent session comes through stores that keep what there was. -/
theorem Consistent.isChain_keeps {session : Session} {origins : List (Program Nat)}
    (consistent : session.Consistent origins) (units : List (Nat × String)) :
    ((session.instants units).map Machine.store).IsChain Store.Keeps := by
  induction units generalizing session origins with
  | nil => exact List.isChain_singleton _
  | cons unit rest ih =>
    obtain ⟨steps, source⟩ := unit
    obtain ⟨unit, further, left⟩ := consistent.isChain_keeps_run steps source
    have others := ih left
    obtain ⟨tail, begins⟩ := (session.run steps source).2.exists_instants_eq_cons rest
    rw [begins] at others
    rw [List.map_append] at unit
    rw [instants, begins, List.map_append]
    exact List.isChain_split.mpr ⟨unit, others⟩

/-- Of two machines that a session comes through while it runs some units, one keeps what there was
at the other. -/
theorem keeps_or_keeps {console : Console} {units : List (Nat × String)} {first second : Machine}
    (one : first ∈ (start console).instants units)
    (other : second ∈ (start console).instants units) :
    first.store.Keeps second.store ∨ second.store.Keeps first.store := by
  have chain := (consistent_start console).isChain_keeps units
  have ordered := chain.pairwise.imp Relation.SymmGen.of_rel
  exact ordered.forall_of_forall (fun store _ => .inl (.refl store)) (List.mem_map_of_mem one)
    (List.mem_map_of_mem other)

/-- The machines of a moment that a session comes to are among its own. -/
theorem ComesTo.instants_subset {console : Console} {units : List (Nat × String)} {moment : Moment}
    (comes : (start console).ComesTo units moment) :
    moment.instants ⊆ (start console).instants units := by
  obtain ⟨early, steps, source, late, program, loaded, count, rfl, accepted, reached⟩ := comes
  exact Session.instants_subset accepted reached late

/-- A frame that was made to bind a method to an instance never binds another receiver. -/
theorem ComesTo.receiver_eq {console : Console} {units : List (Nat × String)}
    {moment binding : Moment} (comes : (start console).ComesTo units moment)
    (known : (start console).ComesTo units binding) {before : Store} {method : Closure}
    {receiver : InstanceRef} (binds : binding.Binds before method receiver) {value : Value}
    (own : moment.machine.store.own? ⟨before.frames.size⟩ receiverName = some value) :
    value = .instanceObject receiver := by
  obtain ⟨machine, listed, made⟩ := binds.exists_instant
  have here := comes.instants_subset moment.mem_instants.1
  have there := known.instants_subset listed
  rcases keeps_or_keeps here there with later | earlier
  · exact Option.some.inj ((later.receiver _ _ own).symm.trans made)
  · exact Option.some.inj (own.symm.trans (earlier.receiver _ _ made))

end Session

end KoreanLox
