import KoreanLox.Proofs.Evaluation.Provenance
import KoreanLox.Proofs.Session.Consistency
import KoreanLox.Proofs.Session.Growth
import Mathlib.Data.List.Induction

/-!
# The history of a session

The history of a session consists of all moments that its units come to. Whatever units a session
has run, and however they ended, every function, class and bound method in its store comes from this
history, and so does the chain of the frame at each of its moments (`Session.ComesTo.stands`).
-/

namespace KoreanLox

open Run Evaluation

/-- A moment stands where its frame traces a trail, and the stores at it and after it come from a
history. -/
structure Moment.InHistory (moment : Moment) (origins : List (Program Nat))
    (history : Moment → Prop) : Prop where
  /-- The store at the moment comes from the history. -/
  traced : moment.machine.store.Traced origins history
  /-- Its frame traces the trail of what it goes through. -/
  trailed : moment.Trailed origins history
  /-- The store after the moment comes from the history. -/
  after : moment.after.store.Traced origins history

namespace Session

/-- While it runs some units one after the other, a session comes to a moment. -/
def ComesTo (session : Session) (units : List (Nat × String)) (moment : Moment) : Prop :=
  ∃ early steps source late program loaded count,
    units = early ++ (steps, source) :: late ∧
      (session.runAll early).load source = .ok (program, loaded) ∧
        Moment.Reaches ⟨.statements steps program, loaded.machine⟩ count moment

/-- A session comes to the parts of a moment that it comes to. -/
theorem ComesTo.part {session : Session} {units : List (Nat × String)} {moment part : Moment}
    (comes : session.ComesTo units moment) (taken : part ∈ moment.parts) :
    session.ComesTo units part := by
  obtain ⟨early, steps, source, late, program, loaded, count, split, accepted, reached⟩ := comes
  exact ⟨early, steps, source, late, program, loaded, _, split, accepted, .part reached taken⟩

/-- A session comes to the same moments when more units follow. -/
theorem ComesTo.append {session : Session} {units : List (Nat × String)} {moment : Moment}
    (comes : session.ComesTo units moment) (more : List (Nat × String)) :
    session.ComesTo (units ++ more) moment := by
  obtain ⟨early, steps, source, late, program, loaded, count, rfl, accepted, reached⟩ := comes
  exact ⟨early, steps, source, late ++ more, program, loaded, count, by simp, accepted, reached⟩

/-- Units one after the other accept the programs of the first and then those of the others. -/
theorem acceptedIn_append (session : Session) (first second : List (Nat × String)) :
    session.acceptedIn (first ++ second) =
      session.acceptedIn first ++ (session.runAll first).acceptedIn second := by
  induction first generalizing session with
  | nil => rfl
  | cons unit rest ih =>
    obtain ⟨steps, source⟩ := unit
    rw [List.cons_append, acceptedIn, acceptedIn, ih]
    cases session.load source <;> rfl

/-- A unit that is loaded adds its program to those that were accepted. -/
theorem acceptedIn_cons {session loaded : Session} {source : String} {program : Program Nat}
    (accepted : session.load source = .ok (program, loaded)) (steps : Nat)
    (rest : List (Nat × String)) :
    session.acceptedIn ((steps, source) :: rest) =
      program :: (session.run steps source).2.acceptedIn rest := by
  rw [acceptedIn, accepted]

/-- The beginning of a loaded unit stands in the global frame, which traces the trail of the
program. -/
theorem trailed_loaded {session loaded : Session} {origins : List (Program Nat)} {source : String}
    {program : Program Nat} (rest : session.AtRest)
    (accepted : session.load source = .ok (program, loaded)) (steps : Nat)
    (history : Moment → Prop) :
    Moment.Trailed ⟨.statements steps program, loaded.machine⟩ (origins ++ [program]) history := by
  have global : loaded.machine.frame = Store.globals := by
    rw [load_machine accepted]
    exact rest.1
  have traces : loaded.machine.store.Traces history loaded.machine.frame [] := by
    rw [global]
    exact .globals
  have listed : program ∈ origins ++ [program] := List.mem_append_right _ List.mem_cons_self
  refine .of_nodes rfl listed (fun node inside => ?_) traces
  obtain rfl := List.mem_singleton.mp inside
  exact .program

section

variable {console : Console} {early : List (Nat × String)} {steps : Nat} {source : String}
  {program : Program Nat} {loaded : Session}

/-- Every moment of a unit stands in the history, if the store before the unit comes from it. -/
theorem inHistory_of_reaches
    (before : ((start console).runAll early).machine.store.Traced ((start console).acceptedIn early)
      ((start console).ComesTo early))
    (accepted : ((start console).runAll early).load source = .ok (program, loaded)) {count : Nat}
    {moment : Moment}
    (reached : Moment.Reaches ⟨.statements steps program, loaded.machine⟩ count moment) :
    moment.InHistory ((start console).acceptedIn early ++ [program])
      ((start console).ComesTo (early ++ [(steps, source)])) := by
  have consistent := (consistent_runAll console early).load accepted
  have resolved := consistent.accepted loaded.distance? fun _ _ => rfl
  have placed := consistent.placed steps
  have comes : (start console).ComesTo (early ++ [(steps, source)])
      ⟨.statements steps program, loaded.machine⟩ :=
    ⟨early, steps, source, [], program, loaded, 0, rfl, accepted, .start⟩
  have begun : loaded.machine.store.Traced ((start console).acceptedIn early ++ [program])
      ((start console).ComesTo (early ++ [(steps, source)])) := by
    rw [load_machine accepted]
    exact before.mono (List.subset_append_left _ _) fun _ comes => comes.append _
  have trailed : Moment.Trailed ⟨.statements steps program, loaded.machine⟩
      ((start console).acceptedIn early ++ [program])
      ((start console).ComesTo (early ++ [(steps, source)])) :=
    trailed_loaded (atRest_runAll console early) accepted steps _
  have closed (moment : Moment)
      (comes : (start console).ComesTo (early ++ [(steps, source)]) moment)
      (part : Moment) (taken : part ∈ moment.parts) := comes.part taken
  obtain ⟨known, traced, stands⟩ := trailed.of_reaches resolved closed comes placed begun reached
  have sustained := stands.sustained resolved closed moment known
    (placed.of_reaches resolved reached) traced
  exact ⟨traced, stands, sustained.2⟩

end

/-- Whatever units a session has run, its store comes from its history. -/
theorem traced_runAll (console : Console) (units : List (Nat × String)) :
    ((start console).runAll units).machine.store.Traced ((start console).acceptedIn units)
      ((start console).ComesTo units) := by
  induction units using List.reverseRecOn with
  | nil =>
    have functions : (start console).machine.store.functions = #[] :=
      Store.functions_defineAll _ _ _
    have classes : (start console).machine.store.classes = #[] := Store.classes_defineAll _ _ _
    refine ⟨fun ref closure found => ?_, fun ref object found => ?_⟩
    · change (start console).machine.store.functions[ref.index]? = some closure at found
      simp [functions] at found
    · change (start console).machine.store.classes[ref.index]? = some object at found
      simp [classes] at found
  | append_singleton early unit ih =>
    obtain ⟨steps, source⟩ := unit
    have last : (start console).runAll (early ++ [(steps, source)]) =
        (((start console).runAll early).run steps source).2 := by
      simp [runAll, List.foldl_append]
    rw [last, acceptedIn_append]
    rcases run_cases ((start console).runAll early) steps source with
      ⟨failure, refused, same⟩ | ⟨program, loaded, accepted, same⟩
    · rw [same, machine_dismiss]
      exact ih.mono (List.subset_append_left _ _) fun _ comes => comes.append _
    · have begun : Moment.Reaches ⟨.statements steps program, loaded.machine⟩ 0
          ⟨.statements steps program, loaded.machine⟩ := .start
      have ended := (inHistory_of_reaches ih accepted begun).after
      rw [same, execute_snd, acceptedIn_cons accepted]
      exact ended

/-- What is known of a moment that a session comes to while it runs some units. -/
structure Standing (console : Console) (units : List (Nat × String)) (moment : Moment)
    (origins : List (Program Nat)) (history : Moment → Prop) (known : Nat → Prop) : Prop where
  /-- The programs are among those that the session accepts. -/
  accepts : origins ⊆ (start console).acceptedIn units
  /-- The session comes to the moments of the history. -/
  comes : ∀ other, history other → (start console).ComesTo units other
  /-- The recorded distances are those of the programs. -/
  accepted : Accepted (fun label => moment.machine.distances[label]?) known origins
  /-- Resolving the programs visited the task of the moment. -/
  placed : moment.Placed origins
  /-- The moment stands in the history. -/
  inHistory : moment.InHistory origins history
  /-- The moment is grounded. -/
  grounded : moment.Grounded

/-- Every moment that a session comes to stands in its history, in which the session comes to
nothing that is not in its units. -/
theorem ComesTo.stands {console : Console} {units : List (Nat × String)} {moment : Moment}
    (comes : (start console).ComesTo units moment) :
    ∃ origins history known, Standing console units moment origins history known := by
  obtain ⟨early, steps, source, late, program, loaded, count, rfl, accepted, reached⟩ := comes
  have consistent := (consistent_runAll console early).load accepted
  have resolved := consistent.accepted loaded.distance? fun _ _ => rfl
  have begun := grounded_load (grounded_runAll console early) accepted steps
  refine ⟨(start console).acceptedIn early ++ [program],
    (start console).ComesTo (early ++ [(steps, source)]), (· < loaded.nextLabel), ?_⟩
  exact {
    accepts := by
      rw [acceptedIn_append, acceptedIn_cons accepted]
      exact List.append_subset.mpr ⟨List.subset_append_left _ _, by simp⟩
    comes := by
      intro other comes
      have more := comes.append late
      rwa [List.append_assoc] at more
    accepted := by
      rw [reached.distances_eq]
      exact resolved
    placed := (consistent.placed steps).of_reaches resolved reached
    inHistory := inHistory_of_reaches (traced_runAll console early) accepted reached
    grounded := begun.of_reaches reached }

/-- The store at a moment that a session comes to comes from all that it comes to, and it is
grounded. -/
theorem ComesTo.traced {console : Console} {units : List (Nat × String)} {moment : Moment}
    (comes : (start console).ComesTo units moment) :
    moment.machine.store.Traced ((start console).acceptedIn units)
        ((start console).ComesTo units) ∧ moment.machine.store.Grounded := by
  obtain ⟨origins, history, known, standing⟩ := comes.stands
  have here := standing.inHistory.traced.mono standing.accepts standing.comes
  exact ⟨here, standing.grounded.machine.store⟩

/-- So does the store after it. -/
theorem ComesTo.traced_after {console : Console} {units : List (Nat × String)} {moment : Moment}
    (comes : (start console).ComesTo units moment) :
    moment.after.store.Traced ((start console).acceptedIn units)
        ((start console).ComesTo units) ∧ moment.after.store.Grounded := by
  obtain ⟨origins, history, known, standing⟩ := comes.stands
  have left := standing.inHistory.after.mono standing.accepts standing.comes
  exact ⟨left, standing.grounded.leads.2.store⟩

end Session

end KoreanLox
