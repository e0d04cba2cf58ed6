import KoreanLox.Proofs.Scope.Walk
import KoreanLox.Proofs.Session.Consistency
import KoreanLox.Proofs.Session.Refusal
import Mathlib

/-!
# No two nodes share a label

Labels are drawn as units are read, also for nodes that are dropped and in units that are refused,
and no unit draws one that an earlier unit drew. So no two nodes of the programs that a session
reads share a label, and what a unit records is new: loading it overwrites no distance of an earlier
unit (`Session.Merges`). The table of distances therefore has one entry for every node of an
accepted program whose name is local, at every moment of a session (`Session.labels_never_clash`).
-/

namespace KoreanLox

open Run Evaluation

section

variable {ι : Type}

/-- How many nodes of a program look up a name that a scope around them declares before them. -/
def Program.localCount (program : Program ι) : Nat :=
  program.lookUps.countP fun node => node.distance?.isSome

/-- The table of a well-scoped program has as many entries as there are such nodes. -/
theorem Program.length_table {program : Program ι} {table : List (ι × Nat)}
    (accepted : program.resolve = .ok table) : table.length = program.localCount := by
  have entries (node : LookUp ι) : node.entry?.isSome = node.distance?.isSome := by
    rw [LookUp.entry?, Option.isSome_map]
  calc table.length
      = (program.lookUps.filterMap LookUp.entry?).length :=
        (Program.resolve_perm accepted).length_eq
    _ = program.lookUps.countP fun node => node.entry?.isSome := List.length_filterMap_eq_countP
    _ = program.localCount := by simp only [entries, Program.localCount]

/-- A well-scoped program has no errors. -/
theorem Program.scopeErrors_of_ok {program : Program ι} {table : List (ι × Nat)}
    (accepted : program.resolve = .ok table) : program.scopeErrors = [] := by
  rw [Program.scopeErrors, accepted]

end

/-- How many nodes of the well-scoped ones among some programs look up a local name. -/
def Program.localCountAll (programs : List (Program Nat)) : Nat :=
  ((programs.filter fun program => program.scopeErrors.isEmpty).map Program.localCount).sum

namespace Session

/-! ## What loading a unit records -/

/-- A session comes from another one by recording a table of new distances. -/
structure Merges (session : Session) (table : List (Nat × Nat)) (loaded : Session) : Prop where
  /-- The table has one distance at most for every label. -/
  single : (table.map Prod.fst).Nodup
  /-- No label of the table had a distance. -/
  new : ∀ entry ∈ table, session.distance? entry.1 = none
  /-- All distances of the table are recorded. -/
  recorded : ∀ entry ∈ table, loaded.distance? entry.1 = some entry.2
  /-- All distances that were recorded before are kept. -/
  kept : ∀ label distance, session.distance? label = some distance →
    loaded.distance? label = some distance
  /-- There are as many more distances as the table has. -/
  size : loaded.machine.distances.size = session.machine.distances.size + table.length

/-- Recording a table of distances for labels without one only adds them. -/
theorem merges_record {session : Session} {table : List (Nat × Nat)}
    (single : (table.map Prod.fst).Nodup)
    (new : ∀ entry ∈ table, session.distance? entry.1 = none) (nextLabel : Nat) :
    session.Merges table (session.record table nextLabel) := by
  have absent (label : Nat) (distance : Nat) (old : session.distance? label = some distance) :
      (table.map Prod.fst).contains label = false := by
    refine Bool.eq_false_of_not_eq_true fun listed => ?_
    obtain ⟨entry, present, rfl⟩ := List.mem_map.mp (List.contains_iff_mem.mp listed)
    rw [new entry present] at old
    cases old
  have apart : table.Pairwise fun first second => ¬ compare first.1 second.1 = .eq := by
    have different : table.Pairwise fun first second => first.1 ≠ second.1 :=
      List.pairwise_map.mp single
    refine different.imp fun unequal same => ?_
    exact unequal (Std.LawfulEqCmp.eq_of_compare same)
  refine ⟨single, new, fun entry listed => ?_, fun label distance old => ?_, ?_⟩
  · exact Std.TreeMap.getElem?_insertMany_list_of_mem Std.ReflCmp.compare_self apart listed
  · have same : (session.record table nextLabel).distance? label = session.distance? label :=
      Std.TreeMap.getElem?_insertMany_list_of_contains_eq_false (absent label distance old)
    exact same.trans old
  · refine Std.TreeMap.size_insertMany_list apart fun label present => ?_
    obtain ⟨distance, found⟩ :=
      Option.isSome_iff_exists.mp (Std.TreeMap.mem_iff_isSome_getElem?.mp present)
    exact absent label distance found

/-- Loading a unit merges the table of its program, if only labels that were used have a distance.
-/
theorem merges_load {session loaded : Session} {source : String} {program : Program Nat}
    (unused : ∀ label, session.nextLabel ≤ label → session.distance? label = none)
    (accepted : session.load source = .ok (program, loaded)) :
    ∃ table, program.resolve = .ok table ∧ session.Merges table loaded := by
  obtain ⟨table, next, read, resolved, rfl⟩ := load_eq_ok.mp accepted
  have fresh := Program.fresh_of_labelled read
  obtain ⟨within, -⟩ := Program.resolved_of_resolve fresh.nodup resolved
  refine ⟨table, resolved, merges_record (Program.nodup_table fresh.nodup resolved) ?_ _⟩
  intro entry listed
  exact unused entry.1 (fresh.above entry.1 (within entry listed))

/-! ## The labels of all programs -/

/-- No two nodes of some programs share a label, and all their labels were used by a session. -/
structure Labels (session : Session) (programs : List (Program Nat)) : Prop where
  /-- No label occurs twice. -/
  distinct : (programs.flatMap Program.labels).Nodup
  /-- All labels were used. -/
  below : ∀ label ∈ programs.flatMap Program.labels, label < session.nextLabel

namespace Labels

variable {session : Session} {programs : List (Program Nat)}

/-- More labels may be used. -/
theorem mono (labels : session.Labels programs) {later : Session}
    (most : session.nextLabel ≤ later.nextLabel) : later.Labels programs where
  distinct := labels.distinct
  below := fun label listed => Nat.lt_of_lt_of_le (labels.below label listed) most

/-- A program whose labels are drawn at a session has labels of its own. -/
theorem read (labels : session.Labels programs) {program : Program Nat} {later : Session}
    (fresh : Fresh session.nextLabel later.nextLabel program.labels) :
    later.Labels (programs ++ [program]) := by
  have joined : (programs ++ [program]).flatMap Program.labels =
      programs.flatMap Program.labels ++ program.labels := by
    rw [List.flatMap_append, List.flatMap_singleton]
  constructor
  · rw [joined]
    refine List.Nodup.append labels.distinct fresh.nodup fun label old new => ?_
    exact Nat.not_le_of_lt (labels.below label old) (fresh.above label new)
  · rw [joined]
    refine List.forall_mem_append.mpr ⟨fun label old => ?_, fresh.below⟩
    exact Nat.lt_of_lt_of_le (labels.below label old) fresh.le

/-- A program that a session loads has labels of its own. -/
theorem load {loaded : Session} {source : String} {program : Program Nat}
    (labels : session.Labels programs) (accepted : session.load source = .ok (program, loaded)) :
    loaded.Labels (programs ++ [program]) := by
  obtain ⟨table, next, read, -, rfl⟩ := load_eq_ok.mp accepted
  exact labels.read (Program.fresh_of_labelled read)

/-- The accepted programs of a session have labels of their own. -/
theorem runAll (labels : session.Labels programs) (units : List (Nat × String)) :
    (session.runAll units).Labels (programs ++ session.acceptedIn units) := by
  induction units generalizing session programs with
  | nil => simpa [Session.runAll, acceptedIn] using labels
  | cons unit rest ih =>
    obtain ⟨steps, source⟩ := unit
    show ((session.run steps source).2.runAll rest).Labels _
    unfold acceptedIn
    rcases run_cases session steps source with
      ⟨failure, refused, same⟩ | ⟨program, loaded, accepted, same⟩
    · obtain ⟨count, drawn⟩ := session.exists_dismiss_eq_draw source
      rw [refused, same, drawn]
      exact ih (labels.mono (Nat.le_add_right _ count))
    · have ended : (loaded.execute steps program).2.nextLabel = loaded.nextLabel := by
        rw [execute_snd]
      rw [accepted, same]
      have after := ih ((labels.load accepted).mono (Nat.le_of_eq ended.symm))
      simpa using after

end Labels

/-! ## Units one after the other -/

/-- The program that a unit is read as, well scoped or not, with its labels. A malformed unit is
none. -/
def reading (session : Session) (source : String) : List (Program Nat) :=
  (Program.labelled source session.nextLabel).1.toOption.toList

/-- The programs that a session reads from some units, well scoped or not. -/
def programs : Session → List Submission → List (Program Nat)
  | _, [] => []
  | session, unit :: rest =>
    (session.draw unit.drawn).reading unit.source ++ programs (session.submit unit).2 rest

/-- A session has distances for the local nodes of the programs that it read and accepted, and all
of these have labels of their own. -/
structure Tallies (session : Session) (programs : List (Program Nat)) : Prop where
  /-- No two nodes share a label. -/
  labels : session.Labels programs
  /-- Only labels that were used have a distance. -/
  unused : ∀ label, session.nextLabel ≤ label → session.distance? label = none
  /-- Every node of an accepted program with a local name has its distance. -/
  size : session.machine.distances.size = Program.localCountAll programs

/-- A session that has run no unit has read no program. -/
theorem tallies_start (console : Console) : (start console).Tallies [] where
  labels := ⟨.nil, by simp⟩
  unused := fun label _ => by simp [distance?, start]
  size := rfl

namespace Tallies

variable {session : Session} {programs : List (Program Nat)}

/-- The labels that are drawn have no distance. -/
theorem draw (tallies : session.Tallies programs) (count : Nat) :
    (session.draw count).Tallies programs where
  labels := tallies.labels.mono (Nat.le_add_right _ count)
  unused := fun label high => tallies.unused label (Nat.le_of_add_right_le high)
  size := tallies.size

/-- A program that is not well scoped adds no distances. -/
theorem dismiss (tallies : session.Tallies programs) {program : Program Nat} {next : Nat}
    {errors : List ScopeError} (fresh : Fresh session.nextLabel next program.labels)
    (faulty : program.resolve = .error errors) :
    Tallies { session with nextLabel := next } (programs ++ [program]) where
  labels := tallies.labels.read fresh
  unused := fun label high => tallies.unused label (fresh.le.trans high)
  size := by
    have found : program.scopeErrors.isEmpty = false := by
      refine Bool.eq_false_of_not_eq_true fun none => ?_
      rw [Program.scopeErrors_eq, List.isEmpty_iff] at none
      have accepted := Program.resolve_eq_ok_iff.mpr ⟨none, rfl⟩
      rw [faulty] at accepted
      cases accepted
    have same : Program.localCountAll (programs ++ [program]) =
        Program.localCountAll programs := by
      simp [Program.localCountAll, found]
    rw [same]
    exact tallies.size

/-- A program that is loaded adds the distances of its local nodes. -/
theorem load (tallies : session.Tallies programs) {loaded : Session} {source : String}
    {program : Program Nat} (accepted : session.load source = .ok (program, loaded)) :
    loaded.Tallies (programs ++ [program]) := by
  obtain ⟨table, resolved, merges⟩ := merges_load tallies.unused accepted
  refine ⟨tallies.labels.load accepted, fun label high => ?_, ?_⟩
  · obtain ⟨entries, next, read, found, rfl⟩ := load_eq_ok.mp accepted
    have fresh := Program.fresh_of_labelled read
    obtain ⟨within, -⟩ := Program.resolved_of_resolve fresh.nodup found
    have missing := lookup_reverse_eq_none within fun used =>
      Nat.not_le_of_lt (fresh.below label used) high
    show (session.machine.distances.insertMany entries)[label]? = none
    rw [getElem?_insertMany_distances, missing, Option.none_or]
    exact tallies.unused label (fresh.le.trans high)
  · have counted : Program.localCountAll (programs ++ [program]) =
        Program.localCountAll programs + program.localCount := by
      simp [Program.localCountAll, Program.scopeErrors_of_ok resolved]
    rw [merges.size, counted, tallies.size, Program.length_table resolved]

/-- Running a loaded program changes neither labels nor distances. -/
theorem execute (tallies : session.Tallies programs) (steps : Nat) (program : Program Nat) :
    (session.execute steps program).2.Tallies programs := by
  have follows := executeAll_follows steps program session.machine
  rw [execute_snd]
  refine ⟨tallies.labels.mono (Nat.le_refl _), fun label high => ?_, ?_⟩
  · rw [distance?, follows.distances]
    exact tallies.unused label high
  · show Std.TreeMap.size _ = _
    rw [follows.distances]
    exact tallies.size

/-- A session tallies with the program of a unit too after the unit, however it ends. -/
theorem run (tallies : session.Tallies programs) (steps : Nat) (source : String) :
    (session.run steps source).2.Tallies (programs ++ session.reading source) := by
  rcases session.load_cases source with
    ⟨errors, next, read, refused⟩ | ⟨program, next, errors, read, resolved, refused⟩ |
    ⟨program, next, table, read, resolved, accepted⟩
  · obtain ⟨count, drawn⟩ := session.exists_dismiss_eq_draw source
    have same :
        session.run steps source = (.failed (.malformed errors), session.dismiss source) := by
      rw [Session.run, refused]
    have none : session.reading source = [] := by
      rw [Session.reading, read]
      rfl
    rw [same, drawn, none, List.append_nil]
    exact tallies.draw count
  · have same :
        session.run steps source = (.failed (.illScoped errors), session.dismiss source) := by
      rw [Session.run, refused]
    have left := tallies.dismiss (Program.fresh_of_labelled read) resolved
    rw [same, Session.reading, Session.dismiss, read]
    exact left
  · have same : session.run steps source =
        (session.record table next).execute steps program := by
      rw [Session.run, accepted]
    rw [same, Session.reading, read]
    exact (tallies.load accepted).execute steps program

/-- A session tallies with the programs of all units after them. -/
theorem after (tallies : session.Tallies programs) (units : List Submission) :
    (session.after units).Tallies (programs ++ session.programs units) := by
  induction units generalizing session programs with
  | nil => simpa [Session.after, Session.programs] using tallies
  | cons unit rest ih =>
    have submitted := (tallies.draw unit.drawn).run unit.steps unit.source
    have later := ih submitted
    rw [List.append_assoc] at later
    exact later

end Tallies

/-- A unit after some others is read at the session that they leave. -/
theorem programs_append_singleton (session : Session) (units : List Submission)
    (unit : Submission) :
    session.programs (units ++ [unit]) =
      session.programs units ++ ((session.after units).draw unit.drawn).reading unit.source := by
  induction units generalizing session with
  | nil => simp [Session.programs, Session.after]
  | cons first rest ih =>
    have later := ih (session.submit first).2
    show _ ++ programs _ (rest ++ [unit]) = _ ++ programs _ rest ++ _
    rw [later, List.append_assoc]
    rfl

/-- A unit that is loaded is read as the program that runs. -/
theorem reading_of_load {session loaded : Session} {source : String} {program : Program Nat}
    (accepted : session.load source = .ok (program, loaded)) :
    session.reading source = [program] := by
  obtain ⟨table, next, read, -, -⟩ := load_eq_ok.mp accepted
  rw [reading, read]
  rfl

/-- No two nodes of all programs that a session reads share a label, whether the programs are well
scoped or not and whatever labels are drawn for something else between them; all of these are below
the next label. The table of distances has one entry for every node of a well-scoped one among them
whose name is local, also if the program failed when it ran. A unit that is loaded merges its table:
no label of it had a distance, and all distances of earlier units are kept. The sizes are the same
at all moments of its run. -/
theorem labels_never_clash (console : Console) (units : List Submission) :
    (((start console).programs units).flatMap Program.labels).Nodup ∧
      (∀ label ∈ ((start console).programs units).flatMap Program.labels,
        label < ((start console).after units).nextLabel) ∧
      ((start console).after units).machine.distances.size =
        Program.localCountAll ((start console).programs units) ∧
      ∀ unit program loaded,
        (((start console).after units).draw unit.drawn).load unit.source = .ok (program, loaded) →
        (start console).programs (units ++ [unit]) = (start console).programs units ++ [program] ∧
          (∃ table, program.resolve = .ok table ∧
            ((start console).after units).Merges table loaded) ∧
          ∀ count moment,
            Moment.Reaches ⟨.statements unit.steps program, loaded.machine⟩ count moment →
            moment.machine.distances.size =
              Program.localCountAll ((start console).programs (units ++ [unit])) := by
  have tallies : ((start console).after units).Tallies ((start console).programs units) :=
    (tallies_start console).after units
  refine ⟨tallies.labels.distinct, tallies.labels.below, tallies.size,
    fun unit program loaded accepted => ?_⟩
  have drawn := tallies.draw unit.drawn
  have listed : (start console).programs (units ++ [unit]) =
      (start console).programs units ++ [program] := by
    rw [programs_append_singleton, reading_of_load accepted]
  obtain ⟨table, resolved, merges⟩ := merges_load drawn.unused accepted
  have kept : ((start console).after units).Merges table loaded :=
    ⟨merges.single, merges.new, merges.recorded, merges.kept, merges.size⟩
  refine ⟨listed, ⟨table, resolved, kept⟩, fun count moment reached => ?_⟩
  rw [reached.distances_eq, listed]
  exact (drawn.load accepted).size

set_option maxRecDepth 8000 in
/-- A unit that is loaded after a function and a unit that is refused merges its table. -/
theorem labels_never_clash_block :
    ∃ program loaded,
      (((start (.ofInput [])).after unitsWithReturn).draw 2).load "{ var a; a = a; }" =
          .ok (program, loaded) ∧
        ∃ table, program.resolve = .ok table ∧
          ((start (.ofInput [])).after unitsWithReturn).Merges table loaded := by
  let session := ((start (.ofInput [])).after unitsWithReturn).draw 2
  have loads : (session.load "{ var a; a = a; }").isOk = true := by cbv
  obtain ⟨program, loaded, accepted⟩ := exists_load_of_isOk loads
  have clash := labels_never_clash (.ofInput []) unitsWithReturn
  exact ⟨program, loaded, accepted,
    (clash.2.2.2 ⟨9, "{ var a; a = a; }", 2⟩ program loaded accepted).2.1⟩

end Session

end KoreanLox
