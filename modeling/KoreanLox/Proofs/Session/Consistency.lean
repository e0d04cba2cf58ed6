import KoreanLox.Proofs.Evaluation.Placement
import KoreanLox.Proofs.Grammar.Joining
import KoreanLox.Proofs.Session.CallDepth

/-!
# Sessions and the programs they accepted

A session is consistent with the programs that it accepted so far: these are well scoped with the
recorded distances, also with those that later units add, and every function and method in the
store was made where resolving one of them visited it. A session is consistent after every unit,
however the unit ends (`Session.consistent_runAll`).
-/

namespace KoreanLox

open Run Evaluation

/-- After entries are added to a table, the last one of a label counts, and else the table. -/
theorem getElem?_insertMany_distances (table : Std.TreeMap Nat Nat) (entries : List (Nat × Nat))
    (label : Nat) :
    (table.insertMany entries)[label]? = (entries.reverse.lookup label).or table[label]? := by
  induction entries generalizing table with
  | nil => simp
  | cons entry rest ih =>
    obtain ⟨key, distance⟩ := entry
    rw [Std.TreeMap.insertMany_cons, ih, List.reverse_cons, List.lookup_append, Option.or_assoc,
      Std.TreeMap.getElem?_insert]
    by_cases same : key = label
    · simp [same]
    · have other : ¬ label = key := fun equal => same equal.symm
      simp [same, other]

/-- More programs are visited at all sites at which some of them are. -/
theorem Visited.mono {origins further : List (Program Nat)} (more : origins ⊆ further) {site : Site}
    {node : Node} (visited : Visited origins site node) : Visited further site node := by
  obtain ⟨program, listed, visits⟩ := visited
  exact ⟨program, more listed, visits⟩

/-- More programs are visited at all functions at which some of them are. -/
theorem Closure.VisitedAt.mono {origins further : List (Program Nat)} (more : origins ⊆ further)
    {closure : Closure} {context : Context} {scopes : Scopes}
    (visited : closure.VisitedAt origins context scopes) :
    closure.VisitedAt further context scopes :=
  ⟨visited.visited.mono more, visited.kind⟩

/-- A store stays sound when more programs are accepted. -/
theorem Store.Sound.mono {store : Store} {origins further : List (Program Nat)}
    (sound : store.Sound origins) (more : origins ⊆ further) : store.Sound further where
  root := sound.root
  function := by
    intro ref closure found
    obtain ⟨context, scopes, visited, hosts⟩ := sound.function ref closure found
    exact ⟨context, scopes, visited.mono more, hosts⟩
  method := by
    intro ref object name method found listed
    obtain ⟨context, scopes, visited, hosts⟩ := sound.method ref object name method found listed
    exact ⟨context, scopes, visited.mono more, hosts⟩

/-- More labels may be known. -/
theorem Likeness.itself_widens {known more : Nat → Prop}
    (further : ∀ label, known label → more label) :
    (Likeness.itself more).Widens (.itself known) where
  place := fun _ _ same => same
  allowed := fun _ ordinary => ordinary
  known := by
    intro label ⟨distance, found⟩
    exact ⟨distance, further label found⟩

/-- Programs stay accepted when more labels are known. -/
theorem Accepted.mono {table : Nat → Option Nat} {known more : Nat → Prop}
    {origins : List (Program Nat)} (accepted : Accepted table known origins)
    (further : ∀ label, known label → more label) : Accepted table more origins := by
  intro program listed
  obtain ⟨resolved, marks, alike⟩ := accepted program listed
  exact ⟨resolved, [], alike.widen (Likeness.itself_widens further) rfl Likeness.unmarked_nil⟩

namespace Session

/-- The recorded distance of a label. -/
def distance? (session : Session) (label : Nat) : Option Nat := session.machine.distances[label]?

/-- A session is consistent with the programs that it accepted. -/
structure Consistent (session : Session) (origins : List (Program Nat)) : Prop where
  /-- It stands in the global frame with no call in progress. -/
  rest : session.AtRest
  /-- Distances are recorded for labels that were used only. -/
  recorded : ∀ label, session.nextLabel ≤ label → session.distance? label = none
  /-- The programs are accepted with all tables that have the recorded distances. -/
  accepted : ∀ table, (∀ label < session.nextLabel, table label = session.distance? label) →
    Accepted table (· < session.nextLabel) origins
  /-- The functions and methods come from the programs. -/
  sound : session.machine.store.Sound origins

/-- A session that has run no unit is consistent. -/
theorem consistent_start (console : Console) : (start console).Consistent [] where
  rest := ⟨rfl, rfl⟩
  recorded := fun label _ => by simp [distance?, start]
  accepted := by simp [Accepted]
  sound := by
    have begun : Store.empty.Sound [] :=
      ⟨⟨{}, rfl⟩, by simp [Store.empty, Store.function?], by simp [Store.empty, Store.class?]⟩
    have ordinary : ∀ binding ∈ nativeBindings, Ordinary binding.1 := by
      unfold Ordinary
      decide
    exact (begun.leads_defineAll Store.globals ordinary).sound

section

variable {session loaded : Session} {origins : List (Program Nat)} {source : String}
  {program : Program Nat}

/-- Loading a unit keeps the recorded distances of all labels that were used before. -/
theorem Consistent.distance?_load (accepted : session.load source = .ok (program, loaded)) :
    session.nextLabel ≤ loaded.nextLabel ∧
      ∀ label < session.nextLabel, loaded.distance? label = session.distance? label := by
  obtain ⟨distances, next, read, resolved, rfl⟩ := load_eq_ok.mp accepted
  have fresh := Program.fresh_of_labelled read
  obtain ⟨within, -⟩ := Program.resolved_of_resolve fresh.nodup resolved
  refine ⟨fresh.le, fun label old => ?_⟩
  have missing := lookup_reverse_eq_none within fun used =>
    Nat.not_le_of_lt old (fresh.above label used)
  change (session.machine.distances.insertMany distances)[label]? = _
  rw [getElem?_insertMany_distances, missing, Option.none_or]
  rfl

/-- A consistent session is consistent with its programs when some labels are drawn. -/
theorem Consistent.draw (consistent : session.Consistent origins) (count : Nat) :
    (session.draw count).Consistent origins where
  rest := consistent.rest
  recorded := fun label unused => consistent.recorded label (Nat.le_of_add_right_le unused)
  accepted := by
    intro table same
    have before :=
      consistent.accepted table fun label old => same label (Nat.lt_add_right count old)
    exact before.mono fun label old => Nat.lt_add_right count old
  sound := consistent.sound

/-- A session that loads a unit is consistent with its program too. -/
theorem Consistent.load (consistent : session.Consistent origins)
    (accepted : session.load source = .ok (program, loaded)) :
    loaded.Consistent (origins ++ [program]) := by
  obtain ⟨grown, kept⟩ := Consistent.distance?_load accepted
  obtain ⟨distances, next, read, resolved, rfl⟩ := load_eq_ok.mp accepted
  have fresh := Program.fresh_of_labelled read
  obtain ⟨within, settled⟩ := Program.resolved_of_resolve fresh.nodup resolved
  refine ⟨consistent.rest, ?_, ?_, consistent.sound.mono (List.subset_append_left _ _)⟩
  · intro label unused
    have missing := lookup_reverse_eq_none within fun used =>
      Nat.not_le_of_lt (fresh.below label used) unused
    change (session.machine.distances.insertMany distances)[label]? = none
    rw [getElem?_insertMany_distances, missing, Option.none_or]
    exact consistent.recorded label (grown.trans unused)
  · intro table same other listed
    rcases List.mem_append.mp listed with listed | listed
    · have before := consistent.accepted table fun label old =>
        (same label (Nat.lt_of_lt_of_le old grown)).trans (kept label old)
      exact before.mono (fun label old => Nat.lt_of_lt_of_le old grown) other listed
    · obtain rfl := List.mem_singleton.mp listed
      constructor
      · refine settled table fun label used => (same label (fresh.below label used)).trans ?_
        change (session.machine.distances.insertMany distances)[label]? = _
        rw [getElem?_insertMany_distances]
        have unused : session.machine.distances[label]? = none := 
          consistent.recorded label (fresh.above label used)
        rw [unused, Option.or_none]
      · have fits : (Likeness.itself (· < next)).Fits (.drawn Eq session.nextLabel next) Ordinary :=
          ⟨fun _ _ same => ⟨same.1, none, same.2.2⟩, fun _ _ placed => placed,
            fun _ ordinary => ordinary⟩
        obtain ⟨agree, tidy⟩ := Program.tidy_of_labelled read fun token _ =>
          show Eq token.span token.span from rfl
        exact ⟨[], agree.alike fits Likeness.unmarked_nil tidy⟩

/-- The beginning of a loaded unit is placed. -/
theorem Consistent.placed (consistent : loaded.Consistent (origins ++ [program])) (steps : Nat) :
    Moment.Placed (origins ++ [program]) ⟨.statements steps program, loaded.machine⟩ where
  sound := consistent.sound
  stands := ⟨.topLevel, [], ⟨program, by simp, .program⟩, consistent.rest.1,
    .topLevel loaded.machine.store loaded.machine.frame⟩

/-- A consistent session is consistent with its programs after a loaded unit has run. -/
theorem Consistent.execute (consistent : loaded.Consistent (origins ++ [program])) (steps : Nat) :
    (loaded.execute steps program).2.Consistent (origins ++ [program]) := by
  have known := consistent.accepted loaded.distance? fun _ _ => rfl
  have leads := ((consistent.placed steps).sustained known).2
  have follows := executeAll_follows steps program loaded.machine
  rw [execute_snd]
  refine ⟨⟨?_, ?_⟩, ?_, ?_, leads.sound⟩
  · exact follows.frame.trans consistent.rest.1
  · exact follows.depth.trans consistent.rest.2
  · intro label unused
    rw [distance?, follows.distances]
    exact consistent.recorded label unused
  · intro table same
    refine consistent.accepted table fun label old => (same label old).trans ?_
    rw [distance?, follows.distances]
    rfl

end

/-- The programs that a session accepts while it runs units. -/
def acceptedIn (session : Session) : List (Nat × String) → List (Program Nat)
  | [] => []
  | (steps, source) :: rest =>
    let later := (session.run steps source).2.acceptedIn rest
    match session.load source with
    | .ok (program, _) => program :: later
    | .error _ => later

/-- A consistent session is consistent with all that it accepts, after every number of units. -/
theorem Consistent.runAll {session : Session} {origins : List (Program Nat)}
    (consistent : session.Consistent origins) (units : List (Nat × String)) :
    (session.runAll units).Consistent (origins ++ session.acceptedIn units) := by
  induction units generalizing session origins with
  | nil => simpa [Session.runAll, acceptedIn] using consistent
  | cons unit rest ih =>
    obtain ⟨steps, source⟩ := unit
    change ((session.run steps source).2.runAll rest).Consistent _
    unfold acceptedIn
    rcases run_cases session steps source with
      ⟨failure, refused, same⟩ | ⟨program, loaded, accepted, same⟩
    · obtain ⟨count, drawn⟩ := session.exists_dismiss_eq_draw source
      rw [refused, same, drawn]
      exact ih (consistent.draw count)
    · rw [accepted, same]
      have after := ih ((consistent.load accepted).execute steps)
      simpa using after

/-- Every session is consistent with the programs that it accepted. -/
theorem consistent_runAll (console : Console) (units : List (Nat × String)) :
    ((start console).runAll units).Consistent ((start console).acceptedIn units) :=
  (consistent_start console).runAll units

end Session

end KoreanLox
