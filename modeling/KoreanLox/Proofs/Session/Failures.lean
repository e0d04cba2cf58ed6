import KoreanLox.Proofs.Scope.Places
import KoreanLox.Proofs.Session.Consistency

/-!
# The places of failures

Functions and classes outlive the units that declared them, and fail in later ones. Every node that
a run comes to was nevertheless visited in a program that was accepted, so that a failure at a place
of the node is at a token of one of the units. Only printing fails at no place
(`Session.failure_points_into_source`).
-/

namespace KoreanLox

open Run Evaluation

namespace Moment

variable {known : Span → Prop} {table : Nat → Option Nat} {labels : Nat → Prop}
  {origins : List (Program Nat)}

/-- A value or a statement that is placed fails on its own at the places of some programs. -/
theorem Placed.known_of_isAt (located : ∀ origin ∈ origins, origin.Located known) {moment : Moment}
    (placed : moment.Placed origins)
    (other : ∀ steps closure arguments closing, moment.task ≠ .call steps closure arguments closing)
    {error : RuntimeError} (fails : error.IsAt moment.task.spans) :
    ∃ place, known place ∧ error.span = some place := by
  obtain ⟨place, listed, same⟩ := fails
  refine ⟨place, ?_, same⟩
  obtain ⟨task, machine⟩ := moment
  cases task with
  | value steps expression =>
    obtain ⟨site, ⟨origin, among, visits⟩, -⟩ := placed.stands
    obtain ⟨marks, alike⟩ := visits.located (located origin among)
    exact alike.of_mem_places listed
  | statement steps statement =>
    obtain ⟨context, scopes, ⟨origin, among, visits⟩, -⟩ := placed.stands
    obtain ⟨marks, alike⟩ := visits.located (located origin among)
    exact alike.of_mem_places listed
  | call steps closure arguments closing => exact absurd rfl (other _ _ _ _)
  | values | statements | rounds => simp [Task.spans] at listed

/-- Wherever a failure arises that is not one of printing, it is at a place of some programs: a call
fails at the place of the expression that takes it up. -/
theorem Reaches.known_of_isAt (located : ∀ origin ∈ origins, origin.Located known)
    (accepted : Accepted table labels origins) {steps : Nat} {program : Program Nat}
    {machine : Machine} (placed : Moment.Placed origins ⟨.statements steps program, machine⟩)
    {count : Nat} {moment : Moment}
    (reached : Reaches ⟨.statements steps program, machine⟩ count moment) {error : RuntimeError}
    (fails : error.IsAt moment.task.spans) : ∃ place, known place ∧ error.span = some place := by
  by_cases calls : ∃ steps closure arguments closing,
      moment.task = .call steps closure arguments closing
  · obtain ⟨task, between⟩ := moment
    obtain ⟨fewer, closure, arguments, closing, rfl⟩ := calls
    cases reached with
    | @part count before _ reached taken =>
      obtain ⟨expression, given, -, -, -, same, -, -, -⟩ := exists_expression_of_part taken
      refine (placed.of_reaches accepted reached).known_of_isAt located ?_ ?_
      · rw [same]
        exact nofun
      · rw [same]
        exact fails
  · refine (placed.of_reaches accepted reached).known_of_isAt located ?_ fails
    exact fun fewer closure arguments closing same =>
      calls ⟨fewer, closure, arguments, closing, same⟩

end Moment

namespace Session

/-- A place is that of a token of one of some texts. -/
def HasToken (sources : List String) (place : Span) : Prop :=
  ∃ source ∈ sources, ∃ token ∈ (Scan.ofSource source).tokens, token.span = place

variable {known : Span → Prop}

/-- A program that is loaded has the places of the tokens of its text. -/
theorem located_load {session loaded : Session} {source : String} {program : Program Nat}
    (accepted : session.load source = .ok (program, loaded))
    (tokens : ∀ token ∈ (Scan.ofSource source).tokens, known token.span) :
    program.Located known := by
  obtain ⟨distances, next, read, -, -⟩ := load_eq_ok.mp accepted
  exact Program.located_of_labelled read tokens

/-- The programs that a session accepts have the places of the tokens of its units. -/
theorem located_acceptedIn (session : Session) {units : List (Nat × String)}
    (tokens : ∀ unit ∈ units, ∀ token ∈ (Scan.ofSource unit.2).tokens, known token.span) :
    ∀ program ∈ session.acceptedIn units, program.Located known := by
  induction units generalizing session with
  | nil => simp [acceptedIn]
  | cons unit rest ih =>
    obtain ⟨steps, source⟩ := unit
    have later := ih (session.run steps source).2 fun unit listed =>
      tokens unit (List.mem_cons_of_mem _ listed)
    unfold acceptedIn
    cases accepted : session.load source with
    | error failure => exact later
    | ok result =>
      obtain ⟨program, loaded⟩ := result
      intro other listed
      rcases List.mem_cons.mp listed with rfl | listed
      · exact located_load accepted (tokens (steps, source) List.mem_cons_self)
      · exact later other listed

/-- The region of zeros that stands for no place. -/
def nowhere : Span := ⟨⟨0, 0⟩, ⟨0, 0⟩⟩

/-- A unit comes to a statement that prints, and printing fails. -/
def FailsPrinting (session : Session) (steps : Nat) (source : String) (error : RuntimeError) :
    Prop :=
  ∃ program loaded count moment, session.load source = .ok (program, loaded) ∧
    Moment.Reaches ⟨.statements steps program, loaded.machine⟩ count moment ∧
      moment.FailsPrinting error

/-- A unit that fails while it runs was loaded and comes to a moment at which the failure
arises. -/
theorem exists_origin_of_failed {session : Session} {steps : Nat} {source : String}
    {error : RuntimeError} (failed : (session.run steps source).1 = .failed (.failed error)) :
    ∃ program loaded count moment, session.load source = .ok (program, loaded) ∧
      Moment.Reaches ⟨.statements steps program, loaded.machine⟩ count moment ∧
        moment.Originates error := by
  rcases run_cases session steps source with
    ⟨failure, refused, same⟩ | ⟨program, loaded, accepted, same⟩
  · rw [same] at failed
    rcases session.load_cases source with
      ⟨errors, next, -, loads⟩ | ⟨_, next, errors, -, -, loads⟩ | ⟨_, next, table, -, -, loads⟩
    · cases refused.symm.trans loads
      cases failed
    · cases refused.symm.trans loads
      cases failed
    · cases refused.symm.trans loads
  · rw [same, execute_fst_eq_failed, ← Moment.stopOf_eq_some] at failed
    obtain ⟨count, last, reached, origin⟩ :=
      Moment.exists_origin_of_failure ⟨.statements steps program, loaded.machine⟩ error failed
    exact ⟨program, loaded, count, last, accepted, reached, origin⟩

/-- Failures of a running program point into the source. Whatever units a session has run, a
failure of the next one has no place exactly if the unit comes to a statement that prints and the
console fails there. Every other failure, also one of the console while a line is read, is at the
place of a token that scanning finds in one of the units so far, on its first line or below, and
so never nowhere. -/
theorem failure_points_into_source (console : Console) (units : List (Nat × String)) (steps : Nat)
    (source : String) (error : RuntimeError)
    (failed : (((start console).runAll units).run steps source).1 = .failed (.failed error)) :
    (error.span = none ↔ ((start console).runAll units).FailsPrinting steps source error) ∧
      (∀ place, error.span = some place →
        HasToken (units.map Prod.snd ++ [source]) place ∧ 1 ≤ place.line ∧ place ≠ nowhere) := by
  obtain ⟨program, loaded, count, moment, accepted, reached, origin⟩ :=
    exists_origin_of_failed failed
  have consistent := (consistent_runAll console units).load accepted
  have resolved := consistent.accepted loaded.distance? fun _ _ => rfl
  have located : ∀ origin ∈ (start console).acceptedIn units ++ [program],
      origin.Located (HasToken (units.map Prod.snd ++ [source])) := by
    intro other listed
    rcases List.mem_append.mp listed with listed | listed
    · refine located_acceptedIn _ (fun unit among token found => ?_) other listed
      exact ⟨unit.2, List.mem_append_left _ (List.mem_map_of_mem among), token, found, rfl⟩
    · obtain rfl := List.mem_singleton.mp listed
      refine located_load accepted fun token found => ?_
      exact ⟨source, List.mem_append_right _ List.mem_cons_self, token, found, rfl⟩
  have lined (place : Span) (token : HasToken (units.map Prod.snd ++ [source]) place) :
      1 ≤ place.line := by
    obtain ⟨text, -, token, found, rfl⟩ := token
    exact Scan.one_le_line text found
  have placed := consistent.placed steps
  rcases origin with fails | printing
  · obtain ⟨place, known, same⟩ := reached.known_of_isAt located resolved placed fails
    refine ⟨⟨fun none => ?_, ?_⟩, fun other also => ?_⟩
    · rw [same] at none
      cases none
    · rintro ⟨-, -, -, -, -, -, -, -, -, -, -, -, -, -, rfl⟩
      rfl
    · obtain rfl : place = other := Option.some.inj (same.symm.trans also)
      refine ⟨known, lined place known, ?_⟩
      rintro rfl
      exact absurd (lined _ known) (by decide)
  · obtain ⟨-, -, -, -, problem, -, -, -, rfl⟩ := id printing
    exact ⟨⟨fun _ => ⟨program, loaded, count, moment, accepted, reached, printing⟩, fun _ => rfl⟩,
      nofun⟩

/-- The place of the failure of a running program. -/
def placeOf : Outcome → Option Span
  | .failed (.failed error) => error.span
  | _ => none

/-- A function that an earlier unit declared reads an undefined name, and that is where a call of it
fails. -/
theorem failure_points_into_source_of_declaration :
    ∃ error, (((start (.ofInput [])).runAll [(9, "fun f() { return x; }")]).run 9 "f();").1 =
        .failed (.failed error) ∧
      error.span = some ⟨⟨1, 18⟩, ⟨1, 18⟩⟩ ∧
        HasToken ["fun f() { return x; }", "f();"] ⟨⟨1, 18⟩, ⟨1, 18⟩⟩ := by
  have placed : placeOf (((start (.ofInput [])).runAll [(9, "fun f() { return x; }")]).run 9
      "f();").1 = some ⟨⟨1, 18⟩, ⟨1, 18⟩⟩ := by decide +kernel
  cases ended : (((start (.ofInput [])).runAll [(9, "fun f() { return x; }")]).run 9 "f();").1 with
  | failed failure =>
    rw [ended] at placed
    cases failure with
    | failed error =>
      have points := failure_points_into_source (.ofInput []) _ 9 _ error ended
      exact ⟨error, rfl, placed, (points.2 _ placed).1⟩
    | malformed | illScoped => cases placed
  | completed | suspended | trapped =>
    rw [ended] at placed
    cases placed

end Session

end KoreanLox
