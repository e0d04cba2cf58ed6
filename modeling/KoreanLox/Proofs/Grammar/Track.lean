import KoreanLox.Proofs.Grammar.Reading
import Mathlib.Data.List.Forall2

/-!
# Two readings side by side

Two readers run beside each other, on tokens that may differ further on. A track says at which pairs
of token lists both may stand: where they go on, and then they see the same next token, and where
the end of a statement may leave them, and then they only look for an `else` (`Track`). Readers stay
abreast if they come to the same value, or stop for the same cause on the same path, at a pair of
the track, and never run past the last token (`Track.Abreast`). There is one rule for every way to
combine readers, which says what must hold before and what holds after. How many tokens are left is
part of that, so that a loop with enough rounds is a rule like the others (`Abreast.iterate`).
-/

namespace KoreanLox

open Parse

/-! ## Where reading is resumed -/

namespace Parse

variable {tokens : List Token}

/-- Skipping leaves the last ones of some tokens. -/
theorem skipStatement_suffix (inBlock : Bool) (tokens : List Token) :
    skipStatement inBlock tokens <:+ tokens := by
  induction tokens with
  | nil => exact List.suffix_refl []
  | cons token rest ih =>
    unfold skipStatement
    split
    next => exact List.suffix_cons token rest
    next => exact ih.trans (List.suffix_cons token rest)

/-- Skipping drops a token. -/
theorem length_skipStatement_lt (inBlock : Bool) (token : Token) (rest : List Token) :
    (skipStatement inBlock (token :: rest)).length < (token :: rest).length := by
  unfold skipStatement
  split
  next => exact Nat.lt_succ_self rest.length
  next => exact Nat.lt_succ_of_le (skipStatement_suffix inBlock rest).length_le

/-- Reading is resumed at the last ones of some tokens. -/
theorem resume_suffix (inBlock : Bool) (tokens : List Token) :
    resume inBlock tokens <:+ tokens := by
  unfold resume
  split
  next => exact List.suffix_refl tokens
  next => exact skipStatement_suffix inBlock tokens

/-- Skipping need not stop at a token that is neither an end nor a closing brace. -/
theorem atBoundary_eq_false {inBlock : Bool} (going : atEnd tokens = false)
    (other : ¬ Begins (.mark .rightBrace) tokens) : atBoundary inBlock tokens = false := by
  unfold atBoundary
  rw [going]
  split
  next => exact absurd ((begins_cons _ _ _).mpr rfl) other
  next => rfl

/-- Outside of blocks skipping need not stop at any token but an end. -/
theorem atBoundary_outside (tokens : List Token) : atBoundary false tokens = atEnd tokens := by
  unfold atBoundary
  split <;> simp

/-- Where skipping need not stop, reading that stops there or further on is resumed behind a
token. -/
theorem length_resume_lt {inBlock : Bool} {stopped : List Token}
    (within : atBoundary inBlock tokens = false) (left : stopped <:+ tokens) :
    (resume inBlock stopped).length < tokens.length := by
  by_cases same : stopped.length = tokens.length
  · obtain rfl : stopped = tokens := left.eq_of_length same
    cases stopped with
    | nil => simp [atBoundary, atEnd] at within
    | cons token rest =>
      unfold resume
      rw [if_neg (by simp [within])]
      exact length_skipStatement_lt inBlock token rest
  · have fewer := left.length_le
    have beyond := (resume_suffix inBlock stopped).length_le
    omega

end Parse

/-! ## Tracks -/

namespace Kind

/-- Whether a token ends the statement that it stands in. -/
def ends : Kind → Bool
  | .mark .semicolon | .mark .rightBrace => true
  | _ => false

/-- Whether a token can stand inside a statement. -/
def inner : Kind → Bool
  | .endOfFile => false
  | kind => !kind.ends

/-- Whether further statements stand behind a token, inside the same statement. -/
def nests : Kind → Bool
  | .mark .leftBrace | .keyword .forWord => true
  | _ => false

end Kind

/-- Where two readings may stand side by side. -/
structure Track where
  /-- Both readings may go on. -/
  live : List Token → List Token → Prop
  /-- The end of a statement may leave both readings. -/
  done : List Token → List Token → Prop
  /-- Where both go on, they see the same next token. -/
  sees : ∀ {first second : List Token}, live first second → second.head? = first.head?
  /-- Both go on behind a token that can stand inside a statement. -/
  passes : ∀ {token : Token} {first second : List Token},
    live (token :: first) (token :: second) → token.kind.inner = true → live first second
  /-- A token that ends a statement leaves both behind it. -/
  leaves : ∀ {token : Token} {first second : List Token},
    live (token :: first) (token :: second) → token.kind.ends = true → done first second
  /-- Behind a statement neither sees an `else`, or both may go on. -/
  branches : ∀ {first second : List Token}, done first second →
    (¬ Begins (.keyword .elseWord) first ∧ ¬ Begins (.keyword .elseWord) second) ∨
      live first second
  /-- Where statements are nested, both go on behind each of them. -/
  nests : ∀ {token : Token} {first second : List Token},
    live (token :: first) (token :: second) → token.kind.nests = true →
      ∀ {before after : List Token}, done before after → live before after

namespace Track

variable (track : Track)

/-- Both readings go on behind every statement. -/
def Onward : Prop := ∀ first second, track.done first second → track.live first second

/-- Both readings may go on, and the first has fewer than so many tokens left. -/
def Live (bound : Nat) (first second : List Token) : Prop :=
  track.live first second ∧ first.length < bound

/-- A statement has left both readings, the first with fewer than so many tokens. -/
def Done (bound : Nat) (first second : List Token) : Prop :=
  track.done first second ∧ first.length < bound

/-- Both readings may go on, with a certain token next. -/
def At (token : Token) (bound : Nat) (first second : List Token) : Prop :=
  track.Live bound first second ∧ first.head? = some token

/-- Where the step of a loop may leave both readings: with fewer tokens if there is a further
step. -/
def Loop {α σ : Type} (bound : Nat) (post : α → List Token → List Token → Prop) :
    σ ⊕ α → List Token → List Token → Prop
  | .inl _ => track.Live bound
  | .inr value => post value

section

variable {track} {bound more : Nat} {token : Token} {first second : List Token}

/-- A bound on the tokens left may be raised. -/
theorem Live.raise (live : track.Live bound first second) (below : bound ≤ more) :
    track.Live more first second :=
  ⟨live.1, Nat.lt_of_lt_of_le live.2 below⟩

/-- A bound on the tokens left may be raised. -/
theorem Done.raise (done : track.Done bound first second) (below : bound ≤ more) :
    track.Done more first second :=
  ⟨done.1, Nat.lt_of_lt_of_le done.2 below⟩

/-- Where both go on behind statements, they do so with as many tokens left. -/
theorem Onward.live (onward : track.Onward) (done : track.Done bound first second) :
    track.Live bound first second := ⟨onward first second done.1, done.2⟩

/-- Two readings that go on have nothing left, or the same token next. -/
theorem live_cases (live : track.live first second) :
    (first = [] ∧ second = []) ∨
      ∃ token rest rest', first = token :: rest ∧ second = token :: rest' := by
  have same := track.sees live
  cases first with
  | nil => exact .inl ⟨rfl, List.head?_eq_none_iff.mp same⟩
  | cons token rest =>
    obtain ⟨rest', rfl⟩ := List.head?_eq_some_iff.mp same
    exact .inr ⟨token, rest, rest', rfl, rfl⟩

/-- Two readings with a certain token next have it first, and certain tokens behind it. -/
theorem At.exists_cons (seen : track.At token bound first second) :
    ∃ rest rest', first = token :: rest ∧ second = token :: rest' := by
  have next : second.head? = some token := (track.sees seen.1.1).trans seen.2
  obtain ⟨rest, same⟩ := List.head?_eq_some_iff.mp seen.2
  obtain ⟨rest', same'⟩ := List.head?_eq_some_iff.mp next
  exact ⟨rest, rest', same, same'⟩

/-- Both readings see the same kinds of tokens. -/
theorem begins_iff (live : track.live first second) (kind : Kind) :
    Begins kind second ↔ Begins kind first := by
  unfold Begins
  rw [track.sees live]

/-- Both readings are at an end, or neither is. -/
theorem atEnd_eq (live : track.live first second) : atEnd second = atEnd first := by
  obtain ⟨rfl, rfl⟩ | ⟨token, rest, rest', rfl, rfl⟩ := live_cases live
  · rfl
  · obtain ⟨kind, lexeme, span⟩ := token
    cases kind <;> rfl

/-- Skipping has to stop in both readings, or in neither. -/
theorem atBoundary_eq (inBlock : Bool) (live : track.live first second) :
    atBoundary inBlock second = atBoundary inBlock first := by
  unfold atBoundary
  rw [atEnd_eq live]
  obtain ⟨rfl, rfl⟩ | ⟨token, rest, rest', rfl, rfl⟩ := live_cases live
  · rfl
  · obtain ⟨kind, lexeme, span⟩ := token
    cases kind with
    | mark symbol => cases symbol <;> rfl
    | _ => rfl

/-- Both readings are at the beginning of a statement, or neither is. -/
theorem startsStatement_eq (live : track.live first second) :
    startsStatement second = startsStatement first := by
  obtain ⟨rfl, rfl⟩ | ⟨token, rest, rest', rfl, rfl⟩ := live_cases live
  · rfl
  · obtain ⟨kind, lexeme, span⟩ := token
    cases kind <;> rfl

/-- Where both go on behind every statement, they go on behind every token but an end. -/
theorem Onward.behind {rest rest' : List Token} (onward : track.Onward)
    (live : track.live (token :: rest) (token :: rest')) (other : token.kind ≠ .endOfFile) :
    track.live rest rest' := by
  cases told : token.kind.ends with
  | true => exact onward rest rest' (track.leaves live told)
  | false =>
    have inner : token.kind.inner = true := by
      cases kind : token.kind <;> simp_all [Kind.inner]
    exact track.passes live inner

/-- Where both go on behind every statement, skipping leaves both where they go on. -/
theorem Onward.skipStatement {inBlock : Bool} {rest rest' : List Token} (onward : track.Onward)
    (live : track.live (token :: rest) (token :: rest')) (other : token.kind ≠ .endOfFile) :
    track.live (skipStatement inBlock (token :: rest))
      (skipStatement inBlock (token :: rest')) := by
  induction rest generalizing token rest' with
  | nil =>
    have behind := onward.behind live other
    obtain rfl : rest' = [] := List.head?_eq_none_iff.mp (track.sees behind)
    simpa [Parse.skipStatement, atBoundary, atEnd] using behind
  | cons next rest ih =>
    have behind := onward.behind live other
    unfold Parse.skipStatement
    rw [atBoundary_eq inBlock behind, startsStatement_eq behind]
    split
    next => exact behind
    next going =>
      obtain ⟨rest', rfl⟩ := List.head?_eq_some_iff.mp (track.sees behind)
      refine ih behind fun ended => going ?_
      obtain ⟨kind, lexeme, span⟩ := next
      obtain rfl : kind = .endOfFile := ended
      simp [atBoundary, atEnd]

/-- Where both go on behind every statement, they go on wherever reading is resumed. -/
theorem Onward.resume {inBlock : Bool} (onward : track.Onward) (live : track.live first second) :
    track.live (resume inBlock first) (resume inBlock second) := by
  unfold Parse.resume
  rw [atBoundary_eq inBlock live]
  split
  next => exact live
  next going =>
    obtain ⟨rfl, rfl⟩ | ⟨token, rest, rest', rfl, rfl⟩ := live_cases live
    · exact absurd rfl going
    · refine onward.skipStatement live fun ended => going ?_
      obtain ⟨kind, lexeme, span⟩ := token
      obtain rfl : kind = .endOfFile := ended
      simp [atBoundary, atEnd]

/-- Two readings that see a token of a kind have a certain token of that kind next. -/
theorem Live.exists_at {kind : Kind} (live : track.Live bound first second)
    (begins : Begins kind first) :
    ∃ token, token.kind = kind ∧ track.At token bound first second := by
  obtain ⟨token, next, same⟩ := begins
  exact ⟨token, same, live, next⟩

end

/-! ## What two readings come to -/

/-- Two faults have one cause on one path, at a pair of the track, and no token was missing. -/
structure Faults (first second : Fault) : Prop where
  /-- The grammar wanted the same. -/
  cause : second.cause = first.cause
  /-- The same productions were being read. -/
  path : second.path = first.path
  /-- Nothing was read past the last token. -/
  inRange : first.cause ≠ .overrun
  /-- Both readings stood beside each other. -/
  rest : track.live first.rest second.rest

/-- Two readings leave the last ones of the tokens at which they began. -/
structure Leave (tokens others rest rest' : List Token) : Prop where
  /-- The first one does. -/
  first : rest <:+ tokens
  /-- The second one does. -/
  second : rest' <:+ others

/-- Two readings that take nothing leave all tokens. -/
theorem Leave.refl (tokens others : List Token) : Leave tokens others tokens others :=
  ⟨List.suffix_refl tokens, List.suffix_refl others⟩

/-- Two readings that take a token each leave the others. -/
theorem Leave.cons (token other : Token) (rest rest' : List Token) :
    Leave (token :: rest) (other :: rest') rest rest' :=
  ⟨List.suffix_cons token rest, List.suffix_cons other rest'⟩

/-- What is left behind what is left is left. -/
theorem Leave.trans {tokens others middle middle' rest rest' : List Token}
    (later : Leave middle middle' rest rest') (left : Leave tokens others middle middle') :
    Leave tokens others rest rest' :=
  ⟨later.first.trans left.first, later.second.trans left.second⟩

/-- Two readings that began at some tokens came to one value and left a certain pair, or stopped for
one cause; neither of them went back. -/
inductive Steps {α : Type} (tokens others : List Token)
    (post : α → List Token → List Token → Prop) : RawStep α → RawStep α → Prop where
  | value {reports reports' : List Fault} {value : α} {rest rest' : List Token}
    (reported : List.Forall₂ track.Faults reports reports') (left : Leave tokens others rest rest')
    (after : post value rest rest') :
    Steps tokens others post ⟨reports, .ok (value, rest)⟩ ⟨reports', .ok (value, rest')⟩
  | fault {reports reports' : List Fault} {fault fault' : Fault}
    (reported : List.Forall₂ track.Faults reports reports')
    (left : Leave tokens others fault.rest fault'.rest) (stopped : track.Faults fault fault') :
    Steps tokens others post ⟨reports, .error fault⟩ ⟨reports', .error fault'⟩

/-- Two readings side by side come to the same faults. -/
theorem Steps.faults {α : Type} {tokens others : List Token}
    {post : α → List Token → List Token → Prop} {step step' : RawStep α}
    (steps : track.Steps tokens others post step step') :
    List.Forall₂ track.Faults (Grammar.faults step) (Grammar.faults step') := by
  cases steps with
  | value reported left after => exact reported
  | fault reported left stopped => exact List.rel_append reported (.cons stopped .nil)

/-- Two readers that begin at a certain pair stay side by side and leave a certain pair. -/
def Abreast {α : Type} (pre : List Token → List Token → Prop) (reader other : RawParse α)
    (post : α → List Token → List Token → Prop) : Prop :=
  ∀ path tokens others, pre tokens others →
    track.Steps tokens others post (reader path tokens) (other path others)

namespace Abreast

variable {track} {α β σ : Type} {pre stronger : List Token → List Token → Prop}
  {post weaker : α → List Token → List Token → Prop} {bound : Nat} {token : Token}
  {reader other yes yes' no no' : RawParse α}

/-! ## Rules of a program logic -/

/-- More may be known before. -/
theorem strengthen (abreast : track.Abreast pre reader other post)
    (known : ∀ tokens others, stronger tokens others → pre tokens others) :
    track.Abreast stronger reader other post :=
  fun path tokens others held => abreast path tokens others (known tokens others held)

/-- Less may be wanted after. -/
theorem weaken (abreast : track.Abreast pre reader other post)
    (wanted : ∀ value tokens others, post value tokens others → weaker value tokens others) :
    track.Abreast pre reader other weaker := by
  intro path tokens others held
  have steps := abreast path tokens others held
  generalize reader path tokens = step at steps
  generalize other path others = step' at steps
  cases steps with
  | value reported left after => exact .value reported left (wanted _ _ _ after)
  | fault reported left stopped => exact .fault reported left stopped

/-- Readers that are never begun stay side by side. -/
theorem never (absurd : ∀ tokens others, ¬ pre tokens others) :
    track.Abreast pre reader other post :=
  fun _ tokens others held => False.elim (absurd tokens others held)

/-- No two readings have fewer than no tokens left. -/
theorem live_zero : track.Abreast (track.Live 0) reader other post :=
  never fun _ _ live => Nat.not_lt_zero _ live.2

/-- A bound on the tokens left may be lower than wanted. -/
theorem widen (abreast : track.Abreast (track.Live (bound + 1)) reader other post) :
    track.Abreast (track.Live bound) reader other post :=
  abreast.strengthen fun _ _ live => live.raise (Nat.le_succ bound)

/-- Reading nothing leaves both where they are. -/
theorem pure {value : α} (given : ∀ tokens others, pre tokens others → post value tokens others) :
    track.Abreast pre (Pure.pure value) (Pure.pure value) post :=
  fun _ tokens others held => .value .nil (.refl tokens others) (given tokens others held)

/-- Readers in sequence stay side by side if their parts do. -/
theorem bind {middle : α → List Token → List Token → Prop}
    {late : β → List Token → List Token → Prop} {next next' : α → RawParse β}
    (head : track.Abreast pre reader other middle)
    (tail : ∀ value, track.Abreast (middle value) (next value) (next' value) late) :
    track.Abreast pre (reader >>= next) (other >>= next') late := by
  intro path tokens others held
  have begun := head path tokens others held
  change track.Steps tokens others late (reader.andThen next path tokens)
    (other.andThen next' path others)
  unfold Parse.andThen
  generalize reader path tokens = step at begun
  generalize other path others = step' at begun
  cases begun with
  | fault reported left stopped => exact .fault reported left stopped
  | @value _ _ value rest rest' reported left after =>
    have ended := tail value path rest rest' after
    dsimp only
    generalize next value path rest = last at ended
    generalize next' value path rest' = last' at ended
    cases ended with
    | fault later further stopped =>
      exact .fault (List.rel_append reported later) (further.trans left) stopped
    | value later further after =>
      exact .value (List.rel_append reported later) (further.trans left) after

/-- Reading inside a production is reading on a longer path. -/
theorem inside {production : Production} (abreast : track.Abreast pre reader other post) :
    track.Abreast pre (Parse.inside production reader) (Parse.inside production other) post :=
  fun path tokens others held => abreast (production :: path) tokens others held

/-- Both stop where they stand. -/
theorem stop {cause : FaultCause} (known : cause ≠ .overrun)
    (live : ∀ tokens others, pre tokens others → track.live tokens others) :
    track.Abreast pre (Parse.stop cause) (Parse.stop cause) post :=
  fun _ tokens others held =>
    .fault .nil (.refl tokens others) ⟨rfl, rfl, known, live tokens others held⟩

/-- A report at a pair of the track leaves both where they are. -/
theorem reportAt {cause : FaultCause} {place place' : List Token} (known : cause ≠ .overrun)
    (live : track.live place place') :
    track.Abreast pre (Parse.reportAt cause place) (Parse.reportAt cause place') fun _ => pre :=
  fun _ tokens others held => .value (.cons ⟨rfl, rfl, known, live⟩ .nil) (.refl tokens others) held

/-- What is done with the tokens left is done at these tokens. -/
theorem remaining_bind {next next' : List Token → RawParse α}
    (each : ∀ place place', pre place place' →
      track.Abreast (fun tokens others => tokens = place ∧ others = place') (next place)
        (next' place') post) :
    track.Abreast pre (remaining >>= next) (remaining >>= next') post :=
  fun path tokens others held => each tokens others held path tokens others ⟨rfl, rfl⟩

/-! ## The next token -/

/-- A token that can stand inside a statement is dropped. -/
theorem skip (inner : token.kind.inner = true) :
    track.Abreast (track.At token (bound + 1)) Parse.skip Parse.skip fun _ => track.Live bound := by
  intro path tokens others seen
  obtain ⟨rest, rest', rfl, rfl⟩ := seen.exists_cons
  have fewer : rest.length < bound := Nat.lt_of_succ_lt_succ seen.1.2
  exact .value .nil (.cons token token rest rest') ⟨track.passes seen.1.1 inner, fewer⟩

/-- A token that ends a statement is dropped. -/
theorem leave (ends : token.kind.ends = true) :
    track.Abreast (track.At token (bound + 1)) Parse.skip Parse.skip fun _ => track.Done bound := by
  intro path tokens others seen
  obtain ⟨rest, rest', rfl, rfl⟩ := seen.exists_cons
  have fewer : rest.length < bound := Nat.lt_of_succ_lt_succ seen.1.2
  exact .value .nil (.cons token token rest rest') ⟨track.leaves seen.1.1 ends, fewer⟩

/-- Behind a token that is dropped, both go on. -/
theorem skip_bind {next next' : Unit → RawParse α} (inner : token.kind.inner = true)
    (later : track.Abreast (track.Live bound) (next ()) (next' ()) post) :
    track.Abreast (track.At token (bound + 1)) (Parse.skip >>= next) (Parse.skip >>= next') post :=
  (skip inner).bind fun _ => later

/-- Behind the last token of a statement, both are left. -/
theorem leave_bind {next next' : Unit → RawParse α} (ends : token.kind.ends = true)
    (later : track.Abreast (track.Done bound) (next ()) (next' ()) post) :
    track.Abreast (track.At token (bound + 1)) (Parse.skip >>= next) (Parse.skip >>= next') post :=
  (leave ends).bind fun _ => later

/-- A bound on the tokens left may be lower than wanted. -/
theorem widen_at (abreast : track.Abreast (track.At token (bound + 1)) reader other post) :
    track.Abreast (track.At token bound) reader other post :=
  abreast.strengthen fun _ _ seen => ⟨seen.1.raise (Nat.le_succ bound), seen.2⟩

/-- What is done wherever both go on is done where they see a certain token. -/
theorem anywhere (abreast : track.Abreast (track.Live bound) reader other post) :
    track.Abreast (track.At token bound) reader other post :=
  abreast.strengthen fun _ _ seen => seen.1

/-- Where statements are nested, both go on behind each of them. -/
theorem nested (nests : token.kind.nests = true)
    (abreast : track.Onward → track.Abreast (track.At token bound) reader other post) :
    track.Abreast (track.At token bound) reader other post := by
  intro path tokens others seen
  obtain ⟨rest, rest', rfl, rfl⟩ := seen.exists_cons
  exact abreast (fun _ _ => track.nests seen.1.1 nests) path _ _ seen

/-- Both look at the same next token. -/
theorem peek_bind {next next' : Option Token → RawParse α}
    (none : track.Abreast (track.Live bound) (next none) (next' none) post)
    (some : ∀ token, track.Abreast (track.At token bound) (next (some token)) (next' (some token))
      post) :
    track.Abreast (track.Live bound) (peek >>= next) (peek >>= next') post := by
  intro path tokens others live
  have same := track.sees live.1
  rw [(takes_peek.mpr ⟨rfl, rfl⟩ : peek.Takes path tokens _ _).bind_eq,
    (takes_peek.mpr ⟨same, rfl⟩ : peek.Takes path others _ _).bind_eq]
  cases found : tokens.head? with
  | none => exact none path tokens others live
  | some token => exact some token path tokens others ⟨live, found⟩

/-- Both look at the token that is known to be next. -/
theorem peek_bind_at {next next' : Option Token → RawParse α}
    (later : track.Abreast (track.At token bound) (next (some token)) (next' (some token)) post) :
    track.Abreast (track.At token bound) (peek >>= next) (peek >>= next') post := by
  intro path tokens others seen
  have same := track.sees seen.1.1
  rw [(takes_peek.mpr ⟨seen.2, rfl⟩ : peek.Takes path tokens _ _).bind_eq,
    (takes_peek.mpr ⟨same.trans seen.2, rfl⟩ : peek.Takes path others _ _).bind_eq]
  exact later path tokens others seen

/-- Both take the same branch of a choice by a test for a kind. -/
theorem choice {test : RawParse Bool} {kind : Kind} (tests : test.Tests kind)
    (found : ∀ token, token.kind = kind → track.Abreast (track.At token bound) yes yes' post)
    (missing : track.Abreast
      (fun tokens others => track.Live bound tokens others ∧ ¬ Begins kind tokens) no no' post) :
    track.Abreast (track.Live bound) (test >>= fun found => if found then yes else no)
      (test >>= fun found => if found then yes' else no') post := by
  intro path tokens others live
  have same := begins_iff live.1 kind
  by_cases begins : Begins kind tokens
  · obtain ⟨token, told, seen⟩ := live.exists_at begins
    rw [tests.choice_of_begins begins, tests.choice_of_begins (same.mpr begins)]
    exact found token told path tokens others seen
  · rw [tests.choice_of_not_begins begins,
      tests.choice_of_not_begins fun other => begins (same.mp other)]
    exact missing path tokens others ⟨live, begins⟩

/-- Both take the same branch of a choice by the next mark. -/
theorem unlessMark {mark : Mark}
    (found : ∀ token, token.kind = .mark mark → track.Abreast (track.At token bound) yes yes' post)
    (missing : track.Abreast
      (fun tokens others => track.Live bound tokens others ∧ ¬ Begins (.mark mark) tokens) no no'
      post) :
    track.Abreast (track.Live bound) (atMark mark >>= fun found => if found then yes else no)
      (atMark mark >>= fun found => if found then yes' else no') post :=
  choice (tests_atMark mark) found missing

/-- Both take the same branch of a choice by the next mark. -/
theorem ifMark {mark : Mark}
    (found : ∀ token, token.kind = .mark mark → track.Abreast (track.At token bound) yes yes' post)
    (missing : track.Abreast (track.Live bound) no no' post) :
    track.Abreast (track.Live bound) (atMark mark >>= fun found => if found then yes else no)
      (atMark mark >>= fun found => if found then yes' else no') post :=
  unlessMark found (missing.strengthen fun _ _ known => known.1)

/-- Both take the same branch of a choice by the next keyword. -/
theorem ifKeyword {word : Keyword}
    (found : ∀ token, token.kind = .keyword word →
      track.Abreast (track.At token bound) yes yes' post)
    (missing : track.Abreast (track.Live bound) no no' post) :
    track.Abreast (track.Live bound) (atKeyword word >>= fun found => if found then yes else no)
      (atKeyword word >>= fun found => if found then yes' else no') post :=
  choice (tests_atKeyword word) found (missing.strengthen fun _ _ known => known.1)

/-- Behind a statement both take the same branch of a choice by an `else`, which only a reading that
goes on can find. -/
theorem ifElse
    (found : ∀ token, token.kind = .keyword .elseWord →
      track.Abreast (track.At token bound) yes yes' post)
    (missing : track.Abreast (track.Done bound) no no' post) :
    track.Abreast (track.Done bound)
      (atKeyword .elseWord >>= fun found => if found then yes else no)
      (atKeyword .elseWord >>= fun found => if found then yes' else no') post := by
  intro path tokens others done
  have tests : Tests (Parse.atKeyword .elseWord : RawParse Bool) (.keyword .elseWord) :=
    tests_atKeyword .elseWord
  have neither (absent : ¬ Begins (.keyword .elseWord) tokens)
      (absent' : ¬ Begins (.keyword .elseWord) others) :
      track.Steps tokens others post
        ((atKeyword .elseWord >>= fun found => if found then yes else no) path tokens)
        ((atKeyword .elseWord >>= fun found => if found then yes' else no') path others) := by
    rw [tests.choice_of_not_begins absent, tests.choice_of_not_begins absent']
    exact missing path tokens others done
  obtain ⟨absent, absent'⟩ | live := track.branches done.1
  · exact neither absent absent'
  · have same := begins_iff live (.keyword .elseWord)
    by_cases begins : Begins (.keyword .elseWord) tokens
    · obtain ⟨token, next, told⟩ := begins
      have both : track.At token bound tokens others := ⟨⟨live, done.2⟩, next⟩
      have begins : Begins (.keyword .elseWord) tokens := ⟨token, next, told⟩
      rw [tests.choice_of_begins begins, tests.choice_of_begins (same.mpr begins)]
      exact found token told path tokens others both
    · exact neither begins fun other => begins (same.mp other)

/-- Both take the same branch of a choice by the end of the tokens. -/
theorem ifAtEnd (live : ∀ tokens others, pre tokens others → track.live tokens others)
    (ended : track.Abreast (fun tokens others => pre tokens others ∧ atEnd tokens = true) yes yes'
      post)
    (missing : track.Abreast (fun tokens others => pre tokens others ∧ atEnd tokens = false) no no'
      post) :
    track.Abreast pre (remaining >>= fun tokens => if atEnd tokens then yes else no)
      (remaining >>= fun tokens => if atEnd tokens then yes' else no') post := by
  refine remaining_bind fun place place' held => ?_
  rw [atEnd_eq (live place place' held)]
  cases told : atEnd place with
  | true =>
    rintro path _ _ ⟨rfl, rfl⟩
    exact ended path _ _ ⟨held, told⟩
  | false =>
    rintro path _ _ ⟨rfl, rfl⟩
    exact missing path _ _ ⟨held, told⟩

/-! ## Marks and names that are wanted -/

/-- A mark that can stand inside a statement is read. -/
theorem expect {mark : Mark} (inner : (Kind.mark mark).inner = true) :
    track.Abreast (track.Live (bound + 1)) (Parse.expect mark) (Parse.expect mark)
      fun _ => track.Live bound :=
  ifMark (fun _ told => skip (told ▸ inner)) (stop (by simp) fun _ _ live => live.1)

/-- A mark that ends a statement is read. -/
theorem expectEnd {mark : Mark} (ends : (Kind.mark mark).ends = true) :
    track.Abreast (track.Live (bound + 1)) (Parse.expect mark) (Parse.expect mark)
      fun _ => track.Done bound :=
  ifMark (fun _ told => leave (told ▸ ends)) (stop (by simp) fun _ _ live => live.1)

/-- A name is read. -/
theorem identifier :
    track.Abreast (track.Live (bound + 1)) Parse.identifier Parse.identifier
      fun _ => track.Live bound := by
  refine peek_bind (stop (by simp) fun _ _ live => live.1) fun token => ?_
  obtain ⟨kind, lexeme, span⟩ := token
  cases kind with
  | identifier name => exact skip_bind rfl (pure fun _ _ live => live)
  | _ => exact stop (by simp) fun _ _ seen => seen.1.1

/-- Behind a mark that is wanted, both go on. -/
theorem expect_bind {mark : Mark} {next next' : Unit → RawParse α}
    (inner : (Kind.mark mark).inner = true)
    (later : track.Abreast (track.Live bound) (next ()) (next' ()) post) :
    track.Abreast (track.Live (bound + 1)) (Parse.expect mark >>= next)
      (Parse.expect mark >>= next') post :=
  (expect inner).bind fun _ => later

/-- Behind a mark that ends a statement, both are left. -/
theorem expectEnd_bind {mark : Mark} {next next' : Unit → RawParse α}
    (ends : (Kind.mark mark).ends = true)
    (later : track.Abreast (track.Done bound) (next ()) (next' ()) post) :
    track.Abreast (track.Live (bound + 1)) (Parse.expect mark >>= next)
      (Parse.expect mark >>= next') post :=
  (expectEnd ends).bind fun _ => later

/-- Behind an opening brace both go on after every statement. -/
theorem expectBrace_bind {next next' : Unit → RawParse α}
    (later : track.Onward → track.Abreast (track.Live bound) (next ()) (next' ()) post) :
    track.Abreast (track.Live (bound + 1)) (Parse.expect .leftBrace >>= next)
      (Parse.expect .leftBrace >>= next') post := by
  have opened : track.Abreast (track.Live (bound + 1)) (Parse.expect .leftBrace)
      (Parse.expect .leftBrace) fun _ tokens others =>
        track.Onward ∧ track.Live bound tokens others := by
    refine ifMark (fun token told => ?_) (stop (by simp) fun _ _ live => live.1)
    refine nested (told ▸ rfl) fun onward => (skip (told ▸ rfl)).weaken fun _ _ _ live => ?_
    exact ⟨onward, live⟩
  exact opened.bind fun _ path tokens others held => later held.1 path tokens others held.2

/-- Behind a name both go on. -/
theorem identifier_bind {next next' : Identifier → RawParse α}
    (later : ∀ name, track.Abreast (track.Live bound) (next name) (next' name) post) :
    track.Abreast (track.Live (bound + 1)) (Parse.identifier >>= next)
      (Parse.identifier >>= next') post :=
  identifier.bind later

/-- An operator of some level is read, or both go on without one. -/
theorem operator_bind {ω : Type} {operator? : Kind → Option ω}
    {next next' : Option (ω × Span) → RawParse α}
    (inner : ∀ kind found, operator? kind = some found → kind.inner = true)
    (none : track.Abreast (track.Live (bound + 1)) (next none) (next' none) post)
    (some : ∀ found, track.Abreast (track.Live bound) (next (some found)) (next' (some found))
      post) :
    track.Abreast (track.Live (bound + 1)) (Grammar.operator operator? >>= next)
      (Grammar.operator operator? >>= next') post := by
  have looked : track.Abreast (track.Live (bound + 1)) (Grammar.operator operator?)
      (Grammar.operator operator?) fun found =>
        if found.isSome then track.Live bound else track.Live (bound + 1) := by
    refine peek_bind (pure fun _ _ live => live) fun token => ?_
    dsimp only
    cases found : operator? token.kind with
    | none => exact pure fun _ _ seen => seen.1
    | some symbol => exact skip_bind (inner _ _ found) (pure fun _ _ live => live)
  refine looked.bind fun found => ?_
  cases found with
  | none => exact none
  | some found => exact some found

/-! ## Repetition and recovery -/

/-- Loops whose steps stay side by side, and read a token wherever they go on, stay side by side if
both have as many rounds as there can be tokens. -/
theorem iterate {step step' : σ → RawParse (σ ⊕ α)} {rounds rounds' : Nat}
    (each : ∀ count < bound, ∀ state, track.Abreast (track.Live (count + 1)) (step state)
      (step' state) (track.Loop count post))
    (enough : bound ≤ rounds) (enough' : bound ≤ rounds') (state : σ) :
    track.Abreast (track.Live bound) (Parse.iterate step rounds state)
      (Parse.iterate step' rounds' state) post := by
  -- By induction on the tokens that may be left: a round leaves fewer for the rounds behind it.
  induction bound generalizing rounds rounds' state with
  | zero => exact live_zero
  | succ bound ih =>
    obtain ⟨rounds, rfl⟩ : ∃ fewer, rounds = fewer + 1 := Nat.exists_eq_succ_of_ne_zero (by omega)
    obtain ⟨rounds', rfl⟩ : ∃ fewer, rounds' = fewer + 1 :=
      Nat.exists_eq_succ_of_ne_zero (by omega)
    intro path tokens others live
    have begun := each bound (Nat.lt_succ_self bound) state path tokens others live
    unfold Parse.iterate
    generalize step state path tokens = made at begun
    generalize step' state path others = made' at begun
    cases begun with
    | fault reported left stopped => exact .fault reported left stopped
    | @value _ _ found rest rest' reported left after =>
      cases found with
      | inr value => exact .value reported left after
      | inl state =>
        have fewer := Nat.le_of_succ_le_succ enough
        have fewer' := Nat.le_of_succ_le_succ enough'
        have later := ih (fun count below => each count (Nat.lt_succ_of_lt below)) fewer fewer'
          state path rest rest' after
        dsimp only
        generalize Parse.iterate step rounds state path rest = last at later
        generalize Parse.iterate step' rounds' state path rest' = last' at later
        cases later with
        | fault further beyond stopped =>
          exact .fault (List.rel_append reported further) (beyond.trans left) stopped
        | value further beyond after =>
          exact .value (List.rel_append reported further) (beyond.trans left) after

/-- An attempt stays side by side where both go on behind every statement, and reads a token if it
begins where skipping need not stop. -/
theorem attempt {inBlock : Bool} (onward : track.Onward)
    (abreast : track.Abreast (track.Live (bound + 1)) reader other fun _ => track.Done bound) :
    track.Abreast
      (fun tokens others =>
        track.Live (bound + 1) tokens others ∧ atBoundary inBlock tokens = false)
      (Parse.attempt inBlock reader) (Parse.attempt inBlock other) fun _ => track.Live bound := by
  rintro path tokens others ⟨live, within⟩
  have steps := abreast path tokens others live
  unfold Parse.attempt
  generalize reader path tokens = step at steps
  generalize other path others = step' at steps
  cases steps with
  | value reported left after => exact .value reported left (onward.live after)
  | fault reported left stopped =>
    have fewer := length_resume_lt within left.first
    dsimp only [FaultOver.remaining, Supply.tokens_list, Supply.leave_list]
    rw [lastOnes_of_suffix left.first, lastOnes_of_suffix left.second]
    refine .value (List.rel_append reported (.cons stopped .nil))
      (.trans ⟨resume_suffix inBlock _, resume_suffix inBlock _⟩ left)
      ⟨onward.resume stopped.rest, ?_⟩
    exact Nat.lt_of_lt_of_le fewer (Nat.le_of_lt_succ live.2)

end Abreast

end Track

end KoreanLox
