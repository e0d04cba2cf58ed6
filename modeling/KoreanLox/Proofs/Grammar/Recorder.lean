import KoreanLox.Proofs.Grammar.Course

/-!
# Readers that keep a record

A recorder has a course for every limit on the entries of lists, and these are coherent. Recorders
are combined as readers are. Without its record a recorder is a reader, and every combination of
recorders is the same combination of readers then.
-/

namespace KoreanLox

open Parse

/-- Readers are sequenced by the laws of monads. -/
instance : LawfulMonad RawParse := LawfulMonad.mk' RawParse
  (fun reader => by
    funext path tokens
    show Parse.andThen reader (fun value => Parse.done value) path tokens = _
    unfold Parse.andThen Parse.done
    obtain ⟨reports, _ | ⟨value, rest⟩⟩ := reader path tokens
    · rfl
    · simp)
  (fun value next => by
    funext path tokens
    show Parse.andThen (Parse.done value) next path tokens = _
    simp [Parse.andThen, Parse.done])
  (fun first next last => by
    funext path tokens
    show Parse.andThen (Parse.andThen first next) last path tokens =
      Parse.andThen first (fun value => Parse.andThen (next value) last) path tokens
    unfold Parse.andThen
    obtain ⟨reports, _ | ⟨value, rest⟩⟩ := first path tokens
    · rfl
    · dsimp only
      obtain ⟨more, _ | ⟨value, rest⟩⟩ := next value path rest
      · rfl
      · simp)

/-- Nothing is read behind a stop. -/
@[simp]
theorem Parse.stop_bind {α β : Type} (cause : FaultCause) (next : α → RawParse β) :
    Parse.stop cause >>= next = Parse.stop cause := rfl

/-- A reader that keeps a record, with any limit on the entries of lists. -/
structure Recorder (α : Type) where
  /-- The course of a reading. -/
  course : Option Nat → List Production → List Token → Course α
  /-- The limit changes nothing but the reports of surplus entries. -/
  coherent : ∀ path tokens, Coherent (fun _ => []) fun limit => course limit path tokens

namespace Recorder

variable {α β σ ω : Type}

/-- A recorder without its record. -/
def reader (recorder : Recorder α) (limit : Option Nat) : RawParse α := fun path tokens =>
  (recorder.course limit path tokens).toStep

/-! ## Combinations -/

/-- Reads nothing. -/
def done (value : α) : Recorder α where
  course _ _ tokens := .glance [] ⟨[], .ok (value, tokens)⟩
  coherent _ _ := .glance [] rfl nofun

/-- Reads one thing and then another that may depend on it. -/
def andThen (first : Recorder α) (next : α → Recorder β) : Recorder β where
  course limit path tokens := (first.course limit path tokens).andThen fun value rest =>
    (next value).course limit path rest
  coherent path tokens :=
    ((first.coherent path tokens).andThen fun value rest => (next value).coherent path rest).owing
      fun _ => by
        unfold Course.behind
        split <;> rfl

instance : Monad Recorder where
  pure := done
  bind := andThen

/-- Reads inside a production. -/
def inside (production : Production) (recorder : Recorder α) : Recorder α where
  course limit path tokens := recorder.course limit (production :: path) tokens
  coherent path tokens := recorder.coherent (production :: path) tokens

/-- Stops at the next token. -/
def stop (cause : GraveCause) : Recorder α where
  course _ path tokens := .glance [] ⟨[], .error ⟨cause, path, tokens⟩⟩
  coherent path tokens := .glance [] rfl fun fault stopped => by
    obtain rfl := Except.error.inj stopped
    exact cause.property

/-- The tokens that are left. -/
def remaining : Recorder (List Token) where
  course _ path tokens := .glance [tokens] (Parse.remaining path tokens)
  coherent _ _ := .glance _ rfl nofun

/-- The next token, which is left in place. -/
def peek : Recorder (Option Token) where
  course _ path tokens := .glance [tokens] (Parse.peek path tokens)
  coherent _ _ := .glance _ rfl nofun

/-- Drops the next token, which must be there. -/
def skip : Recorder Unit where
  course _ path tokens := .glance [tokens] (Parse.skip path tokens)
  coherent path tokens := by
    cases tokens with
    | nil =>
      refine .glance _ rfl fun fault stopped => ?_
      obtain rfl := Except.error.inj stopped
      rfl
    | cons token rest => exact .glance _ rfl nofun

/-- Whether the next token is a certain mark. -/
def atMark (mark : Mark) : Recorder Bool := do
  match ← peek with
  | some ⟨.mark found, _, _⟩ => return found = mark
  | _ => return false

/-- Whether the next token is a certain keyword. -/
def atKeyword (word : Keyword) : Recorder Bool := do
  match ← peek with
  | some ⟨.keyword found, _, _⟩ => return found = word
  | _ => return false

/-- Reads a certain mark. -/
def expect (mark : Mark) : Recorder Unit := do
  if ← atMark mark then skip else stop (.expected mark)

/-- Reads a name. -/
def identifier : Recorder Identifier := do
  match ← peek with
  | some ⟨.identifier name, _, span⟩ => skip; return ⟨name, span⟩
  | _ => stop ⟨.expectedIdentifier, rfl⟩

/-- Repeats a step, at most `rounds` times, until it comes to a value. -/
def iterate (step : σ → Recorder (σ ⊕ α)) : Nat → σ → Recorder α
  | 0, _ => stop .overrun
  | rounds + 1, state => do
    match ← step state with
    | .inl state => iterate step rounds state
    | .inr value => return value

/-- Reads something, and where that stops reports the fault and skips to where reading goes on. -/
def attempt (inBlock : Bool) (recorder : Recorder α) : Recorder (Option α) where
  course limit path tokens := (recorder.course limit path tokens).attempt inBlock tokens
  coherent path tokens := (recorder.coherent path tokens).attempt inBlock tokens

/-- Reads the entries of a list. -/
def listed (kind : ListKind) (entry : Recorder (β × Bool)) (rounds : Nat) : Recorder (List β) where
  course limit path tokens :=
    .listed kind path limit (fun tokens => entry.course limit path tokens) rounds tokens
  coherent path tokens := .listed (fun tokens => entry.coherent path tokens) kind path rounds tokens

/-- Reads a value for what stood before the equals sign at some tokens. -/
def assigned (target : RawExpr) (place : List Token) (value : Recorder RawExpr) :
    Recorder RawExpr where
  course limit path tokens := (value.course limit path tokens).assigned target path place
  coherent path tokens := (value.coherent path tokens).assigned target path place

/-! ## Without the record -/

/-- One course and then another, without their records. -/
theorem toStep_andThen (first : List Production → List Token → Course α)
    (next : α → List Production → List Token → Course β) :
    (fun path tokens =>
        ((first path tokens).andThen fun value rest => next value path rest).toStep) =
      ((fun path tokens => (first path tokens).toStep : RawParse α) >>=
        fun value path rest => (next value path rest).toStep : RawParse β) := by
  funext path tokens
  show _ = Parse.andThen (fun path tokens => (first path tokens).toStep) _ path tokens
  unfold Course.andThen Parse.andThen
  dsimp only
  obtain ⟨⟨reports, _ | ⟨value, rest⟩⟩, looks, lists, targets⟩ := first path tokens
  · rfl
  · rfl

section

variable (limit : Option Nat)

/-- Reading nothing. -/
@[simp]
theorem reader_pure (value : α) :
    (pure value : Recorder α).reader limit = (pure value : RawParse α) := rfl

/-- Reading one thing and then another. -/
@[simp]
theorem reader_bind (first : Recorder α) (next : α → Recorder β) :
    (first >>= next).reader limit =
      first.reader limit >>= fun value => (next value).reader limit :=
  toStep_andThen (first.course limit) fun value => (next value).course limit

/-- Reading by a condition. -/
@[simp]
theorem reader_ite (condition : Prop) [Decidable condition] (first second : Recorder α) :
    (if condition then first else second).reader limit =
      if condition then first.reader limit else second.reader limit :=
  apply_ite (fun recorder => recorder.reader limit) condition first second

/-- Reading inside a production. -/
@[simp]
theorem reader_inside (production : Production) (recorder : Recorder α) :
    (inside production recorder).reader limit =
      Parse.inside production (recorder.reader limit) := rfl

/-- Stopping. -/
@[simp]
theorem reader_stop (cause : GraveCause) :
    (stop cause : Recorder α).reader limit = Parse.stop cause := rfl

/-- Seeing the tokens that are left. -/
@[simp]
theorem reader_remaining : remaining.reader limit = Parse.remaining := rfl

/-- Seeing the next token. -/
@[simp]
theorem reader_peek : peek.reader limit = Parse.peek := rfl

/-- Dropping the next token. -/
@[simp]
theorem reader_skip : skip.reader limit = Parse.skip := rfl

/-- Looking for a mark. -/
@[simp]
theorem reader_atMark (mark : Mark) : (atMark mark).reader limit = Parse.atMark mark := by
  rw [atMark, Parse.atMark, reader_bind]
  refine bind_congr fun found => ?_
  split <;> simp

/-- Looking for a keyword. -/
@[simp]
theorem reader_atKeyword (word : Keyword) :
    (atKeyword word).reader limit = Parse.atKeyword word := by
  rw [atKeyword, Parse.atKeyword, reader_bind]
  refine bind_congr fun found => ?_
  split <;> simp

/-- Reading a mark. -/
@[simp]
theorem reader_expect (mark : Mark) : (expect mark).reader limit = Parse.expect mark := by
  simp [expect, Parse.expect]

/-- Reading a name. -/
@[simp]
theorem reader_identifier : identifier.reader limit = Parse.identifier := by
  rw [identifier, Parse.identifier, reader_bind]
  refine bind_congr fun found => ?_
  split <;> simp

/-- Repeating a step, of readers. -/
theorem iterate_succ (step : σ → RawParse (σ ⊕ α)) (rounds : Nat) (state : σ) :
    Parse.iterate step (rounds + 1) state = do
      match ← step state with
      | .inl state => Parse.iterate step rounds state
      | .inr value => return value := by
  funext path tokens
  show Parse.iterate step (rounds + 1) state path tokens = Parse.andThen (step state) _ path tokens
  rw [Parse.iterate, Parse.andThen]
  dsimp only
  obtain ⟨reports, _ | ⟨_ | value, rest⟩⟩ := step state path tokens
  · rfl
  · rfl
  · exact congrArg (Step.mk · _) (List.append_nil reports).symm

/-- Repeating a step. -/
@[simp]
theorem reader_iterate (step : σ → Recorder (σ ⊕ α)) (rounds : Nat) (state : σ) :
    (iterate step rounds state).reader limit =
      Parse.iterate (fun state => (step state).reader limit) rounds state := by
  induction rounds generalizing state with
  | zero => rfl
  | succ rounds ih =>
    rw [iterate, iterate_succ, reader_bind]
    refine bind_congr fun found => ?_
    cases found with
    | inl state => exact ih state
    | inr value => rfl

/-- Going on behind a fault. -/
@[simp]
theorem reader_attempt (inBlock : Bool) (recorder : Recorder α) :
    (attempt inBlock recorder).reader limit = Parse.attempt inBlock (recorder.reader limit) := by
  funext path tokens
  show ((recorder.course limit path tokens).attempt inBlock tokens).toStep = _
  unfold Course.attempt Parse.attempt reader
  obtain ⟨⟨reports, _ | ⟨value, rest⟩⟩, looks, lists, targets⟩ := recorder.course limit path tokens
  · rfl
  · rfl

/-- Reading a value for what stood before an equals sign. -/
@[simp]
theorem reader_assigned (target : RawExpr) (place : List Token) (value : Recorder RawExpr) :
    (assigned target place value).reader limit =
      value.reader limit >>= Grammar.assignTo target place :=
  toStep_andThen (value.course limit) fun value path rest =>
    .glance [] (Grammar.assignTo target place value path rest)

/-- The beginning of an entry, without its record, is the check of the limit. -/
theorem toStep_beginning (rules : RawRules) (kind : ListKind) (count : Nat) :
    (fun path tokens => (Course.beginning kind path rules.limit count tokens).toStep) =
      Grammar.checkLimit rules count kind.cause := by
  unfold Course.beginning Grammar.checkLimit
  cases rules.limit with
  | none => rfl
  | some limit =>
    funext path tokens
    dsimp only
    split <;> rfl

end

/-- The next entry of a list with a limit, and whether it is the last one. -/
def link (rules : RawRules) (kind : ListKind) (entry : RawParse (β × Bool)) (values : List β) :
    RawParse (List β ⊕ List β) := do
  Grammar.checkLimit rules values.length kind.cause
  let (value, more) ← entry
  if more then return .inl (value :: values) else return .inr (value :: values).reverse

/-- Reading the entries of a list is to repeat the check of the limit and an entry. -/
theorem reader_listed (rules : RawRules) (kind : ListKind) (entry : Recorder (β × Bool))
    (rounds : Nat) :
    (listed kind entry rounds).reader rules.limit =
      Parse.iterate (link rules kind (entry.reader rules.limit)) rounds [] := by
  suffices all : ∀ values, (fun path tokens => (Course.entries kind path rules.limit
      (fun tokens => entry.course rules.limit path tokens) rounds values tokens).toStep) =
        Parse.iterate (link rules kind (entry.reader rules.limit)) rounds values from all []
  intro values
  -- Each round is the check, an entry and the rounds behind it, on both sides.
  induction rounds generalizing values with
  | zero => rfl
  | succ rounds ih =>
    rw [iterate_succ, link, bind_assoc, ← toStep_beginning]
    refine (toStep_andThen _ _).trans (bind_congr fun _ => ?_)
    rw [bind_assoc]
    refine (toStep_andThen (entry.course rules.limit) _).trans (bind_congr fun found => ?_)
    obtain ⟨value, more⟩ := found
    cases more with
    | true => exact ih (value :: values)
    | false => rfl

end Recorder

end KoreanLox
