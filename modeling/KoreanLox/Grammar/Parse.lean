import KoreanLox.Grammar.Fault
import KoreanLox.Tree.Basic

/-!
# Reading tokens

A reader takes tokens from the front of a supply and returns what it read with the supply after it,
or the fault at which it stopped. Beside that it may report faults that do not stop it; those
reported before a stop are kept. The path of productions is handed inward.

Labels are drawn from the supply as nodes are read. What was drawn stays drawn, also for a node that
is dropped again: the supply after a reading that stopped is that of the fault.
-/

namespace KoreanLox

/-- Supplies of tokens to read and of labels for the nodes that look a name up. -/
class Supply (σ : Type) (ι : outParam Type) where
  /-- The tokens that are left. -/
  tokens : σ → List Token
  /-- The supply with other tokens left. -/
  leave : σ → List Token → σ
  /-- Draws a label. -/
  draw : σ → ι × σ

/-- Tokens alone supply no labels. -/
instance : Supply (List Token) Unit where
  tokens left := left
  leave _ rest := rest
  draw left := ((), left)

/-- Tokens with the first number that no node is labelled with. -/
structure Numbered where
  /-- The tokens that are left. -/
  left : List Token
  /-- The first number that no node is labelled with. -/
  next : Nat

/-- Numbers are drawn one after the other. -/
instance : Supply Numbered Nat where
  tokens := Numbered.left
  leave supply rest := { supply with left := rest }
  draw supply := (supply.next, { supply with next := supply.next + 1 })

/-- The number of tokens left at a fault, the one at fault included. -/
def FaultOver.remaining {σ ι : Type} [Supply σ ι] (fault : FaultOver σ) : Nat :=
  (Supply.tokens fault.rest).length

/-- A fault with the tokens left alone. -/
def FaultOver.plain {σ ι : Type} [Supply σ ι] (fault : FaultOver σ) : Fault :=
  ⟨fault.cause, fault.path, Supply.tokens fault.rest⟩

/-- What reading came to: the faults reported on the way, and the value with the supply after it
or the fault that stopped the reading. -/
structure Step (σ α : Type) where
  /-- The faults reported on the way, in order. -/
  reports : List (FaultOver σ)
  /-- The value and the supply after it, or the fault that stopped the reading. -/
  result : Except (FaultOver σ) (α × σ)

/-- A reader, given the path of productions around it and the supply. -/
def Parse (σ α : Type) : Type := List Production → σ → Step σ α

namespace Parse

variable {α β σ τ ι : Type}

/-- Reads nothing. -/
def done (value : α) : Parse σ α := fun _ supply => ⟨[], .ok (value, supply)⟩

/-- Reads one thing and then another that may depend on it. -/
def andThen (first : Parse σ α) (next : α → Parse σ β) : Parse σ β := fun path supply =>
  match first path supply with
  | ⟨reports, .error fault⟩ => ⟨reports, .error fault⟩
  | ⟨reports, .ok (value, rest)⟩ =>
    let later := next value path rest
    ⟨reports ++ later.reports, later.result⟩

instance : Monad (Parse σ) where
  pure := done
  bind := andThen

/-- Reads inside a production. -/
def inside (production : Production) (reader : Parse σ α) : Parse σ α := fun path supply =>
  reader (production :: path) supply

/-- Stops at the next token. -/
def stop (cause : FaultCause) : Parse σ α := fun path supply =>
  ⟨[], .error ⟨cause, path, supply⟩⟩

/-- What is left to read. -/
def remaining : Parse σ σ := fun _ supply => ⟨[], .ok (supply, supply)⟩

/-- Reports a fault at some place and goes on. -/
def reportAt (cause : FaultCause) (place : σ) : Parse σ Unit := fun path supply =>
  ⟨[⟨cause, path, place⟩], .ok ((), supply)⟩

/-- Repeats a step, at most `rounds` times, until it comes to a value. Every step that does not
must read a token, so more rounds than there are tokens are enough. -/
def iterate (step : τ → Parse σ (τ ⊕ α)) : Nat → τ → Parse σ α
  | 0, _ => stop .overrun
  | rounds + 1, state => fun path supply =>
    match step state path supply with
    | ⟨reports, .error fault⟩ => ⟨reports, .error fault⟩
    | ⟨reports, .ok (.inr value, rest)⟩ => ⟨reports, .ok (value, rest)⟩
    | ⟨reports, .ok (.inl state, rest)⟩ =>
      let later := iterate step rounds state path rest
      ⟨reports ++ later.reports, later.result⟩

variable [Supply σ ι]

/-- Draws a label for a node. -/
def draw : Parse σ ι := fun _ supply => ⟨[], .ok (Supply.draw supply)⟩

/-- The next token, which is left in place. -/
def peek : Parse σ (Option Token) := fun _ supply =>
  ⟨[], .ok ((Supply.tokens supply).head?, supply)⟩

/-- Drops the next token, which must be there. -/
def skip : Parse σ Unit := fun path supply =>
  match Supply.tokens supply with
  | [] => ⟨[], .error ⟨.overrun, path, supply⟩⟩
  | _ :: rest => ⟨[], .ok ((), Supply.leave supply rest)⟩

/-- Whether the next token is a certain mark. -/
def atMark (mark : Mark) : Parse σ Bool := do
  match ← peek with
  | some ⟨.mark found, _, _⟩ => return found = mark
  | _ => return false

/-- Whether the next token is a certain keyword. -/
def atKeyword (word : Keyword) : Parse σ Bool := do
  match ← peek with
  | some ⟨.keyword found, _, _⟩ => return found = word
  | _ => return false

/-- Reads a certain mark. -/
def expect (mark : Mark) : Parse σ Unit := do
  if ← atMark mark then skip else stop (.expected mark)

/-- Reads a name. -/
def identifier : Parse σ Identifier := do
  match ← peek with
  | some ⟨.identifier name, _, span⟩ => skip; return ⟨name, span⟩
  | _ => stop .expectedIdentifier

/-- Whether the tokens are at an end. -/
def atEnd : List Token → Bool
  | [] => true
  | ⟨.endOfFile, _, _⟩ :: _ => true
  | _ => false

/-- Whether a keyword begins a statement or a declaration. -/
def beginsStatement : Keyword → Bool
  | .classWord | .funWord | .varWord | .forWord | .ifWord | .whileWord | .printWord
  | .returnWord => true
  | _ => false

/-- Whether the tokens begin with a keyword that begins a statement. -/
def startsStatement : List Token → Bool
  | ⟨.keyword word, _, _⟩ :: _ => beginsStatement word
  | _ => false

/-- Whether skipping has to stop: at the end, and within a block at its closing brace. -/
def atBoundary (inBlock : Bool) (tokens : List Token) : Bool :=
  atEnd tokens ||
    match tokens with
    | ⟨.mark .rightBrace, _, _⟩ :: _ => inBlock
    | _ => false

/-- Whether a token is a semicolon. -/
def isSemicolon (token : Token) : Bool :=
  match token.kind with
  | .mark .semicolon => true
  | _ => false

/-- Drops tokens up to and including a semicolon, or up to a boundary or the beginning of a
statement; at least one is dropped. -/
def skipStatement (inBlock : Bool) : List Token → List Token
  | [] => []
  | token :: rest =>
    if isSemicolon token || atBoundary inBlock rest || startsStatement rest then rest
    else skipStatement inBlock rest

/-- Where reading goes on after it stopped at some tokens. -/
def resume (inBlock : Bool) (tokens : List Token) : List Token :=
  if atBoundary inBlock tokens then tokens else skipStatement inBlock tokens

/-- The last ones of some tokens, as many as remained where reading stopped. -/
def lastOnes (remaining : Nat) (tokens : List Token) : List Token :=
  tokens.drop (tokens.length - remaining)

/-- Reads something, and where that stops reports the fault and skips to where reading goes on. -/
def attempt (inBlock : Bool) (reader : Parse σ α) : Parse σ (Option α) := fun path supply =>
  match reader path supply with
  | ⟨reports, .ok (value, rest)⟩ => ⟨reports, .ok (some value, rest)⟩
  | ⟨reports, .error fault⟩ =>
    let stopped := lastOnes fault.remaining (Supply.tokens supply)
    ⟨reports ++ [fault], .ok (none, Supply.leave fault.rest (resume inBlock stopped))⟩

end Parse

end KoreanLox
