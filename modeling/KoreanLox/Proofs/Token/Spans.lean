import KoreanLox.Proofs.Token.Joining
import Mathlib.Data.List.DropRight

/-!
# Exact spans

The place of a character is told by the text before it: its line by the newlines there, and its
column by the characters after the last of them (`Position.following`). Scanning never looks back at
that text. It moves a position over one piece after the other, and steps back by a column for the
end of a token. The spans that come of this are nevertheless the places of the first and the last
character of every token, in the order of the text (`Scan.ofSource_spans_exact`).
-/

namespace KoreanLox

namespace Position

/-- The place of what follows some characters at the start of a text. -/
def following (before : List Char) : Position :=
  ⟨1 + before.count '\n', 1 + (before.rtakeWhile (· != '\n')).length⟩

/-- Strict textual order: by line, and within a line by column. -/
def Precedes (first second : Position) : Prop :=
  first.line < second.line ∨ first.line = second.line ∧ first.column < second.column

/-- Textual order as a statement about lines and columns. -/
theorem le_iff (first second : Position) :
    first.le second = true ↔
      first.line < second.line ∨ first.line = second.line ∧ first.column ≤ second.column := by
  simp [le]

/-- What precedes a place that is no later than another precedes that other one. -/
theorem Precedes.trans_le {first second third : Position} (before : first.Precedes second)
    (ordered : second.le third = true) : first.Precedes third := by
  rw [le_iff] at ordered
  unfold Precedes at before ⊢
  omega

/-- Textual order is reflexive. -/
theorem le_refl (position : Position) : position.le position = true := by
  rw [le_iff]
  exact .inr ⟨rfl, Nat.le_refl _⟩

/-- Textual order is transitive. -/
theorem le_trans {first second third : Position} (lower : first.le second = true)
    (upper : second.le third = true) : first.le third = true := by
  rw [le_iff] at lower upper ⊢
  omega

/-- Two places that are each no later than the other are the same place. -/
theorem le_antisymm {first second : Position} (lower : first.le second = true)
    (upper : second.le first = true) : first = second := by
  obtain ⟨line, column⟩ := first
  obtain ⟨line', column'⟩ := second
  simp only [le_iff] at lower upper
  rw [mk.injEq]
  omega

/-- A place is no later than the place one character further. -/
theorem le_after (position : Position) (c : Char) : position.le (position.after c) = true := by
  rw [le_iff, after]
  by_cases newline : c = '\n'
  · rw [if_pos newline]
    exact .inl (Nat.lt_succ_self _)
  · rw [if_neg newline]
    exact .inr ⟨rfl, Nat.le_succ _⟩

/-- A place is no later than the place some characters further. -/
theorem le_afterAll (position : Position) (text : List Char) :
    position.le (position.afterAll text) = true := by
  induction text generalizing position with
  | nil => exact position.le_refl
  | cons c rest ih => exact le_trans (position.le_after c) (ih (position.after c))

/-- Moving over a text and one more character. -/
theorem afterAll_concat (position : Position) (text : List Char) (c : Char) :
    position.afterAll (text ++ [c]) = (position.afterAll text).after c :=
  afterAll_append position text [c]

/-- A place is no later than the last one before the place some characters further. -/
theorem le_back_afterAll (position : Position) {text : List Char} (present : text ≠ []) :
    position.le (position.afterAll text).back = true := by
  have whole := List.dropLast_concat_getLast present
  have reached := position.le_afterAll text.dropLast
  rw [← whole, afterAll_concat]
  refine le_trans reached ?_
  rw [le_iff, after]
  by_cases newline : text.getLast present = '\n'
  · rw [if_pos newline]
    exact .inl (Nat.lt_succ_self _)
  · rw [if_neg newline]
    refine .inr ⟨rfl, ?_⟩
    show _ ≤ max (_ + 1 - 1) 1
    omega

/-- The place that follows one more character. -/
theorem following_concat (before : List Char) (c : Char) :
    following (before ++ [c]) = (following before).after c := by
  unfold following after
  by_cases newline : c = '\n'
  · have stopped : List.rtakeWhile (· != '\n') (before ++ [c]) = [] :=
      List.rtakeWhile_concat_neg _ _ _ (by simp [newline])
    have one : (before ++ [c]).count '\n' = before.count '\n' + 1 := by
      simp [List.count_append, newline]
    rw [if_pos newline, stopped, one]
    rfl
  · have further : List.rtakeWhile (· != '\n') (before ++ [c]) =
        List.rtakeWhile (· != '\n') before ++ [c] :=
      List.rtakeWhile_concat_pos _ _ _ (by simp [newline])
    have same : (before ++ [c]).count '\n' = before.count '\n' := by
      simp [List.count_append, newline]
    rw [if_neg newline, further, same, List.length_append]
    rfl

/-- Moving over a text leads to the place that follows it. -/
theorem afterAll_following (before text : List Char) :
    (following before).afterAll text = following (before ++ text) := by
  induction text generalizing before with
  | nil => rw [List.append_nil]; rfl
  | cons c rest ih =>
    have later := ih (before ++ [c])
    rw [following_concat, List.append_assoc] at later
    exact later

/-- One step back from the place that follows a character is the place of that character, unless it
is a newline. -/
theorem back_following_concat (before : List Char) {c : Char} (inLine : c ≠ '\n') :
    (following (before ++ [c])).back = following before := by
  have column : 1 ≤ (following before).column := Nat.le_add_right 1 _
  rw [following_concat, after, if_neg inLine]
  show (⟨_, max (_ + 1 - 1) 1⟩ : Position) = _
  rw [Nat.add_sub_cancel, Nat.max_eq_left column]

/-- A character that is no newline precedes what follows it. -/
theorem precedes_following_concat (before : List Char) {c : Char} (inLine : c ≠ '\n') :
    (following before).Precedes (following (before ++ [c])) := by
  rw [following_concat, after, if_neg inLine]
  exact .inr ⟨rfl, Nat.lt_succ_self _⟩

end Position

open Position (following)

/-- A span reaches from the first to the last character of a text that follows others. -/
def Span.Covers (span : Span) (before text : List Char) : Prop :=
  span.start = following before ∧
    ∃ inner last, text = inner ++ [last] ∧ span.finish = following (before ++ inner)

/-- A token is among the pieces that follow some text, with some number of other tokens before it
there, and its span covers it. -/
def Token.Stands (token : Token) (before : List Char) (pieces : List Piece) (index : Nat) : Prop :=
  ∃ earlier later, pieces = earlier ++ .token ⟨token.kind, token.lexeme.toList⟩ :: later ∧
    (earlier.filterMap Piece.lexeme?).length = index ∧
    token.span.Covers (before ++ earlier.flatMap Piece.characters) token.lexeme.toList

/-- An error is among the pieces that follow some text, with some number of other errors before it
there. Its span begins where its piece begins, and is that place alone if the piece is an unexpected
character. -/
def LexicalError.Stands (error : LexicalError) (before : List Char) (pieces : List Piece)
    (index : Nat) : Prop :=
  ∃ earlier piece later, pieces = earlier ++ piece :: later ∧ piece.cause? = some error.cause ∧
    (earlier.filterMap Piece.cause?).length = index ∧
    error.span.start = following (before ++ earlier.flatMap Piece.characters) ∧
    ∀ character, error.cause = .unexpectedCharacter character →
      error.span = .point (following (before ++ earlier.flatMap Piece.characters))

/-- A token among pieces stands among these and one more before them. -/
theorem Token.Stands.cons {token : Token} {before : List Char} {piece : Piece}
    {pieces : List Piece} {index : Nat}
    (stands : token.Stands (before ++ piece.characters) pieces index) :
    token.Stands before (piece :: pieces) (index + piece.lexeme?.toList.length) := by
  obtain ⟨earlier, later, rfl, rfl, covers⟩ := stands
  refine ⟨piece :: earlier, later, rfl, ?_, ?_⟩
  · cases lexeme : piece.lexeme? <;> simp [lexeme]
  · rwa [List.flatMap_cons, ← List.append_assoc]

/-- An error among pieces stands among these and one more before them. -/
theorem LexicalError.Stands.cons {error : LexicalError} {before : List Char} {piece : Piece}
    {pieces : List Piece} {index : Nat}
    (stands : error.Stands (before ++ piece.characters) pieces index) :
    error.Stands before (piece :: pieces) (index + piece.cause?.toList.length) := by
  obtain ⟨earlier, wrong, later, rfl, cause, rfl, start, single⟩ := stands
  refine ⟨piece :: earlier, wrong, later, rfl, cause, ?_, ?_, ?_⟩
  · cases cause : piece.cause? <;> simp [cause]
  · rwa [List.flatMap_cons, ← List.append_assoc]
  · rwa [List.flatMap_cons, ← List.append_assoc]

/-- The last character of a token is no newline. -/
theorem Spells.exists_concat {kind : Kind} {text : List Char} (spelled : Spells kind text) :
    ∃ inner last, text = inner ++ [last] ∧ last ≠ '\n' := by
  by_cases broken : '\n' ∈ text
  · obtain ⟨body, -, same⟩ := spelled.eq_string_of_newline broken
    exact ⟨'"' :: body, '"', same, by decide⟩
  · have whole := List.dropLast_concat_getLast spelled.ne_nil
    have listed := List.getLast_mem spelled.ne_nil
    refine ⟨text.dropLast, text.getLast spelled.ne_nil, whole.symm, ?_⟩
    intro newline
    rw [newline] at listed
    exact broken listed

namespace Scan

/-- The region of a piece with characters reaches from its start to the last place before what
follows it. -/
theorem extent_afterAll (position : Position) {text : List Char} (present : text ≠ []) :
    extent position (position.afterAll text) = ⟨position, (position.afterAll text).back⟩ := by
  have ordered := position.le_back_afterAll present
  show Span.mk (if position.le (position.afterAll text).back then position else _)
    (if (position.afterAll text).back.le position then position
      else (position.afterAll text).back) = _
  rw [if_pos ordered]
  by_cases reversed : (position.afterAll text).back.le position = true
  · have same := Position.le_antisymm ordered reversed
    rw [if_pos reversed, ← same]
  · rw [if_neg reversed]

/-- The region of a token covers it, and ends before what follows the token. -/
theorem extent_covers {kind : Kind} {text : List Char} (spelled : Spells kind text)
    (before : List Char) :
    (extent (following before) (following (before ++ text))).Covers before text ∧
      (extent (following before) (following (before ++ text))).finish.Precedes
        (following (before ++ text)) := by
  obtain ⟨inner, last, rfl, inLine⟩ := spelled.exists_concat
  have reached := extent_afterAll (following before) spelled.ne_nil
  rw [Position.afterAll_following] at reached
  have back := Position.back_following_concat (before ++ inner) inLine
  have order := Position.precedes_following_concat (before ++ inner) inLine
  rw [List.append_assoc] at back order
  rw [reached, back]
  exact ⟨⟨rfl, inner, last, rfl, rfl⟩, order⟩

/-- The tokens of pieces that follow some text stand among these pieces, and the end of the text
follows all of them. -/
theorem tokens_stand {source : List Char} {pieces : List Piece} (cut : Decomposes source pieces)
    (before : List Char) :
    ∃ tokens, (ofPieces (following before) pieces).tokens =
        tokens ++ [⟨.endOfFile, "", .point (following (before ++ source))⟩] ∧
      ∀ (index : Nat) (token : Token), tokens[index]? = some token →
        token.Stands before pieces index := by
  induction cut generalizing before with
  | done => exact ⟨[], by simp [ofPieces], by simp⟩
  | @step piece rest pieces opens after ih =>
    obtain ⟨tokens, same, stand⟩ := ih (before ++ piece.characters)
    have later (index : Nat) (token : Token) (found : tokens[index]? = some token) :=
      (stand index token found).cons
    rw [List.append_assoc, ← Position.afterAll_following] at same
    cases opens with
    | blank => exact ⟨tokens, same, later⟩
    | comment => exact ⟨tokens, same, later⟩
    | unexpected => exact ⟨tokens, same, later⟩
    | unterminated => exact ⟨tokens, same, later⟩
    | @token lexeme _ solid longest =>
      have covers := (extent_covers longest.spelled before).1
      refine ⟨⟨lexeme.kind, String.ofList lexeme.characters, _⟩ :: tokens,
        congrArg (List.cons _) same, ?_⟩
      intro index token found
      cases index with
      | zero =>
        obtain rfl := Option.some.inj found
        refine ⟨[], pieces, ?_, rfl, ?_⟩
        · rw [String.toList_ofList, List.nil_append]
        · rw [String.toList_ofList, Position.afterAll_following, List.flatMap_nil,
            List.append_nil]
          exact covers
      | succ index => exact later index token found

/-- The errors of pieces that follow some text stand among these pieces. -/
theorem errors_stand {source : List Char} {pieces : List Piece} (cut : Decomposes source pieces)
    (before : List Char) (index : Nat) (error : LexicalError)
    (found : (ofPieces (following before) pieces).errors[index]? = some error) :
    error.Stands before pieces index := by
  induction cut generalizing before index with
  | done => simp [ofPieces] at found
  | @step piece rest pieces opens after ih =>
    have later (index : Nat)
        (found : (ofPieces ((following before).afterAll piece.characters) pieces).errors[index]? =
          some error) :
        error.Stands before (piece :: pieces) (index + piece.cause?.toList.length) := by
      rw [Position.afterAll_following] at found
      exact (ih (before ++ piece.characters) index found).cons
    cases opens with
    | blank => exact later index found
    | comment => exact later index found
    | token => exact later index found
    | @unexpected c _ solid unknown unquoted =>
      cases index with
      | zero =>
        obtain rfl := Option.some.inj found
        refine ⟨[], _, pieces, rfl, rfl, rfl, ?_, ?_⟩
        · rw [List.flatMap_nil, List.append_nil]
          rfl
        · intro _ _
          rw [List.flatMap_nil, List.append_nil]
      | succ index => exact later index found
    | @unterminated body unquoted =>
      cases index with
      | zero =>
        obtain rfl := Option.some.inj found
        have reached := extent_afterAll (following before) (List.cons_ne_nil '"' body)
        refine ⟨[], _, pieces, rfl, rfl, rfl, ?_, by simp⟩
        rw [List.flatMap_nil, List.append_nil]
        exact congrArg Span.start reached
      | succ index => exact later index found

/-- The tokens of pieces that follow some text begin no earlier than the first piece does, and each
of them ends before the later ones begin. -/
theorem tokens_ordered {source : List Char} {pieces : List Piece} (cut : Decomposes source pieces)
    (before : List Char) :
    (∀ token ∈ (ofPieces (following before) pieces).tokens,
        (following before).le token.span.start = true) ∧
      (ofPieces (following before) pieces).tokens.Pairwise fun first later =>
        first.span.finish.Precedes later.span.start := by
  induction cut generalizing before with
  | done =>
    have start := Position.le_refl (following before)
    exact ⟨List.forall_mem_singleton.mpr start, List.pairwise_singleton _ _⟩
  | @step piece rest pieces opens after ih =>
    obtain ⟨least, ordered⟩ := ih (before ++ piece.characters)
    have moved := Position.le_afterAll (following before) piece.characters
    rw [Position.afterAll_following] at moved
    have begins : ∀ token ∈ (ofPieces (following (before ++ piece.characters)) pieces).tokens,
        (following before).le token.span.start = true :=
      fun token listed => Position.le_trans moved (least token listed)
    rw [← Position.afterAll_following] at begins ordered
    cases opens with
    | blank => exact ⟨begins, ordered⟩
    | comment => exact ⟨begins, ordered⟩
    | unexpected => exact ⟨begins, ordered⟩
    | unterminated => exact ⟨begins, ordered⟩
    | @token lexeme _ solid longest =>
      obtain ⟨covers, ends⟩ := extent_covers longest.spelled before
      rw [← Position.afterAll_following] at covers ends least
      have start : (following before).le
          (extent (following before) ((following before).afterAll lexeme.characters)).start =
            true := by
        rw [covers.1]
        exact Position.le_refl (following before)
      refine ⟨List.forall_mem_cons.mpr ⟨?_, begins⟩, List.pairwise_cons.mpr ⟨?_, ordered⟩⟩
      · exact start
      · intro token listed
        exact ends.trans_le (least token listed)

/-- Every token of a text but the last one is a piece of it and covers exactly that piece: its span
begins at the first and ends at the last character. The last token is the end of the text and stands
just after it. Every error begins where its piece begins, and an unexpected character is a single
place. Every token ends before the next one, and all later ones, begin. -/
theorem ofSource_spans_exact (source : String) :
    ∃ pieces tokens, Decomposes source.toList pieces ∧
      (ofSource source).tokens =
        tokens ++ [⟨.endOfFile, "", .point (following source.toList)⟩] ∧
      (∀ (index : Nat) (token : Token), tokens[index]? = some token →
        token.kind ≠ .endOfFile ∧ token.Stands [] pieces index) ∧
      (∀ (index : Nat) (error : LexicalError), (ofSource source).errors[index]? = some error →
        error.Stands [] pieces index) ∧
      (ofSource source).tokens.Pairwise fun first later =>
        first.span.finish.Precedes later.span.start := by
  have cut := decomposes_all source.toList
  obtain ⟨tokens, same, stand⟩ := tokens_stand cut []
  have ordered := (tokens_ordered cut []).2
  refine ⟨Piece.all source.toList, tokens, cut, same, ?_, errors_stand cut [], ordered⟩
  intro index token found
  obtain ⟨earlier, later, pieces, -⟩ := stand index token found
  have listed : .token ⟨token.kind, token.lexeme.toList⟩ ∈ Piece.all source.toList := by
    rw [pieces]
    exact List.mem_append_right _ List.mem_cons_self
  exact ⟨cut.kind_ne_endOfFile listed, stand index token found⟩

end Scan

end KoreanLox
