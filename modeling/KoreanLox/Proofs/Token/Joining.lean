import KoreanLox.Proofs.Token.Decomposition

/-!
# Texts one below the other

Newlines before a text only move its tokens down (`Scan.ofSource_down`). A newline ends whatever
token or comment stands before it, unless that is a string, which ends by itself. So the scan of a
text without errors, a newline and a further text has the tokens of the first text and then those of
the second, as many lines further down as the first text has (`Scan.ofSource_joined`).
-/

namespace KoreanLox

/-! ## Moving down -/

/-- The position some lines further down. -/
def Position.down (position : Position) (lines : Nat) : Position :=
  ⟨position.line + lines, position.column⟩

/-- The region some lines further down. -/
def Span.down (span : Span) (lines : Nat) : Span :=
  ⟨span.start.down lines, span.finish.down lines⟩

/-- The token some lines further down. -/
def Token.down (token : Token) (lines : Nat) : Token :=
  { token with span := token.span.down lines }

/-- The text some lines further down. -/
def Text.down (source : String) (lines : Nat) : String :=
  String.ofList (List.replicate lines '\n') ++ source

/-- A text no lines further down is the text. -/
@[simp]
theorem Text.down_zero (source : String) : down source 0 = source := by simp [down]

/-- Moving a text down twice moves it down by all the lines. -/
theorem Text.down_down (source : String) (first second : Nat) :
    down (down source first) second = down source (first + second) := by
  rw [Nat.add_comm, down, down, down, ← String.append_assoc, ← String.ofList_append,
    List.replicate_append_replicate]

/-- A region is elsewhere after it has moved down by other lines. -/
theorem Span.down_injective (span : Span) : Function.Injective span.down := by
  intro lines others same
  exact Nat.add_left_cancel (congrArg (·.start.line) same)

/-- Moving a region down twice moves it down by all the lines. -/
theorem Span.down_down (span : Span) (first second : Nat) :
    (span.down first).down second = span.down (first + second) := by
  simp only [down, Position.down, Nat.add_assoc]

namespace Position

variable (position : Position) (lines : Nat)

/-- Moving down keeps the order of positions. -/
theorem le_down (other : Position) :
    (position.down lines).le (other.down lines) = position.le other := by
  change (decide (position.line + lines < other.line + lines) ||
    (position.line + lines == other.line + lines && decide (position.column ≤ other.column))) = _
  rw [Bool.eq_iff_iff]
  simp [le]

/-- Moving down and moving over a character change places. -/
theorem after_down (c : Char) : (position.down lines).after c = (position.after c).down lines := by
  unfold after
  split
  next => simp only [down, Nat.add_right_comm]
  next => rfl

/-- Moving down and moving over characters change places. -/
theorem afterAll_down (text : List Char) :
    (position.down lines).afterAll text = (position.afterAll text).down lines := by
  induction text generalizing position with
  | nil => rfl
  | cons c rest ih =>
    change ((position.down lines).after c).afterAll rest = _
    rw [after_down]
    exact ih (position.after c)

/-- Moving down and back change places. -/
theorem back_down : (position.down lines).back = position.back.down lines := rfl

/-- Every newline of a text leads one line further down. -/
theorem line_afterAll (text : List Char) :
    (position.afterAll text).line = position.line + text.count '\n' := by
  induction text generalizing position with
  | nil => rfl
  | cons c rest ih =>
    have later := ih (position.after c)
    change ((position.after c).afterAll rest).line = _
    rw [later, List.count_cons, after]
    by_cases newline : c = '\n'
    · simp [newline, Nat.add_comm, Nat.add_left_comm]
    · simp [newline]

/-- After a text and a newline, one is at the start of a line below all lines of the text. -/
theorem after_newline (text : List Char) :
    (start.afterAll text).after '\n' = start.down (text.count '\n' + 1) := by
  have below := line_afterAll start text
  rw [after, if_pos rfl, below]
  rfl

/-- Newlines lead to the start of the line below them. -/
theorem afterAll_newlines : start.afterAll (List.replicate lines '\n') = start.down lines := by
  cases lines with
  | zero => rfl
  | succ lines =>
    have below := after_newline (List.replicate lines '\n')
    rw [List.count_replicate_self] at below
    rw [List.replicate_succ', afterAll_append]
    exact below

end Position

/-- Two regions that are joined some lines further down are the joined region there. -/
theorem Span.add_down (first second : Span) (lines : Nat) :
    first.down lines + second.down lines = (first + second).down lines := by
  change cover (first.down lines) (second.down lines) = (cover first second).down lines
  unfold cover Span.down
  simp only [Position.le_down, apply_ite (Position.down · lines)]

/-- The region between two positions some lines further down. -/
theorem Scan.extent_down (start next : Position) (lines : Nat) :
    extent (start.down lines) (next.down lines) = (extent start next).down lines := by
  unfold extent
  rw [Position.back_down]
  exact Span.add_down (.point start) (.point next.back) lines

/-- Pieces that begin some lines further down give the same tokens further down, and as many
errors. -/
theorem Scan.ofPieces_down (position : Position) (lines : Nat) (pieces : List Piece) :
    (ofPieces (position.down lines) pieces).tokens =
        (ofPieces position pieces).tokens.map (Token.down · lines) ∧
      (ofPieces (position.down lines) pieces).errors.length =
        (ofPieces position pieces).errors.length := by
  induction pieces generalizing position with
  | nil => exact ⟨rfl, rfl⟩
  | cons piece rest ih =>
    obtain ⟨tokens, errors⟩ := ih (position.afterAll piece.characters)
    rw [← Position.afterAll_down] at tokens errors
    cases piece with
    | blank => exact ⟨tokens, errors⟩
    | comment => exact ⟨tokens, errors⟩
    | token lexeme =>
      refine ⟨congrArg₂ List.cons ?_ tokens, errors⟩
      simp only [Position.afterAll_down, extent_down]
      rfl
    | unexpected => exact ⟨tokens, congrArg (· + 1) errors⟩
    | unterminated => exact ⟨tokens, congrArg (· + 1) errors⟩

/-! ## The seam -/

/-- A newline stands in no token but a string. -/
theorem Spells.eq_string_of_newline {kind : Kind} {text : List Char} (spelled : Spells kind text)
    (broken : '\n' ∈ text) : ∃ body, '"' ∉ body ∧ text = '"' :: body ++ ['"'] := by
  have newline : isLetter '\n' = false ∧ isNameCharacter '\n' = false ∧
      Char.isDigit '\n' = false := by decide
  have word {first : Char} {rest : List Char} (begins : isLetter first)
      (goesOn : ∀ c ∈ rest, isNameCharacter c) : '\n' ∉ first :: rest := by
    intro listed
    rcases List.mem_cons.mp listed with rfl | listed
    · simp [newline] at begins
    · have inside := goesOn _ listed
      simp [newline] at inside
  cases spelled with
  | mark symbol => cases symbol <;> exact absurd broken (by decide)
  | keyword written =>
    obtain ⟨-, first, rest, rfl, begins, goesOn⟩ := Keyword.ofText?_spelling _ written
    exact absurd broken (word begins goesOn)
  | name begins goesOn => exact absurd broken (word begins goesOn)
  | @string body unquoted => exact ⟨body, unquoted, rfl⟩
  | whole _ decimal =>
    have digit := decimal _ broken
    simp [newline] at digit
  | fraction _ decimal _ further =>
    rcases List.mem_append.mp broken with listed | listed
    · have digit := decimal _ listed
      simp [newline] at digit
    · rcases List.mem_cons.mp listed with point | listed
      · exact absurd point (by decide)
      · have digit := further _ listed
        simp [newline] at digit

/-- What begins a text and a newline begins the text, or has all of it and the newline. -/
theorem prefix_or_newline {text source rest : List Char}
    (starts : text <+: source ++ '\n' :: rest) :
    text <+: source ∨ source ++ ['\n'] <+: text := by
  have whole : source ++ ['\n'] <+: source ++ '\n' :: rest := by simp
  rcases Nat.lt_or_ge source.length text.length with longer | shorter
  · refine .inr (List.prefix_of_prefix_length_le whole starts ?_)
    rw [List.length_append]
    exact longer
  · exact .inl (List.prefix_of_prefix_length_le starts (List.prefix_append source _) shorter)

namespace Piece

/-- Where there is no blank and no comment, a newline after the text makes none. -/
theorem not_beginsTrivia_newline {source rest : List Char} (solid : ¬ BeginsTrivia source)
    (present : source ≠ []) : ¬ BeginsTrivia (source ++ '\n' :: rest) := by
  obtain ⟨c, tail, rfl⟩ := List.exists_cons_of_ne_nil present
  rintro (⟨d, found, separator⟩ | slashes)
  · exact solid (.inl ⟨d, found, separator⟩)
  · rcases prefix_or_newline slashes with begins | ⟨after, same⟩
    · exact solid (.inr begins)
    · -- A single slash and the newline are not two slashes.
      have listed : '\n' ∈ ['/', '/'] := same ▸ by simp
      exact absurd listed (by decide)

/-- The longest token at a place stays the longest if a newline follows the text. -/
theorem isLongest_newline {lexeme : Lexeme} {source : List Char} (rest : List Char)
    (longest : lexeme.IsLongest source) : lexeme.IsLongest (source ++ '\n' :: rest) where
  spelled := longest.spelled
  starts := longest.starts.trans (List.prefix_append _ _)
  longest := by
    intro kind text spelled starts
    rcases prefix_or_newline starts with begins | beyond
    · exact longest.longest kind text spelled begins
    -- A token over the newline is a string, and then so is the one that was found.
    · obtain ⟨body, unquoted, rfl⟩ :=
        spelled.eq_string_of_newline (beyond.subset (by simp))
      obtain ⟨c, tail, shape⟩ := List.exists_cons_of_ne_nil longest.spelled.ne_nil
      obtain ⟨after, rfl⟩ := longest.starts
      rw [shape, List.cons_append, List.cons_append, List.cons_append,
        List.cons_prefix_cons] at beyond
      obtain ⟨rfl, inside⟩ := beyond
      have quoted := longest.spelled.mem_of_quote shape
      have within : tail ++ after <+: body := by
        refine List.prefix_of_prefix_length_le
          ((List.prefix_append _ _).trans inside) (List.prefix_append _ _) ?_
        have fits := inside.length_le
        simp only [List.length_append, List.length_singleton] at fits ⊢
        omega
      exact absurd (within.subset (List.mem_append_left _ quoted)) unquoted

/-- A comment or token that opens a text also opens it if a newline follows the text. -/
theorem Opens.newline {piece : Piece} {source : List Char} (rest : List Char)
    (opens : piece.Opens source) (solid : ∀ characters, piece ≠ .blank characters)
    (right : piece.cause? = none) : piece.Opens (source ++ '\n' :: rest) := by
  cases opens with
  | blank => exact absurd rfl (solid _)
  | comment slashes line ends =>
    refine .comment slashes line ?_
    intro c found
    cases source with
    | nil => simpa using found.symm
    | cons d tail => exact ends c found
  | token begins longest =>
    have present := longest.spelled.ne_nil
    refine .token ?_ ?_
    · rw [← List.append_assoc]
      exact not_beginsTrivia_newline begins (by simp [present])
    · rw [← List.append_assoc]
      exact isLongest_newline rest longest
  | unexpected => simp [cause?] at right
  | unterminated => simp [cause?] at right

end Piece

/-- The pieces of a text are one that opens it and the pieces of what follows. -/
theorem Piece.all_of_opens {piece : Piece} {rest : List Char} (opens : piece.Opens rest) :
    all (piece.characters ++ rest) = piece :: all rest :=
  (Decomposes.step opens (decomposes_all rest)).eq_all.symm

namespace Scan

/-- A run of separators only moves what follows. -/
theorem ofPieces_takeWhile (position : Position) (source : List Char) :
    ofPieces position (Piece.all source) =
      ofPieces (position.afterAll (source.takeWhile isSeparator))
        (Piece.all (source.dropWhile isSeparator)) := by
  cases source with
  | nil => rfl
  | cons c tail =>
    by_cases separator : isSeparator c
    · have opens : (Piece.blank ((c :: tail).takeWhile isSeparator)).Opens
          ((c :: tail).dropWhile isSeparator) := by
        rw [← Piece.first_of_separator separator]
        refine Piece.first_opens ?_
        rw [Piece.first_of_separator separator]
        exact List.takeWhile_append_dropWhile
      have cut := Piece.all_of_opens opens
      rw [Piece.characters, List.takeWhile_append_dropWhile] at cut
      rw [cut]
      rfl
    · rw [List.takeWhile_cons_of_neg separator, List.dropWhile_cons_of_neg separator]
      rfl

/-- Separators before a text only move its tokens. -/
theorem ofPieces_separators (position : Position) {blank : List Char}
    (separators : ∀ c ∈ blank, isSeparator c) (rest : List Char) :
    ofPieces position (Piece.all (blank ++ rest)) =
      ofPieces (position.afterAll blank) (Piece.all rest) := by
  rw [ofPieces_takeWhile, List.takeWhile_append_of_pos separators,
    List.dropWhile_append_of_pos separators, Position.afterAll_append, ← ofPieces_takeWhile]

/-- The tokens of a text some lines further down are those of the text there, and its errors are as
many. -/
theorem ofSource_down (source : String) (lines : Nat) :
    (ofSource (Text.down source lines)).tokens =
        (ofSource source).tokens.map (Token.down · lines) ∧
      (ofSource (Text.down source lines)).errors.length = (ofSource source).errors.length := by
  have blank : ∀ c ∈ List.replicate lines '\n', isSeparator c := by
    intro c listed
    rw [List.eq_of_mem_replicate listed]
    rfl
  rw [ofSource, Text.down, String.toList_append, String.toList_ofList,
    ofPieces_separators _ blank, Position.afterAll_newlines]
  exact ofPieces_down .start lines (Piece.all source.toList)

/-- A text without errors gives its tokens, and after a newline there follow those of the further
text. -/
theorem ofPieces_joined {source : List Char} {pieces : List Piece} (cut : Decomposes source pieces)
    (right : ∀ piece ∈ pieces, piece.cause? = none) (position : Position) (rest : List Char) :
    ∃ tokens, (∀ token ∈ tokens, token.kind ≠ .endOfFile) ∧
      (ofPieces position pieces).tokens =
        tokens ++ [⟨.endOfFile, "", .point (position.afterAll source)⟩] ∧
      (ofPieces position (Piece.all (source ++ '\n' :: rest))).tokens =
        tokens ++ (ofPieces ((position.afterAll source).after '\n') (Piece.all rest)).tokens ∧
      (ofPieces position (Piece.all (source ++ '\n' :: rest))).errors =
        (ofPieces ((position.afterAll source).after '\n') (Piece.all rest)).errors := by
  induction cut generalizing position with
  | done =>
    have moved : ofPieces position (Piece.all (['\n'] ++ rest)) =
        ofPieces (position.after '\n') (Piece.all rest) :=
      ofPieces_separators position (by simp [isSeparator]) rest
    refine ⟨[], by simp, rfl, ?_, ?_⟩
    · exact congrArg Scan.tokens moved
    · exact congrArg Scan.errors moved
  | @step piece source pieces opens after ih =>
    have found := right piece List.mem_cons_self
    obtain ⟨tokens, proper, ended, joined, errors⟩ :=
      ih (fun other listed => right other (List.mem_cons_of_mem _ listed))
        (position.afterAll piece.characters)
    rw [← Position.afterAll_append] at ended joined errors
    rw [List.append_assoc]
    cases opens with
    | blank present separators ends =>
      rw [Piece.characters, ofPieces_separators position separators]
      exact ⟨tokens, proper, ended, joined, errors⟩
    | comment slashes line ends =>
      have opened := (Piece.Opens.comment slashes line ends).newline rest (by simp) found
      rw [Piece.all_of_opens opened]
      exact ⟨tokens, proper, ended, joined, errors⟩
    | @token lexeme _ solid longest =>
      have opened := (Piece.Opens.token solid longest).newline rest (by simp) found
      have kind : lexeme.kind ≠ .endOfFile := by
        intro last
        have spelled := longest.spelled
        rw [last] at spelled
        cases spelled
      rw [Piece.all_of_opens opened]
      refine ⟨⟨lexeme.kind, String.ofList lexeme.characters,
        extent position (position.afterAll lexeme.characters)⟩ :: tokens, ?_, ?_, ?_, errors⟩
      · exact List.forall_mem_cons.mpr ⟨kind, proper⟩
      · exact congrArg (List.cons _) ended
      · exact congrArg (List.cons _) joined
    | unexpected => simp [Piece.cause?] at found
    | unterminated => simp [Piece.cause?] at found

/-- The tokens of a text without errors and of a further one below it are those of the first, and
then those of the second as far down as it stands; the errors are as many as those of the second.
-/
theorem ofSource_joined {first : String} (right : (ofSource first).errors = [])
    (second : String) :
    ∃ tokens last, (∀ token ∈ tokens, token.kind ≠ .endOfFile) ∧ last.kind = .endOfFile ∧
      (ofSource first).tokens = tokens ++ [last] ∧
      (ofSource (first ++ "\n" ++ second)).tokens =
        tokens ++ (ofSource (Text.down second (first.toList.count '\n' + 1))).tokens ∧
      (ofSource (first ++ "\n" ++ second)).errors.length =
        (ofSource (Text.down second (first.toList.count '\n' + 1))).errors.length := by
  have causes := errors_ofPieces .start (Piece.all first.toList)
  have none : ∀ piece ∈ Piece.all first.toList, piece.cause? = none := by
    rw [← List.filterMap_eq_nil_iff, ← causes]
    exact congrArg (List.map LexicalError.cause) right
  obtain ⟨tokens, proper, ended, joined, errors⟩ :=
    ofPieces_joined (decomposes_all first.toList) none .start second.toList
  obtain ⟨lowered, faults⟩ := ofSource_down second (first.toList.count '\n' + 1)
  have moved := ofPieces_down .start (first.toList.count '\n' + 1) (Piece.all second.toList)
  rw [Position.after_newline] at joined errors
  have text : (first ++ "\n" ++ second).toList = first.toList ++ '\n' :: second.toList := by
    simp [String.toList_append]
  refine ⟨tokens, _, proper, rfl, ended, ?_, ?_⟩
  · rw [lowered, ofSource, text, joined, moved.1]
    rfl
  · rw [faults, ofSource, text, errors, moved.2]
    rfl

/-- The tokens of a text without errors are proper ones and an end. -/
theorem tokens_ended {source : String} (right : (ofSource source).errors = []) :
    ∃ tokens last, (∀ token ∈ tokens, token.kind ≠ .endOfFile) ∧ last.kind = .endOfFile ∧
      (ofSource source).tokens = tokens ++ [last] := by
  obtain ⟨tokens, last, proper, ends, whole, -⟩ := ofSource_joined right ""
  exact ⟨tokens, last, proper, ends, whole⟩

end Scan

end KoreanLox
