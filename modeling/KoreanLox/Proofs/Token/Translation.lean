import KoreanLox.Proofs.Token.Lookahead
import KoreanLox.Proofs.Token.Spans

/-!
# Keywords in the other language

Both spellings of a keyword begin with a letter and go on with name characters, so a token beside a
keyword cannot tell which of the two is written. Writing any of the keywords of a text in the other
language therefore leaves the kinds and the lines of all tokens and all errors as they are
(`Scan.ofSource_translated`), whatever stands around the keywords.
-/

namespace KoreanLox

/-- The other spelling of a keyword that is written in one of its two ways. -/
def Keyword.otherSpelling (word : Keyword) (text : List Char) : List Char :=
  if text = word.english.toList then word.korean.toList else word.english.toList

/-- A keyword in the other language, and any other token as it is. -/
def Lexeme.translated (lexeme : Lexeme) : Lexeme :=
  match lexeme.kind with
  | .keyword word => ⟨.keyword word, word.otherSpelling lexeme.characters⟩
  | _ => lexeme

/-- Some pieces with the chosen ones among the tokens translated. -/
def Piece.translateAll (chosen : Nat → Bool) : List Piece → List Piece
  | [] => []
  | .token lexeme :: rest =>
    .token (if chosen 0 then lexeme.translated else lexeme) ::
      translateAll (fun index => chosen (index + 1)) rest
  | piece :: rest => piece :: translateAll chosen rest

/-- A text with those keywords in the other language that stand at the chosen places among its
tokens. -/
def Text.translated (chosen : Nat → Bool) (source : String) : String :=
  String.ofList ((Piece.translateAll chosen (Piece.all source.toList)).flatMap Piece.characters)

/-- The lines on which a region begins and ends. -/
def Span.lines (span : Span) : Nat × Nat := (span.start.line, span.finish.line)

/-! ## Texts that cannot be told apart by looking ahead -/

/-- Two texts are the same up to their ends, or up to a place where each goes on with a letter. -/
inductive Akin : List Char → List Char → Prop where
  | done : Akin [] []
  | same (c : Char) {rest rest' : List Char} (after : Akin rest rest') :
    Akin (c :: rest) (c :: rest')
  | letters {c c' : Char} {rest rest' : List Char} (letter : isLetter c) (letter' : isLetter c') :
    Akin (c :: rest) (c' :: rest')

namespace Akin

variable {source source' rest rest' : List Char}

/-- The same text before two that are akin. -/
theorem append (text : List Char) (akin : Akin rest rest') :
    Akin (text ++ rest) (text ++ rest') := by
  induction text with
  | nil => exact akin
  | cons c text ih => exact .same c ih

/-- If one of two texts goes on with a character that is no letter, so does the other. -/
theorem tail {c : Char} (akin : Akin source (c :: rest')) (other : isLetter c = false) :
    ∃ rest, source = c :: rest ∧ Akin rest rest' := by
  cases akin with
  | same c after => exact ⟨_, rfl, after⟩
  | letters _ letter' =>
    rw [other] at letter'
    exact absurd letter' Bool.false_ne_true

/-- If one of two texts prolongs a token, so does the other. -/
theorem prolongs (akin : Akin rest rest') {text : List Char} (prolongs : Prolongs text rest') :
    Prolongs text rest := by
  cases prolongs with
  | equal takes =>
    obtain ⟨_, rfl, -⟩ := akin.tail (by decide)
    exact .equal takes
  | word begins goesOn =>
    cases akin with
    | same => exact .word begins goesOn
    | letters letter => exact .word begins (isNameCharacter_of_isLetter letter)
  | digit begins further =>
    obtain ⟨_, rfl, -⟩ := akin.tail (isLetter_of_isDigit further)
    exact .digit begins further
  | point decimal further =>
    obtain ⟨_, rfl, after⟩ := akin.tail (by decide)
    obtain ⟨_, rfl, -⟩ := after.tail (isLetter_of_isDigit further)
    exact .point decimal further

/-- If one of two texts begins with a separator or a comment, so does the other. -/
theorem beginsTrivia (akin : Akin source source') (begins : BeginsTrivia source') :
    BeginsTrivia source := by
  rcases begins with ⟨c, found, separator⟩ | ⟨after, rfl⟩
  · cases akin with
    | done => exact absurd found (by simp)
    | same => exact .inl ⟨c, found, separator⟩
    | @letters _ c' _ _ _ letter' =>
      obtain rfl : c' = c := by simpa using found
      rw [isSeparator_of_isNameCharacter (isNameCharacter_of_isLetter letter')] at separator
      exact absurd separator Bool.false_ne_true
  · obtain ⟨_, rfl, second⟩ := akin.tail (by decide)
    obtain ⟨_, rfl, -⟩ := second.tail (by decide)
    exact .inr ⟨_, rfl⟩

end Akin

/-- What prolongs a word prolongs every word. -/
theorem Prolongs.word_of_word {first first' : Char} {inner inner' rest : List Char}
    (prolongs : Prolongs (first' :: inner') rest) (letter' : isLetter first')
    (letter : isLetter first) : Prolongs (first :: inner) rest := by
  cases prolongs with
  | equal takes =>
    simp only [List.mem_cons, List.not_mem_nil, or_false] at takes
    rcases takes with rfl | rfl | rfl | rfl <;> exact absurd letter' (by decide)
  | word _ goesOn => exact .word letter goesOn
  | digit begins =>
    rw [isDigit_of_isLetter letter'] at begins
    exact absurd begins Bool.false_ne_true
  | point decimal =>
    have begins := decimal first' List.mem_cons_self
    rw [isDigit_of_isLetter letter'] at begins
    exact absurd begins Bool.false_ne_true

/-! ## Pieces in the other language -/

/-- A piece as it is, or a keyword in either of its spellings. -/
inductive Piece.Respelled : Piece → Piece → Prop where
  | same (piece : Piece) : Respelled piece piece
  | keyword {word : Keyword} {text text' : List Char}
    (written : text = word.english.toList ∨ text = word.korean.toList)
    (written' : text' = word.english.toList ∨ text' = word.korean.toList) :
    Respelled (.token ⟨.keyword word, text⟩) (.token ⟨.keyword word, text'⟩)

/-- A token and its translation are the same token, or a keyword in two spellings. -/
theorem Spells.translated {kind : Kind} {text : List Char} (spelled : Spells kind text) :
    (Piece.token ⟨kind, text⟩).Respelled (.token (Lexeme.translated ⟨kind, text⟩)) := by
  cases spelled with
  | @keyword word _ written =>
    refine .keyword written ?_
    show (if text = word.english.toList then word.korean.toList else word.english.toList) = _ ∨
      (if text = word.english.toList then word.korean.toList else word.english.toList) = _
    by_cases english : text = word.english.toList
    · exact .inr (if_pos english)
    · exact .inl (if_neg english)
  | mark | name | string | whole | fraction => exact .same _

/-- Both spellings of a keyword are without newlines. -/
theorem Piece.Respelled.count_newline {piece piece' : Piece} (respelled : piece.Respelled piece') :
    piece.characters.count '\n' = piece'.characters.count '\n' := by
  have none {word : Keyword} {text : List Char}
      (written : text = word.english.toList ∨ text = word.korean.toList) :
      text.count '\n' = 0 := by
    rcases written with rfl | rfl <;> cases word <;> decide
  cases respelled with
  | same => rfl
  | keyword written written' => exact (none written).trans (none written').symm

/-- The first character of a token is a token by itself, unless it is a quote. -/
theorem Spells.head_alone {kind : Kind} {text : List Char} (spelled : Spells kind text)
    {first : Char} {rest : List Char} (shape : text = first :: rest) (unquoted : first ≠ '"') :
    ∃ alone, Spells alone [first] := by
  rcases spelled.head_cases shape with ⟨symbol, same⟩ | ⟨letter, -⟩ | quote | digit
  · have single : ∀ symbol ∈ Mark.all, ∃ other ∈ Mark.all,
        other.spelling = symbol.spelling.take 1 := by decide
    obtain ⟨other, -, taken⟩ := single symbol symbol.mem_all
    have alone := Spells.mark other
    rw [taken, same] at alone
    exact ⟨.mark other, alone⟩
  · exact ⟨_, Lexeme.ofWord_spells letter (by simp)⟩
  · exact absurd quote unquoted
  · exact ⟨_, .whole (List.cons_ne_nil first []) (List.forall_mem_singleton.mpr digit)⟩

/-- The two spellings of a keyword before texts that are akin are akin. -/
theorem Akin.respelled {piece piece' : Piece} (respelled : piece.Respelled piece')
    {rest rest' : List Char} (akin : Akin rest rest') :
    Akin (piece.characters ++ rest) (piece'.characters ++ rest') := by
  cases respelled with
  | same => exact akin.append piece.characters
  | keyword written written' =>
    obtain ⟨-, first, inner, rfl, letter, -⟩ := Keyword.ofText?_spelling _ written
    obtain ⟨-, first', inner', rfl, letter', -⟩ := Keyword.ofText?_spelling _ written'
    exact .letters letter letter'

namespace Piece.Opens

variable {piece piece' : Piece} {rest rest' : List Char}

/-- A piece opens a text in either language of the keywords. -/
theorem respelled (opens : piece.Opens rest) (respelled : piece.Respelled piece')
    (akin : Akin rest rest') : piece'.Opens rest' := by
  have whole := akin.respelled respelled
  cases respelled with
  | @keyword word text text' written written' =>
    cases opens with
    | token solid longest =>
      have spelled : Spells (.keyword word) text' := .keyword written'
      refine .token (fun begins => solid (whole.beginsTrivia begins))
        ((spelled.isLongest_iff rest').mpr fun prolongs => ?_)
      have ends := (longest.spelled.isLongest_iff rest).mp longest
      have earlier := akin.prolongs prolongs
      obtain ⟨-, first, inner, rfl, letter, -⟩ := Keyword.ofText?_spelling _ written
      obtain ⟨-, first', inner', rfl, letter', -⟩ := Keyword.ofText?_spelling _ written'
      exact ends (earlier.word_of_word letter' letter)
  | same =>
    cases opens with
    | blank present separators ends =>
      refine .blank present separators fun c found => ?_
      cases akin with
      | done => exact ends c found
      | same => exact ends c found
      | @letters _ c' _ _ _ letter' =>
        obtain rfl : c' = c := by simpa using found
        rw [isSeparator_of_isNameCharacter (isNameCharacter_of_isLetter letter')]
        exact Bool.false_ne_true
    | comment slashes line ends =>
      refine .comment slashes line fun c found => ?_
      cases akin with
      | done => exact ends c found
      | same => exact ends c found
      | @letters d _ _ _ letter _ =>
        have newline := ends d rfl
        rw [newline] at letter
        exact absurd letter (by decide)
    | token solid longest =>
      refine .token (fun begins => solid (whole.beginsTrivia begins))
        ((longest.spelled.isLongest_iff rest').mpr fun prolongs => ?_)
      exact (longest.spelled.isLongest_iff rest).mp longest (akin.prolongs prolongs)
    | @unexpected c _ solid unknown unquoted =>
      refine .unexpected (fun begins => solid (whole.beginsTrivia begins)) ?_ unquoted
      -- A token at this place would begin with the character, which would then be one by itself.
      intro kind text spelled starts
      obtain ⟨first, inner, shape⟩ := List.exists_cons_of_ne_nil spelled.ne_nil
      obtain ⟨rfl, -⟩ := List.cons_prefix_cons.mp (shape ▸ starts)
      obtain ⟨alone, single⟩ := spelled.head_alone shape unquoted
      exact unknown alone [first] single ⟨rest, rfl⟩
    | unterminated unquoted =>
      cases akin
      exact .unterminated unquoted

end Piece.Opens

/-- A text with some keywords in the other language is cut into the same pieces, with these keywords
in the other language. -/
theorem Decomposes.respelled {source : List Char} {pieces : List Piece}
    (cut : Decomposes source pieces) {others : List Piece}
    (matching : List.Forall₂ Piece.Respelled pieces others) :
    Decomposes (others.flatMap Piece.characters) others ∧
      Akin source (others.flatMap Piece.characters) := by
  induction cut generalizing others with
  | done =>
    cases matching
    exact ⟨.done, .done⟩
  | step opens after ih =>
    cases matching with
    | cons respelled later =>
      obtain ⟨cut, akin⟩ := ih later
      exact ⟨.step (opens.respelled respelled akin) cut, akin.respelled respelled⟩

/-- Translated pieces are the pieces, or keywords in another spelling. -/
theorem Decomposes.translateAll {source : List Char} {pieces : List Piece}
    (cut : Decomposes source pieces) (chosen : Nat → Bool) :
    List.Forall₂ Piece.Respelled pieces (Piece.translateAll chosen pieces) := by
  induction cut generalizing chosen with
  | done => exact .nil
  | @step piece rest pieces opens after ih =>
    cases opens with
    | blank => exact .cons (.same _) (ih chosen)
    | comment => exact .cons (.same _) (ih chosen)
    | unexpected => exact .cons (.same _) (ih chosen)
    | unterminated => exact .cons (.same _) (ih chosen)
    | @token lexeme _ solid longest =>
      refine .cons ?_ (ih fun index => chosen (index + 1))
      by_cases picked : chosen 0
      · rw [if_pos picked]
        exact longest.spelled.translated
      · rw [if_neg picked]
        exact .same _

/-! ## Lines -/

namespace Scan

/-- The region of a piece begins on the line of its start and ends on the line that its characters
lead to. -/
theorem lines_extent (position : Position) (text : List Char) :
    (extent position (position.afterAll text)).lines =
      (position.line, position.line + text.count '\n') := by
  have last : (position.afterAll text).back.line = position.line + text.count '\n' :=
    position.line_afterAll text
  show ((if position.le (position.afterAll text).back then position
      else (position.afterAll text).back).line,
    (if (position.afterAll text).back.le position then position
      else (position.afterAll text).back).line) = _
  rw [Prod.mk.injEq]
  constructor
  · by_cases forward : position.le (position.afterAll text).back
    · rw [if_pos forward]
    · rw [if_neg forward]
      rw [Position.le_iff] at forward
      omega
  · by_cases backward : (position.afterAll text).back.le position
    · rw [if_pos backward]
      rw [Position.le_iff] at backward
      omega
    · rw [if_neg backward, last]

/-- Pieces and the same pieces with keywords in the other language give tokens and errors of the
same kinds on the same lines, if they begin on the same line. -/
theorem lines_respelled {pieces others : List Piece}
    (matching : List.Forall₂ Piece.Respelled pieces others) {position position' : Position}
    (level : position.line = position'.line) :
    (ofPieces position pieces).tokens.map (fun token => (token.kind, token.span.lines)) =
        (ofPieces position' others).tokens.map (fun token => (token.kind, token.span.lines)) ∧
      (ofPieces position pieces).errors.map (fun error => (error.cause, error.span.lines)) =
        (ofPieces position' others).errors.map (fun error => (error.cause, error.span.lines)) := by
  induction matching generalizing position position' with
  | nil => simp [ofPieces, Span.lines, Span.point, level]
  | @cons piece piece' pieces others respelled later ih =>
    have counts := respelled.count_newline
    have below : (position.afterAll piece.characters).line =
        (position'.afterAll piece'.characters).line := by
      rw [Position.line_afterAll, Position.line_afterAll, level, counts]
    have regions : (extent position (position.afterAll piece.characters)).lines =
        (extent position' (position'.afterAll piece'.characters)).lines := by
      rw [lines_extent, lines_extent, level, counts]
    obtain ⟨tokens, errors⟩ := ih below
    cases respelled with
    | keyword => exact ⟨congrArg₂ List.cons (congrArg (Prod.mk _) regions) tokens, errors⟩
    | same =>
      cases piece with
      | blank => exact ⟨tokens, errors⟩
      | comment => exact ⟨tokens, errors⟩
      | token => exact ⟨congrArg₂ List.cons (congrArg (Prod.mk _) regions) tokens, errors⟩
      | unexpected character =>
        have points : (Span.point position).lines = (Span.point position').lines :=
          congrArg₂ Prod.mk level level
        exact ⟨tokens, congrArg₂ List.cons (congrArg (Prod.mk _) points) errors⟩
      | unterminated =>
        exact ⟨tokens, congrArg₂ List.cons (congrArg (Prod.mk _) regions) errors⟩

/-- A text in which any choice of the keywords is written in the other language has tokens of the
same kinds on the same lines, and the same errors on the same lines. -/
theorem ofSource_translated (source : String) (chosen : Nat → Bool) :
    (ofSource (Text.translated chosen source)).tokens.map
          (fun token => (token.kind, token.span.lines)) =
        (ofSource source).tokens.map (fun token => (token.kind, token.span.lines)) ∧
      (ofSource (Text.translated chosen source)).errors.map
          (fun error => (error.cause, error.span.lines)) =
        (ofSource source).errors.map (fun error => (error.cause, error.span.lines)) := by
  have matching := (decomposes_all source.toList).translateAll chosen
  have cut := ((decomposes_all source.toList).respelled matching).1
  have alike := lines_respelled matching (Eq.refl Position.start.line)
  rw [ofSource, Text.translated, String.toList_ofList, ← cut.eq_all]
  exact ⟨alike.1.symm, alike.2.symm⟩

example : Text.translated (· != 2) "if(x)3.널/만약and4\"or" = "만약(x)3.nil/만약and4\"or" := by
  decide +kernel

end Scan

end KoreanLox
