import KoreanLox.Proofs.Token.Decomposition

/-!
# Looking ahead

How far a token reaches is decided by at most two characters after it: a mark goes on with an equals
sign, a word with a name character, a number with a digit or with a point and a digit, and a string
never (`Prolongs`). A text of some class is the longest token at its place exactly if what follows
does not prolong it (`Spells.isLongest_iff`).
-/

namespace KoreanLox

/-- What follows a text of some class makes a longer token of it. -/
inductive Prolongs : List Char → List Char → Prop where
  /-- An equals sign after a mark that takes one. -/
  | equal {c : Char} {rest : List Char} (takes : c ∈ ['!', '=', '<', '>']) :
    Prolongs [c] ('=' :: rest)
  /-- A name character after a word. -/
  | word {first c : Char} {inner rest : List Char} (begins : isLetter first)
    (goesOn : isNameCharacter c) : Prolongs (first :: inner) (c :: rest)
  /-- A digit after a number. -/
  | digit {first c : Char} {inner rest : List Char} (begins : first.isDigit)
    (further : c.isDigit) : Prolongs (first :: inner) (c :: rest)
  /-- A point and a digit after a whole number. -/
  | point {digits : List Char} {c : Char} {rest : List Char} (decimal : ∀ d ∈ digits, d.isDigit)
    (further : c.isDigit) : Prolongs digits ('.' :: c :: rest)

/-- What stands in a name is no separator. -/
theorem isSeparator_of_isNameCharacter {c : Char} (inside : isNameCharacter c) :
    isSeparator c = false := by
  rw [Bool.eq_false_iff]
  intro separator
  simp only [isSeparator, Bool.or_eq_true, beq_iff_eq] at separator
  rcases separator with ((rfl | rfl) | rfl) | rfl <;> exact absurd inside (by decide)

/-- A letter may stand in a name. -/
theorem isNameCharacter_of_isLetter {c : Char} (letter : isLetter c) : isNameCharacter c := by
  rw [isNameCharacter, letter, Bool.true_or]

/-- A digit may stand in a name. -/
theorem isNameCharacter_of_isDigit {c : Char} (digit : c.isDigit) : isNameCharacter c := by
  rw [isNameCharacter, digit, Bool.or_true]

/-- No digit is a letter. -/
theorem isLetter_of_isDigit {c : Char} (digit : c.isDigit) : isLetter c = false := by
  rw [Bool.eq_false_iff]
  intro letter
  rw [isDigit_of_isLetter letter] at digit
  exact Bool.false_ne_true digit

namespace Mark

/-- A mark begins with no letter, digit or separator, and it ends after a slash. -/
theorem head_spelling {symbol : Mark} {first : Char} {rest : List Char}
    (shape : symbol.spelling = first :: rest) :
    isNameCharacter first = false ∧ isSeparator first = false ∧ (first = '/' → rest = []) := by
  cases symbol <;> obtain ⟨rfl, rfl⟩ := List.cons.inj shape <;> decide

/-- A mark that goes on after a part of it is one character and an equals sign. -/
theorem spelling_eq_append {symbol : Mark} {text more : List Char} {c : Char}
    (shape : symbol.spelling = text ++ c :: more) (present : text ≠ []) :
    ∃ d ∈ ['!', '=', '<', '>'], text = [d] ∧ c = '=' := by
  have short : symbol.spelling.length = 1 ∨
      ∃ d ∈ ['!', '=', '<', '>'], symbol.spelling = [d, '='] := by
    cases symbol <;> simp [spelling]
  obtain ⟨first, inner, rfl⟩ := List.exists_cons_of_ne_nil present
  rcases short with single | ⟨d, takes, double⟩
  · rw [shape] at single
    simp at single
  · rw [double] at shape
    have lengths := congrArg List.length shape
    have empty : inner.length = 0 := by
      simp only [List.length_cons, List.length_append, List.length_nil] at lengths
      omega
    obtain rfl := List.length_eq_zero_iff.mp empty
    obtain ⟨rfl, same⟩ := List.cons.inj shape
    exact ⟨d, takes, rfl, (List.cons.inj same).1.symm⟩

end Mark

namespace Spells

variable {kind : Kind} {text : List Char}

/-- A token is a mark, a word, a string or a number by its first character. -/
theorem head_cases (spelled : Spells kind text) {first : Char} {rest : List Char}
    (shape : text = first :: rest) :
    (∃ symbol : Mark, symbol.spelling = first :: rest) ∨
      (isLetter first ∧ ∀ c ∈ rest, isNameCharacter c) ∨ first = '"' ∨ first.isDigit := by
  cases spelled with
  | mark symbol => exact .inl ⟨symbol, shape⟩
  | keyword written =>
    obtain ⟨-, head, tail, rfl, begins, goesOn⟩ := Keyword.ofText?_spelling _ written
    obtain ⟨rfl, rfl⟩ := List.cons.inj shape
    exact .inr (.inl ⟨begins, goesOn⟩)
  | name begins goesOn =>
    obtain ⟨rfl, rfl⟩ := List.cons.inj shape
    exact .inr (.inl ⟨begins, goesOn⟩)
  | string => exact .inr (.inr (.inl (List.cons.inj shape).1.symm))
  | whole _ decimal =>
    have digit := decimal first (by rw [shape]; exact List.mem_cons_self)
    exact .inr (.inr (.inr digit))
  | @fraction digits places present decimal =>
    obtain ⟨head, tail, rfl⟩ := List.exists_cons_of_ne_nil present
    obtain ⟨rfl, -⟩ := List.cons.inj shape
    exact .inr (.inr (.inr (decimal head List.mem_cons_self)))

/-- A token that begins with a letter is a word. -/
theorem goesOn_of_letter (spelled : Spells kind text) {first : Char} {rest : List Char}
    (shape : text = first :: rest) (letter : isLetter first) :
    ∀ c ∈ rest, isNameCharacter c := by
  rcases spelled.head_cases shape with ⟨symbol, same⟩ | ⟨-, goesOn⟩ | rfl | digit
  · have begins := isNameCharacter_of_isLetter letter
    rw [(Mark.head_spelling same).1] at begins
    exact absurd begins Bool.false_ne_true
  · exact goesOn
  · exact absurd letter (by decide)
  · rw [isDigit_of_isLetter letter] at digit
    exact absurd digit Bool.false_ne_true

/-- A token that begins with a digit is a number, also with one more digit after it. -/
theorem exists_concat_digit (spelled : Spells kind text) {first c : Char} {rest : List Char}
    (shape : text = first :: rest) (digit : first.isDigit) (further : c.isDigit) :
    ∃ longer, Spells longer (text ++ [c]) := by
  have other (letter : isLetter first) : False := by
    rw [isDigit_of_isLetter letter] at digit
    exact Bool.false_ne_true digit
  cases spelled with
  | mark symbol =>
    have begins := isNameCharacter_of_isDigit digit
    rw [(Mark.head_spelling shape).1] at begins
    exact absurd begins Bool.false_ne_true
  | keyword written =>
    obtain ⟨-, head, tail, rfl, begins, -⟩ := Keyword.ofText?_spelling _ written
    obtain ⟨rfl, -⟩ := List.cons.inj shape
    exact absurd begins other
  | name begins =>
    obtain ⟨rfl, -⟩ := List.cons.inj shape
    exact absurd begins other
  | string =>
    obtain ⟨rfl, -⟩ := List.cons.inj shape
    exact absurd digit (by decide)
  | whole _ decimal =>
    refine ⟨_, .whole (by simp) ?_⟩
    exact List.forall_mem_append.mpr ⟨decimal, List.forall_mem_singleton.mpr further⟩
  | @fraction digits places present decimal _ places' =>
    rw [List.append_assoc, List.cons_append]
    refine ⟨_, .fraction present decimal (by simp) ?_⟩
    exact List.forall_mem_append.mpr ⟨places', List.forall_mem_singleton.mpr further⟩

/-- A token begins with no separator, and it ends after a slash. -/
theorem head_solid (spelled : Spells kind text) {first : Char} {rest : List Char}
    (shape : text = first :: rest) : isSeparator first = false ∧ (first = '/' → rest = []) := by
  have named (inside : isNameCharacter first) :
      isSeparator first = false ∧ (first = '/' → rest = []) := by
    refine ⟨isSeparator_of_isNameCharacter inside, ?_⟩
    rintro rfl
    exact absurd inside (by decide)
  rcases spelled.head_cases shape with ⟨symbol, same⟩ | ⟨letter, -⟩ | rfl | digit
  · exact (Mark.head_spelling same).2
  · exact named (isNameCharacter_of_isLetter letter)
  · exact ⟨by decide, fun slash => absurd slash (by decide)⟩
  · exact named (isNameCharacter_of_isDigit digit)

/-- What prolongs a token makes a longer one with it. -/
theorem exists_longer (spelled : Spells kind text) {rest : List Char}
    (prolongs : Prolongs text rest) :
    ∃ longer characters, Spells longer characters ∧ characters <+: text ++ rest ∧
      text.length < characters.length := by
  have further {c : Char} {more : List Char} {longer : Kind}
      (found : Spells longer (text ++ [c])) :
      ∃ longer characters, Spells longer characters ∧ characters <+: text ++ c :: more ∧
        text.length < characters.length :=
    ⟨longer, text ++ [c], found, by simp, by simp⟩
  cases prolongs with
  | @equal c rest takes =>
    simp only [List.mem_cons, List.not_mem_nil, or_false] at takes
    rcases takes with rfl | rfl | rfl | rfl
    · exact further (.mark .bangEqual)
    · exact further (.mark .equalEqual)
    · exact further (.mark .lessEqual)
    · exact further (.mark .greaterEqual)
  | word begins goesOn =>
    have inside := spelled.goesOn_of_letter rfl begins
    exact further (Lexeme.ofWord_spells begins
      (List.forall_mem_append.mpr ⟨inside, List.forall_mem_singleton.mpr goesOn⟩))
  | digit begins more =>
    obtain ⟨longer, found⟩ := spelled.exists_concat_digit rfl begins more
    exact further found
  | @point digits c rest decimal more =>
    have found := Spells.fraction spelled.ne_nil decimal (List.cons_ne_nil c [])
      (List.forall_mem_singleton.mpr more)
    exact ⟨_, _, found, by simp, by simp⟩

/-- A token that has another one and further characters is prolonged by these. -/
theorem prolongs_of_append {longer : Kind} {whole more : List Char} {c : Char}
    (found : Spells longer whole) (spelled : Spells kind text) (shape : whole = text ++ c :: more)
    (rest : List Char) : Prolongs text (c :: more ++ rest) := by
  obtain ⟨first, inner, rfl⟩ := List.exists_cons_of_ne_nil spelled.ne_nil
  have word {head : Char} {tail : List Char} (begins : isLetter head)
      (goesOn : ∀ c ∈ tail, isNameCharacter c)
      (shape : head :: tail = first :: inner ++ c :: more) :
      Prolongs (first :: inner) (c :: more ++ rest) := by
    obtain ⟨rfl, rfl⟩ := List.cons.inj shape
    exact .word begins (goesOn c (by simp))
  cases found with
  | mark symbol =>
    obtain ⟨d, takes, single, rfl⟩ := Mark.spelling_eq_append shape (List.cons_ne_nil first inner)
    rw [single]
    exact .equal takes
  | keyword written =>
    obtain ⟨-, head, tail, rfl, begins, goesOn⟩ := Keyword.ofText?_spelling _ written
    exact word begins goesOn shape
  | name begins goesOn => exact word begins goesOn shape
  | @string body unquoted =>
    -- The shorter token would be a string, and its closing quote would stand inside the longer one.
    rw [List.cons_append, List.cons_append, List.cons.injEq] at shape
    obtain ⟨rfl, inside⟩ := shape
    have quote := spelled.mem_of_quote rfl
    have shorter := congrArg List.dropLast inside
    rw [List.dropLast_concat, List.dropLast_append_of_ne_nil (List.cons_ne_nil c more)] at shorter
    rw [shorter] at unquoted
    exact absurd (List.mem_append_left _ quote) unquoted
  | @whole digits _ decimal =>
    have begins := decimal first (by simp [shape])
    exact .digit begins (decimal c (by simp [shape]))
  | @fraction digits places present decimal follow further =>
    have point (same : first :: inner = digits) (seam : c :: more = '.' :: places) :
        Prolongs (first :: inner) (c :: more ++ rest) := by
      obtain ⟨place, others, rfl⟩ := List.exists_cons_of_ne_nil follow
      rw [same, seam]
      exact .point decimal (further place List.mem_cons_self)
    -- The shorter token ends before, at or after the point.
    rcases List.append_eq_append_iff.mp shape with ⟨after, same, seam⟩ | ⟨before, same, seam⟩
    · cases after with
      | nil => exact point (by rw [same, List.append_nil]) seam.symm
      | cons d after =>
        obtain ⟨head, tail, rfl⟩ := List.exists_cons_of_ne_nil present
        obtain ⟨rfl, -⟩ := List.cons.inj same
        have listed : c ∈ places := by
          rw [(List.cons.inj seam).2]
          exact List.mem_append_right _ List.mem_cons_self
        exact .digit (decimal first List.mem_cons_self) (further c listed)
    · cases before with
      | nil => exact point (by rw [same, List.append_nil]) seam
      | cons d before =>
        obtain ⟨rfl, -⟩ := List.cons.inj seam
        exact .digit (decimal first (by simp [same])) (decimal c (by simp [same]))

/-- A text of some class is the longest token where it stands exactly if what follows does not
prolong it. -/
theorem isLongest_iff (spelled : Spells kind text) (rest : List Char) :
    Lexeme.IsLongest ⟨kind, text⟩ (text ++ rest) ↔ ¬ Prolongs text rest := by
  constructor
  · intro longest prolongs
    obtain ⟨longer, characters, found, starts, exceeds⟩ := spelled.exists_longer prolongs
    have bounded := longest.longest longer characters found starts
    exact absurd exceeds (Nat.not_lt.mpr bounded)
  · intro ends
    refine ⟨spelled, List.prefix_append text rest, fun longer characters found starts => ?_⟩
    show characters.length ≤ text.length
    by_contra exceeds
    have inside : text <+: characters :=
      List.prefix_of_prefix_length_le (List.prefix_append text rest) starts (by omega)
    obtain ⟨extra, rfl⟩ := inside
    rw [List.prefix_append_right_inj] at starts
    obtain ⟨after, rfl⟩ := starts
    cases extra with
    | nil => simp at exceeds
    | cons c more => exact ends (found.prolongs_of_append spelled rfl after)

end Spells

end KoreanLox
