import KoreanLox.Token.Scan
import Mathlib.Data.List.TakeWhile
import Mathlib.Tactic.Common

/-!
# Longest matches

The classes of tokens are stated here without any matcher: what a text of a class looks like and
what it means (`Spells`). A text falls into pieces of which every token is the longest start of
the text that remains which any class has (`Decomposes`). There is exactly one such way to cut a
text, and scanning finds it (`Scan.ofSource_decomposes`).
-/

namespace KoreanLox

/-- A text belongs to a class of tokens, with a kind that the class and the keywords give it. -/
inductive Spells : Kind → List Char → Prop where
  /-- A mark is written in one way. -/
  | mark (symbol : Mark) : Spells (.mark symbol) symbol.spelling
  /-- A keyword is written in English or in Korean. -/
  | keyword {word : Keyword} {text : List Char}
    (written : text = word.english.toList ∨ text = word.korean.toList) :
    Spells (.keyword word) text
  /-- A name is a letter and name characters that spell no keyword. -/
  | name {first : Char} {rest : List Char} (begins : isLetter first)
    (goesOn : ∀ c ∈ rest, isNameCharacter c)
    (free : ∀ word : Keyword, first :: rest ≠ word.english.toList ∧
      first :: rest ≠ word.korean.toList) :
    Spells (.identifier (String.ofList (first :: rest))) (first :: rest)
  /-- A string stands between two quotes and has none inside. -/
  | string {body : List Char} (unquoted : '"' ∉ body) :
    Spells (.string (String.ofList body)) ('"' :: body ++ ['"'])
  /-- A whole number is a run of digits. -/
  | whole {digits : List Char} (present : digits ≠ []) (decimal : ∀ c ∈ digits, c.isDigit) :
    Spells (.number (Number.ofDecimal (digitsValue digits) 0)) digits
  /-- A number with a fraction has digits on both sides of a point. -/
  | fraction {digits places : List Char} (present : digits ≠ [])
    (decimal : ∀ c ∈ digits, c.isDigit) (follow : places ≠ []) (further : ∀ c ∈ places, c.isDigit) :
    Spells (.number (Number.ofDecimal (digitsValue (digits ++ places)) places.length))
      (digits ++ '.' :: places)

namespace Keyword

/-- Both spellings of a keyword are found to spell it, and they are words. -/
theorem ofText?_spelling (word : Keyword) {text : List Char}
    (written : text = word.english.toList ∨ text = word.korean.toList) :
    ofText? (String.ofList text) = some word ∧
      ∃ first rest, text = first :: rest ∧ isLetter first ∧ ∀ c ∈ rest, isNameCharacter c := by
  rcases written with rfl | rfl
  · cases word <;> exact ⟨by decide, _, _, by rfl, by decide, List.all_eq_true.mp (by decide)⟩
  · cases word <;> exact ⟨by decide, _, _, by rfl, by decide, List.all_eq_true.mp (by decide)⟩

/-- A text that spells a keyword is one of its two spellings. -/
theorem spelling_of_ofText? {text : List Char} {word : Keyword}
    (found : ofText? (String.ofList text) = some word) :
    text = word.english.toList ∨ text = word.korean.toList := by
  have spelled := List.find?_some found
  rw [Bool.or_eq_true, beq_iff_eq, beq_iff_eq] at spelled
  rcases spelled with same | same
  · exact .inl (by rw [same, String.toList_ofList])
  · exact .inr (by rw [same, String.toList_ofList])

end Keyword

namespace Mark

/-- Every mark is listed. -/
theorem mem_all (symbol : Mark) : symbol ∈ all := by
  cases symbol <;> decide

/-- A mark has a first character, which is no quote. -/
theorem exists_head_spelling (symbol : Mark) :
    ∃ head tail, symbol.spelling = head :: tail ∧ head ≠ '"' := by
  cases symbol <;> exact ⟨_, _, rfl, by decide⟩

end Mark

/-- No letter is a digit. -/
theorem isDigit_of_isLetter {c : Char} (letter : isLetter c) : c.isDigit = false := by
  delta isLetter Char.isAlpha Char.isUpper Char.isLower at letter
  simp only [Bool.or_eq_true, Bool.and_eq_true, decide_eq_true_eq, beq_iff_eq, ge_iff_le,
    Char.le_def, UInt32.le_iff_toNat_le] at letter
  rcases letter with ((⟨above, -⟩ | ⟨above, -⟩) | rfl) | ⟨above, -⟩
  case inl.inr => decide
  all_goals
    have last : '9'.val.toNat < c.val.toNat := Nat.lt_of_lt_of_le (by decide) above
    simp only [Char.isDigit, Bool.and_eq_false_iff, decide_eq_false_iff_not,
      UInt32.le_iff_toNat_le]
    exact .inr (Nat.not_le.mpr last)

/-- A text whose characters all pass a test begins the longest such start of every text that it
begins. -/
theorem prefix_takeWhile {text source : List Char} {test : Char → Bool}
    (passes : ∀ c ∈ text, test c) (starts : text <+: source) : text <+: source.takeWhile test := by
  obtain ⟨after, rfl⟩ := starts
  rw [List.takeWhile_append_of_pos passes]
  exact List.prefix_append text _

namespace Lexeme

/-- A word has the kind that the keywords give it. -/
theorem ofWord_spells {first : Char} {rest : List Char} (begins : isLetter first)
    (goesOn : ∀ c ∈ rest, isNameCharacter c) :
    Spells (ofWord (first :: rest)).kind (first :: rest) := by
  unfold ofWord
  dsimp only
  split
  next word found => exact .keyword (Keyword.spelling_of_ofText? found)
  next unknown =>
    refine .name begins goesOn fun word => ⟨fun same => ?_, fun same => ?_⟩
    · have known := (Keyword.ofText?_spelling word (.inl same)).1
      rw [unknown] at known
      simp at known
    · have known := (Keyword.ofText?_spelling word (.inr same)).1
      rw [unknown] at known
      simp at known

/-- A string that begins a text is the one that is accepted there. -/
theorem string?_of_prefix {body source : List Char} (unquoted : '"' ∉ body)
    (starts : '"' :: body ++ ['"'] <+: source) :
    string? source = some ⟨.string (String.ofList body), '"' :: body ++ ['"']⟩ := by
  obtain ⟨after, rfl⟩ := starts
  have passes : ∀ c ∈ body, (c != '"') = true := by
    intro c listed
    simp only [bne_iff_ne, ne_eq]
    rintro rfl
    exact unquoted listed
  have taken : (body ++ '"' :: after).takeWhile (· != '"') = body := by
    rw [List.takeWhile_append_of_pos passes]
    simp
  have dropped : (body ++ '"' :: after).dropWhile (· != '"') = '"' :: after := by
    rw [List.dropWhile_append_of_pos passes]
    simp
  simp [string?, taken, dropped]

/-- A run of digits that begins a text begins the number that is accepted there. -/
theorem number?_of_whole_prefix {digits source : List Char} (present : digits ≠ [])
    (decimal : ∀ c ∈ digits, c.isDigit) (starts : digits <+: source) :
    ∃ lexeme, number? source = some lexeme ∧ digits.length ≤ lexeme.characters.length := by
  have run := prefix_takeWhile decimal starts
  have filled : source.takeWhile Char.isDigit ≠ [] := by
    intro empty
    rw [empty, List.prefix_nil] at run
    exact present run
  unfold number?
  dsimp only
  rw [if_neg (by simpa using filled)]
  split
  next => exact ⟨_, rfl, run.length_le⟩
  next =>
    refine ⟨_, rfl, ?_⟩
    have shorter := run.length_le
    simp only [List.length_append]
    omega

/-- The digits before a point are the longest run of digits. -/
theorem takeWhile_isDigit_point {digits : List Char} (decimal : ∀ c ∈ digits, c.isDigit)
    (after : List Char) :
    (digits ++ '.' :: after).takeWhile Char.isDigit = digits ∧
      (digits ++ '.' :: after).dropWhile Char.isDigit = '.' :: after := by
  rw [List.takeWhile_append_of_pos decimal, List.dropWhile_append_of_pos decimal]
  have point : Char.isDigit '.' = false := by decide
  simp [point]

/-- A number with a fraction that begins a text begins the number that is accepted there. -/
theorem number?_of_fraction_prefix {digits places source : List Char} (present : digits ≠ [])
    (decimal : ∀ c ∈ digits, c.isDigit) (follow : places ≠ [])
    (further : ∀ c ∈ places, c.isDigit) (starts : digits ++ '.' :: places <+: source) :
    ∃ lexeme, number? source = some lexeme ∧
      (digits ++ '.' :: places).length ≤ lexeme.characters.length := by
  obtain ⟨after, rfl⟩ := starts
  obtain ⟨taken, dropped⟩ := takeWhile_isDigit_point decimal (places ++ after)
  have run : places <+: (places ++ after).takeWhile Char.isDigit :=
    prefix_takeWhile further (List.prefix_append places after)
  have filled : (places ++ after).takeWhile Char.isDigit ≠ [] := by
    intro empty
    rw [empty, List.prefix_nil] at run
    exact follow run
  have shorter := run.length_le
  rw [List.append_assoc, List.cons_append]
  unfold number?
  dsimp only
  rw [taken, dropped, if_neg (by simpa using present), fraction, if_neg (by simpa using filled)]
  refine ⟨_, rfl, ?_⟩
  simp only [List.length_append, List.length_cons]
  omega

/-- Whatever some class of tokens accepts is spelled as its kind says. -/
theorem matchers_spell {accept : List Char → Option Lexeme} (listed : accept ∈ matchers)
    {source : List Char} {lexeme : Lexeme} (accepted : accept source = some lexeme) :
    Spells lexeme.kind lexeme.characters := by
  simp only [matchers, List.mem_append, List.mem_map, List.mem_cons, List.not_mem_nil,
    or_false] at listed
  rcases listed with ⟨symbol, -, rfl⟩ | rfl | rfl | rfl
  · simp only [mark?, Option.ite_none_right_eq_some, Option.some.injEq] at accepted
    obtain ⟨-, rfl⟩ := accepted
    exact .mark symbol
  · cases source with
    | nil => simp [word?] at accepted
    | cons c rest =>
      simp only [word?, Option.ite_none_right_eq_some, Option.some.injEq] at accepted
      obtain ⟨begins, rfl⟩ := accepted
      rw [characters_ofWord]
      exact ofWord_spells begins fun c listed => List.mem_takeWhile_imp listed
  · unfold string? at accepted
    split at accepted
    next rest =>
      dsimp only at accepted
      split at accepted
      next => simp at accepted
      next =>
        obtain rfl := Option.some.inj accepted
        refine .string fun listed => ?_
        simpa using List.mem_takeWhile_imp listed
    next => simp at accepted
  · unfold number? at accepted
    dsimp only at accepted
    split at accepted
    next => simp at accepted
    next whole =>
      have present : source.takeWhile Char.isDigit ≠ [] := by simpa using whole
      have decimal : ∀ c ∈ source.takeWhile Char.isDigit, c.isDigit :=
        fun c listed => List.mem_takeWhile_imp listed
      split at accepted
      next =>
        obtain rfl := Option.some.inj accepted
        exact .whole present decimal
      next places =>
        obtain rfl := Option.some.inj accepted
        refine .fraction present decimal (by simpa using places) fun c listed => ?_
        unfold fraction at listed
        split at listed
        · exact List.mem_takeWhile_imp listed
        · simp at listed

/-- A text of some class that begins a source is no longer than what a class accepts there. -/
theorem exists_matcher_of_spells {kind : Kind} {text source : List Char}
    (spelled : Spells kind text) (starts : text <+: source) :
    ∃ accept ∈ matchers, ∃ lexeme, accept source = some lexeme ∧
      text.length ≤ lexeme.characters.length := by
  have words {first : Char} {rest : List Char} (begins : isLetter first)
      (goesOn : ∀ c ∈ rest, isNameCharacter c) (starts : first :: rest <+: source) :
      ∃ accept ∈ matchers, ∃ lexeme, accept source = some lexeme ∧
        (first :: rest).length ≤ lexeme.characters.length := by
    obtain ⟨after, rfl⟩ := starts
    have run := prefix_takeWhile goesOn (List.prefix_append rest after)
    refine ⟨word?, by simp [matchers], _, if_pos begins, ?_⟩
    rw [characters_ofWord, List.length_cons, List.length_cons]
    exact Nat.succ_le_succ run.length_le
  cases spelled with
  | mark symbol =>
    have listed : mark? symbol ∈ matchers :=
      List.mem_append_left _ (List.mem_map_of_mem symbol.mem_all)
    have accepted : mark? symbol source = some ⟨.mark symbol, symbol.spelling⟩ :=
      if_pos (List.isPrefixOf_iff_prefix.mpr starts)
    exact ⟨mark? symbol, listed, _, accepted, le_rfl⟩
  | keyword written =>
    obtain ⟨-, first, rest, rfl, begins, goesOn⟩ := Keyword.ofText?_spelling _ written
    exact words begins goesOn starts
  | name begins goesOn _ => exact words begins goesOn starts
  | string unquoted =>
    exact ⟨string?, by simp [matchers], _, string?_of_prefix unquoted starts, le_rfl⟩
  | whole present decimal =>
    obtain ⟨lexeme, accepted, longer⟩ := number?_of_whole_prefix present decimal starts
    exact ⟨number?, by simp [matchers], lexeme, accepted, longer⟩
  | fraction present decimal follow further =>
    obtain ⟨lexeme, accepted, longer⟩ :=
      number?_of_fraction_prefix present decimal follow further starts
    exact ⟨number?, by simp [matchers], lexeme, accepted, longer⟩

/-- The longest of some lexemes is as long as each of them. -/
theorem le_foldl_longer (first : Lexeme) (others : List Lexeme) :
    ∀ lexeme ∈ first :: others,
      lexeme.characters.length ≤ (others.foldl longer first).characters.length := by
  induction others generalizing first with
  | nil => simp
  | cons second others ih =>
    have kept : first.characters.length ≤ (longer first second).characters.length ∧
        second.characters.length ≤ (longer first second).characters.length := by
      unfold longer
      split <;> omega
    have best := ih (longer first second) _ List.mem_cons_self
    intro lexeme listed
    rw [List.foldl_cons]
    rcases List.mem_cons.mp listed with rfl | later
    · exact kept.1.trans best
    · rcases List.mem_cons.mp later with rfl | later
      · exact kept.2.trans best
      · exact ih (longer first second) lexeme (List.mem_cons_of_mem _ later)

end Lexeme

namespace Spells

/-- A text of a class has characters. -/
theorem ne_nil {kind : Kind} {text : List Char} (spelled : Spells kind text) : text ≠ [] := by
  cases spelled with
  | mark symbol =>
    obtain ⟨head, tail, same, -⟩ := symbol.exists_head_spelling
    simp [same]
  | keyword written =>
    obtain ⟨-, first, rest, rfl, -⟩ := Keyword.ofText?_spelling _ written
    simp
  | name => simp
  | string => simp
  | whole present => exact present
  | fraction => simp

/-- The kind of a text, told by its first character and then by the class of that character. -/
def kindOf? : List Char → Option Kind
  | [] => none
  | first :: rest =>
    if isLetter first then some (Lexeme.ofWord (first :: rest)).kind
    else if first.isDigit then (Lexeme.number? (first :: rest)).map Lexeme.kind
    else if first = '"' then (Lexeme.string? (first :: rest)).map Lexeme.kind
    else (Mark.all.find? fun symbol => symbol.spelling = first :: rest).map .mark

/-- The kind of a word is the one that the keywords give it. -/
theorem kindOf?_word {first : Char} {rest : List Char} (begins : isLetter first) :
    kindOf? (first :: rest) = some (Lexeme.ofWord (first :: rest)).kind := if_pos begins

/-- The kind of a text that begins with a digit is that of the number that it begins with. -/
theorem kindOf?_digit {first : Char} {rest : List Char} (begins : first.isDigit) :
    kindOf? (first :: rest) = (Lexeme.number? (first :: rest)).map Lexeme.kind := by
  have other : ¬ isLetter first := by
    intro letter
    rw [isDigit_of_isLetter letter] at begins
    simp at begins
  rw [kindOf?, if_neg other, if_pos begins]

/-- The kind of a mark is that mark. -/
theorem kindOf?_mark (symbol : Mark) : kindOf? symbol.spelling = some (.mark symbol) := by
  cases symbol <;> rfl

/-- The kind that a class gives a text is told by the text. -/
theorem kindOf?_eq {kind : Kind} {text : List Char} (spelled : Spells kind text) :
    kindOf? text = some kind := by
  cases spelled with
  | mark symbol => exact kindOf?_mark symbol
  | keyword written =>
    obtain ⟨found, first, rest, rfl, begins, -⟩ := Keyword.ofText?_spelling _ written
    rw [kindOf?_word begins, Lexeme.ofWord]
    simp only [found]
  | @name first rest begins goesOn free =>
    have unknown : Keyword.ofText? (String.ofList (first :: rest)) = none := by
      by_contra known
      obtain ⟨word, found⟩ := Option.ne_none_iff_exists'.mp known
      rcases Keyword.spelling_of_ofText? found with same | same
      · exact (free word).1 same
      · exact (free word).2 same
    rw [kindOf?_word begins, Lexeme.ofWord]
    simp only [unknown]
  | string unquoted =>
    have quote : isLetter '"' = false ∧ Char.isDigit '"' = false := by decide
    have accepted := Lexeme.string?_of_prefix unquoted List.prefix_rfl
    rw [List.cons_append] at accepted ⊢
    simp [kindOf?, quote, accepted]
  | whole present decimal =>
    obtain ⟨first, rest, rfl⟩ := List.exists_cons_of_ne_nil present
    have taken := List.takeWhile_eq_self_iff.mpr decimal
    have dropped := List.dropWhile_eq_nil_iff.mpr decimal
    rw [kindOf?_digit (decimal _ List.mem_cons_self)]
    simp [Lexeme.number?, taken, dropped, Lexeme.fraction]
  | @fraction digits places present decimal follow further =>
    obtain ⟨taken, dropped⟩ := Lexeme.takeWhile_isDigit_point decimal places
    obtain ⟨first, rest, rfl⟩ := List.exists_cons_of_ne_nil present
    have accepted : Lexeme.number? (first :: rest ++ '.' :: places) =
        some ⟨.number (Number.ofDecimal (digitsValue (first :: rest ++ places)) places.length),
          first :: rest ++ '.' :: places⟩ := by
      have run := List.takeWhile_eq_self_iff.mpr further
      unfold Lexeme.number?
      dsimp only
      rw [taken, dropped, Lexeme.fraction, run, if_neg (by simp), if_neg (by simpa using follow)]
    rw [List.cons_append] at accepted ⊢
    rw [kindOf?_digit (decimal _ List.mem_cons_self), accepted]
    rfl

/-- A text of a class that begins with a quote has a further quote. -/
theorem mem_of_quote {kind : Kind} {text rest : List Char} (spelled : Spells kind text)
    (quoted : text = '"' :: rest) : '"' ∈ rest := by
  have quote : isLetter '"' = false ∧ Char.isDigit '"' = false := by decide
  cases spelled with
  | mark symbol =>
    obtain ⟨head, tail, same, other⟩ := symbol.exists_head_spelling
    rw [same] at quoted
    exact absurd (List.cons.inj quoted).1 other
  | keyword written =>
    obtain ⟨-, first, after, rfl, begins, -⟩ := Keyword.ofText?_spelling _ written
    rw [(List.cons.inj quoted).1, quote.1] at begins
    simp at begins
  | name begins =>
    rw [(List.cons.inj quoted).1, quote.1] at begins
    simp at begins
  | string => simp [← (List.cons.inj quoted).2]
  | whole _ decimal =>
    have digit := decimal '"' (by simp [quoted])
    rw [quote.2] at digit
    simp at digit
  | @fraction digits places present decimal _ _ =>
    obtain ⟨first, after, rfl⟩ := List.exists_cons_of_ne_nil present
    have digit := decimal first List.mem_cons_self
    rw [(List.cons.inj quoted).1, quote.2] at digit
    simp at digit

/-- No text has two kinds. -/
theorem kind_unique {first second : Kind} {text : List Char} (one : Spells first text)
    (other : Spells second text) : first = second := by
  have same := one.kindOf?_eq.symm.trans other.kindOf?_eq
  exact Option.some.inj same

end Spells

namespace Lexeme

/-- A lexeme is the longest start of a text that any class of tokens has. -/
structure IsLongest (lexeme : Lexeme) (source : List Char) : Prop where
  /-- Its characters belong to a class that gives them its kind. -/
  spelled : Spells lexeme.kind lexeme.characters
  /-- Its characters begin the text. -/
  starts : lexeme.characters <+: source
  /-- No class has a longer start of the text. -/
  longest : ∀ kind text, Spells kind text → text <+: source →
    text.length ≤ lexeme.characters.length

/-- No two lexemes are the longest of one text. -/
theorem IsLongest.unique {first second : Lexeme} {source : List Char}
    (one : first.IsLongest source) (other : second.IsLongest source) : first = second := by
  have lengths : first.characters.length = second.characters.length :=
    Nat.le_antisymm (other.longest _ _ one.spelled one.starts)
      (one.longest _ _ other.spelled other.starts)
  have characters : first.characters = second.characters :=
    (List.prefix_of_prefix_length_le one.starts other.starts lengths.le).eq_of_length lengths
  obtain ⟨kind, text⟩ := first
  obtain ⟨kind', text'⟩ := second
  obtain rfl : text = text' := characters
  obtain rfl : kind = kind' := one.spelled.kind_unique other.spelled
  rfl

/-- The lexeme that is found is the longest one. -/
theorem isLongest_of_longest? {source : List Char} {lexeme : Lexeme}
    (found : longest? source = some lexeme) : lexeme.IsLongest source := by
  unfold longest? at found
  split at found
  next => simp at found
  next first others same =>
    obtain rfl := Option.some.inj found
    have listed := foldl_longer_mem first others
    rw [← same, List.mem_filterMap] at listed
    obtain ⟨accept, known, accepted⟩ := listed
    refine ⟨matchers_spell known accepted, (matchers_accept known accepted).1, ?_⟩
    intro kind text spelled starts
    obtain ⟨other, listed, lexeme, taken, longer⟩ := exists_matcher_of_spells spelled starts
    have candidate : lexeme ∈ first :: others := by
      rw [← same, List.mem_filterMap]
      exact ⟨other, listed, taken⟩
    exact longer.trans (le_foldl_longer first others lexeme candidate)

/-- Where no lexeme is found, no class has a start of the text. -/
theorem not_prefix_of_longest?_eq_none {source : List Char} (none : longest? source = none)
    {kind : Kind} {text : List Char} (spelled : Spells kind text) : ¬ text <+: source := by
  intro starts
  obtain ⟨accept, listed, lexeme, accepted, -⟩ := exists_matcher_of_spells spelled starts
  have candidate : lexeme ∈ matchers.filterMap fun accept => accept source :=
    List.mem_filterMap.mpr ⟨accept, listed, accepted⟩
  unfold longest? at none
  split at none
  next empty => simp [empty] at candidate
  next => simp at none

end Lexeme

/-- A text begins with a separator or with the two slashes of a comment. -/
def BeginsTrivia (source : List Char) : Prop :=
  (∃ c ∈ source.head?, isSeparator c) ∨ ['/', '/'] <+: source

/-- A piece is how a text begins that goes on with some characters after the piece. -/
inductive Piece.Opens : Piece → List Char → Prop where
  /-- A run of separators that no separator follows. -/
  | blank {characters rest : List Char} (present : characters ≠ [])
    (separators : ∀ c ∈ characters, isSeparator c) (ends : ∀ c ∈ rest.head?, ¬ isSeparator c) :
    Opens (.blank characters) rest
  /-- Two slashes and what follows them up to a newline or the end of the text. -/
  | comment {characters rest : List Char} (slashes : ['/', '/'] <+: characters)
    (line : '\n' ∉ characters) (ends : ∀ c ∈ rest.head?, c = '\n') :
    Opens (.comment characters) rest
  /-- The longest start that any class of tokens has, where there is no blank and no comment. -/
  | token {lexeme : Lexeme} {rest : List Char}
    (solid : ¬ BeginsTrivia (lexeme.characters ++ rest))
    (longest : lexeme.IsLongest (lexeme.characters ++ rest)) : Opens (.token lexeme) rest
  /-- One character at which no token, no blank, no comment and no quote starts. -/
  | unexpected {c : Char} {rest : List Char} (solid : ¬ BeginsTrivia (c :: rest))
    (unknown : ∀ kind text, Spells kind text → ¬ text <+: c :: rest) (unquoted : c ≠ '"') :
    Opens (.unexpected c) rest
  /-- A quote and all text after it, none of which is a quote. -/
  | unterminated {body : List Char} (unquoted : '"' ∉ body) : Opens (.unterminated ('"' :: body)) []

/-- A text is some pieces one after the other, each of them opening the text from its place on. -/
inductive Decomposes : List Char → List Piece → Prop where
  | done : Decomposes [] []
  | step {piece : Piece} {rest : List Char} {pieces : List Piece} (opens : piece.Opens rest)
    (after : Decomposes rest pieces) : Decomposes (piece.characters ++ rest) (piece :: pieces)

namespace Piece

section

variable {c : Char} {tail : List Char}

/-- A text that begins with a separator begins with a blank. -/
theorem first_of_separator (separator : isSeparator c) :
    first c tail = .blank ((c :: tail).takeWhile isSeparator) :=
  if_pos separator

/-- A text that begins with two slashes begins with a comment. -/
theorem first_of_slashes (slashes : ['/', '/'] <+: c :: tail) :
    first c tail = .comment ((c :: tail).takeWhile (· != '\n')) := by
  obtain ⟨rfl, -⟩ := List.cons_prefix_cons.mp slashes
  rw [first]
  exact (if_neg (by decide)).trans (if_pos (List.isPrefixOf_iff_prefix.mpr slashes))

/-- A text that begins with neither is judged by the classes of tokens. -/
theorem first_of_solid (solid : ¬ BeginsTrivia (c :: tail)) :
    first c tail = match Lexeme.longest? (c :: tail) with
      | some lexeme => .token lexeme
      | none => if c = '"' then .unterminated (c :: tail) else .unexpected c := by
  have other : ¬ isSeparator c := fun separator => solid (.inl ⟨c, rfl, separator⟩)
  have division : ¬ ['/', '/'].isPrefixOf (c :: tail) := fun slashes =>
    solid (.inr (List.isPrefixOf_iff_prefix.mp slashes))
  rw [first]
  exact (if_neg other).trans (if_neg division)

/-- Where no token is found at a quote, no other quote follows. -/
theorem not_mem_of_longest?_eq_none (none : Lexeme.longest? ('"' :: tail) = none) :
    '"' ∉ tail := by
  intro listed
  obtain ⟨body, after, rfl, unquoted⟩ := List.eq_append_cons_of_mem listed
  refine Lexeme.not_prefix_of_longest?_eq_none none (.string unquoted) ⟨after, ?_⟩
  simp

end

/-- The first piece that is cut off opens the text. -/
theorem first_opens {c : Char} {tail rest : List Char}
    (whole : (first c tail).characters ++ rest = c :: tail) : (first c tail).Opens rest := by
  by_cases separator : isSeparator c
  · rw [first_of_separator separator] at whole ⊢
    have cut := List.takeWhile_append_dropWhile (p := isSeparator) (l := c :: tail)
    obtain rfl := List.append_cancel_left (whole.trans cut.symm)
    refine .blank (by simp [separator]) (fun d listed => List.mem_takeWhile_imp listed) ?_
    intro d found
    have stopped := List.head?_dropWhile_not isSeparator (c :: tail)
    rw [Option.mem_def.mp found] at stopped
    simpa using stopped
  by_cases slashes : ['/', '/'] <+: c :: tail
  · rw [first_of_slashes slashes] at whole ⊢
    have cut := List.takeWhile_append_dropWhile (p := (· != '\n')) (l := c :: tail)
    obtain rfl := List.append_cancel_left (whole.trans cut.symm)
    refine .comment (prefix_takeWhile (by simp) slashes) ?_ ?_
    · intro listed
      simpa using List.mem_takeWhile_imp listed
    · intro d found
      have stopped := List.head?_dropWhile_not (· != '\n') (c :: tail)
      rw [Option.mem_def.mp found] at stopped
      simpa using stopped
  have solid : ¬ BeginsTrivia (c :: tail) := by
    rintro (⟨d, found, begins⟩ | begins)
    · obtain rfl : c = d := by simpa using found
      exact separator begins
    · exact slashes begins
  rw [first_of_solid solid] at whole ⊢
  cases found : Lexeme.longest? (c :: tail) with
  | some lexeme =>
    have longest := Lexeme.isLongest_of_longest? found
    simp only [found, characters] at whole
    exact .token (whole ▸ solid) (whole ▸ longest)
  | none =>
    simp only [found] at whole
    by_cases quoted : c = '"'
    · subst quoted
      obtain rfl : rest = [] := by simpa [characters] using whole
      exact .unterminated (not_mem_of_longest?_eq_none found)
    · obtain rfl : rest = tail := by simpa [characters, quoted] using whole
      simp only [if_neg quoted]
      exact .unexpected solid
        (fun kind text spelled => Lexeme.not_prefix_of_longest?_eq_none found spelled) quoted

/-- A run of characters that pass a test and that no further such character follows is the longest
run. -/
theorem takeWhile_append_of_ends {run rest : List Char} {test : Char → Bool}
    (passes : ∀ c ∈ run, test c) (ends : ∀ c ∈ rest.head?, ¬ test c) :
    (run ++ rest).takeWhile test = run := by
  rw [List.takeWhile_append_of_pos passes]
  cases rest with
  | nil => simp
  | cons d rest =>
    have stopped := ends d rfl
    simp [stopped]

/-- Whatever opens a text is the first piece that is cut off. -/
theorem Opens.eq_first {piece : Piece} {rest tail : List Char} {c : Char}
    (opens : piece.Opens rest) (whole : piece.characters ++ rest = c :: tail) :
    piece = first c tail := by
  cases opens with
  | blank present separators ends =>
    obtain ⟨d, run, rfl⟩ := List.exists_cons_of_ne_nil present
    have head : d = c := (List.cons.inj whole).1
    rw [first_of_separator (head ▸ separators d List.mem_cons_self), ← whole]
    exact congrArg _ (takeWhile_append_of_ends separators ends).symm
  | @comment characters _ slashes line ends =>
    have begun : ['/', '/'] <+: c :: tail := whole ▸ slashes.trans (List.prefix_append _ _)
    have passes : ∀ d ∈ characters, (d != '\n') = true := by
      intro d listed
      rw [bne_iff_ne]
      rintro rfl
      exact line listed
    have stops : ∀ d ∈ rest.head?, ¬ (d != '\n') = true := by
      intro d found
      simpa using ends d found
    rw [first_of_slashes begun, ← whole]
    exact congrArg _ (takeWhile_append_of_ends passes stops).symm
  | @token lexeme _ solid longest =>
    simp only [Piece.characters] at whole
    rw [whole] at solid longest
    rw [first_of_solid solid]
    cases found : Lexeme.longest? (c :: tail) with
    | some other =>
      exact congrArg _ (longest.unique (Lexeme.isLongest_of_longest? found))
    | none =>
      exact absurd longest.starts (Lexeme.not_prefix_of_longest?_eq_none found longest.spelled)
  | @unexpected d _ solid unknown unquoted =>
    obtain ⟨rfl, rfl⟩ : d = c ∧ rest = tail := by simpa [Piece.characters] using whole
    rw [first_of_solid solid]
    cases found : Lexeme.longest? _ with
    | some other =>
      have longest := Lexeme.isLongest_of_longest? found
      exact absurd longest.starts (unknown _ _ longest.spelled)
    | none => exact (if_neg unquoted).symm
  | @unterminated body unquoted =>
    rw [List.append_nil] at whole
    obtain ⟨rfl, rfl⟩ := List.cons.inj whole
    have solid : ¬ BeginsTrivia ('"' :: body) := by
      rintro (⟨d, found, separator⟩ | slashes)
      · obtain rfl : '"' = d := by simpa using found
        exact absurd separator (by decide)
      · exact absurd (List.cons_prefix_cons.mp slashes).1 (by decide)
    rw [first_of_solid solid]
    cases found : Lexeme.longest? _ with
    | some other =>
      have longest := Lexeme.isLongest_of_longest? found
      obtain ⟨d, run, same⟩ := List.exists_cons_of_ne_nil longest.spelled.ne_nil
      obtain ⟨rfl, inside⟩ := List.cons_prefix_cons.mp (same ▸ longest.starts)
      exact absurd (inside.subset (longest.spelled.mem_of_quote same)) unquoted
    | none => exact (if_pos rfl).symm

/-- The first piece of a text and the characters that the later pieces are cut from. -/
theorem characters_first_append (c : Char) (tail : List Char) :
    (first c tail).characters ++ tail.drop ((first c tail).characters.length - 1) = c :: tail := by
  obtain ⟨⟨suffix, same⟩, nonempty⟩ := first_accepts c tail
  obtain ⟨head, rest, shape⟩ := List.exists_cons_of_ne_nil nonempty
  rw [shape] at same ⊢
  obtain ⟨rfl, after⟩ := List.cons.inj same
  simp [← after]

/-- A piece that opens a text has a character. -/
theorem Opens.characters_ne_nil {piece : Piece} {rest : List Char} (opens : piece.Opens rest) :
    piece.characters ≠ [] := by
  cases opens with
  | blank present => exact present
  | @comment characters _ slashes _ _ =>
    rintro (rfl : characters = [])
    simp at slashes
  | token _ longest => exact longest.spelled.ne_nil
  | unexpected => simp [characters]
  | unterminated => simp [characters]

/-- The token that a piece is, if it is one. -/
def lexeme? : Piece → Option Lexeme
  | .token lexeme => some lexeme
  | _ => none

/-- What is wrong with a piece, if anything is. -/
def cause? : Piece → Option LexicalCause
  | .unexpected character => some (.unexpectedCharacter character)
  | .unterminated _ => some .unterminatedString
  | _ => none

end Piece

/-- Cutting pieces off a text decomposes it. -/
theorem decomposes_all (source : List Char) : Decomposes source (Piece.all source) := by
  induction source using Piece.all.induct with
  | case1 =>
    rw [Piece.all]
    exact .done
  | case2 c tail piece ih =>
    have whole := Piece.characters_first_append c tail
    have cut := Decomposes.step (Piece.first_opens whole) ih
    rw [Piece.all]
    rwa [whole] at cut

namespace Decomposes

/-- There is only one decomposition of a text. -/
theorem eq_all {source : List Char} {pieces : List Piece} (cut : Decomposes source pieces) :
    pieces = Piece.all source := by
  induction cut with
  | done => simp [Piece.all]
  | @step piece rest pieces opens after ih =>
    cases whole : piece.characters ++ rest with
    | nil => exact absurd (List.append_eq_nil_iff.mp whole).1 opens.characters_ne_nil
    | cons c tail =>
      obtain rfl := opens.eq_first whole
      have kept := Piece.characters_first_append c tail
      obtain rfl := List.append_cancel_left (whole.trans kept.symm)
      rw [Piece.all, ← ih]

/-- The pieces put together again are the text. -/
theorem flatMap_characters {source : List Char} {pieces : List Piece}
    (cut : Decomposes source pieces) : pieces.flatMap Piece.characters = source := by
  rw [cut.eq_all]
  exact Piece.flatMap_characters_all source

/-- A quote without another one is the last piece. -/
theorem eq_nil_of_unterminated {source characters : List Char} {pieces later : List Piece}
    (cut : Decomposes source pieces) {before : List Piece}
    (same : pieces = before ++ .unterminated characters :: later) : later = [] := by
  induction cut generalizing before with
  | done => simp at same
  | @step piece rest pieces opens after ih =>
    cases before with
    | nil =>
      obtain ⟨rfl, rfl⟩ := List.cons.inj same
      cases opens
      rw [after.eq_all, Piece.all]
    | cons _ before => exact ih (List.cons.inj same).2

/-- The tokens of a decomposition belong to classes of tokens. -/
theorem spells {source : List Char} {pieces : List Piece} (cut : Decomposes source pieces)
    {lexeme : Lexeme} (listed : .token lexeme ∈ pieces) :
    Spells lexeme.kind lexeme.characters := by
  induction cut with
  | done => simp at listed
  | @step piece rest pieces opens after ih =>
    rcases List.mem_cons.mp listed with rfl | listed
    · cases opens with
      | token _ longest => exact longest.spelled
    · exact ih listed

/-- No token of a decomposition is the end of the text. -/
theorem kind_ne_endOfFile {source : List Char} {pieces : List Piece}
    (cut : Decomposes source pieces) {lexeme : Lexeme} (listed : .token lexeme ∈ pieces) :
    lexeme.kind ≠ .endOfFile := by
  have spelled := cut.spells listed
  intro ended
  rw [ended] at spelled
  cases spelled

end Decomposes

namespace Scan

/-- The tokens of a scan are those pieces that are tokens, and then the end of the text. -/
theorem tokens_ofPieces (position : Position) (pieces : List Piece) :
    (ofPieces position pieces).tokens.map (fun token => (token.kind, token.lexeme)) =
      (pieces.filterMap Piece.lexeme?).map
        (fun lexeme => (lexeme.kind, String.ofList lexeme.characters)) ++ [(.endOfFile, "")] := by
  induction pieces generalizing position with
  | nil => rfl
  | cons piece rest ih =>
    have later := ih (position.afterAll piece.characters)
    cases piece <;> simpa [ofPieces, Piece.lexeme?, List.filterMap_cons] using later

/-- The errors of a scan are those pieces that are none of the others. -/
theorem errors_ofPieces (position : Position) (pieces : List Piece) :
    (ofPieces position pieces).errors.map LexicalError.cause =
      pieces.filterMap Piece.cause? := by
  induction pieces generalizing position with
  | nil => rfl
  | cons piece rest ih =>
    have later := ih (position.afterAll piece.characters)
    cases piece <;> simpa [ofPieces, Piece.cause?, List.filterMap_cons] using later

/-- Every text has exactly one decomposition into blanks, comments, longest tokens and texts that
are none of these. Its pieces put together are the text; its tokens, with the end of the text once
at the end, are the tokens of the scan; its other texts are the errors of the scan; and a quote
without another one is its last piece and the only such. -/
theorem ofSource_decomposes (source : String) :
    ∃ pieces, Decomposes source.toList pieces ∧
      (∀ others, Decomposes source.toList others → others = pieces) ∧
      pieces.flatMap Piece.characters = source.toList ∧
      (ofSource source).tokens.map (fun token => (token.kind, token.lexeme)) =
        (pieces.filterMap Piece.lexeme?).map
          (fun lexeme => (lexeme.kind, String.ofList lexeme.characters)) ++ [(.endOfFile, "")] ∧
      (∀ lexeme, .token lexeme ∈ pieces → lexeme.kind ≠ .endOfFile) ∧
      (ofSource source).errors.map LexicalError.cause = pieces.filterMap Piece.cause? ∧
      ∀ before characters later, pieces = before ++ .unterminated characters :: later →
        later = [] ∧ ∀ others, .unterminated others ∉ before := by
  have cut := decomposes_all source.toList
  refine ⟨Piece.all source.toList, cut, fun others other => other.eq_all, cut.flatMap_characters,
    tokens_ofPieces .start _, fun lexeme listed => cut.kind_ne_endOfFile listed,
    errors_ofPieces .start _, ?_⟩
  intro before characters later same
  refine ⟨cut.eq_nil_of_unterminated same, fun others listed => ?_⟩
  -- An earlier quote without another one would leave nothing after it.
  obtain ⟨first, second, rfl⟩ := List.append_of_mem listed
  rw [List.append_assoc, List.cons_append] at same
  have ended := cut.eq_nil_of_unterminated same
  simp at ended

end Scan

end KoreanLox
