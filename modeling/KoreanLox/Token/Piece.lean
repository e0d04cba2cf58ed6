import KoreanLox.Token.Kind

/-!
# Pieces of a text

A source text falls into pieces from left to right: runs of blanks, comments, tokens and texts
that are neither. A token is the longest start of the remaining text that some matcher accepts.
The pieces put together again are the text (`Piece.flatMap_characters_all`).
-/

namespace KoreanLox

/-- Whether a character separates tokens. -/
def isSeparator (c : Char) : Bool :=
  c == ' ' || c == '\t' || c == '\r' || c == '\n'

/-- Whether a character may begin a name: a Latin letter, an underscore or a Hangul syllable. -/
def isLetter (c : Char) : Bool :=
  c.isAlpha || c == '_' || ('가' ≤ c && c ≤ '힣')

/-- Whether a character may stand inside a name. -/
def isNameCharacter (c : Char) : Bool :=
  isLetter c || c.isDigit

/-- The natural number that decimal digits spell. -/
def digitsValue (digits : List Char) : Nat :=
  digits.foldl (fun value c => value * 10 + (c.toNat - '0'.toNat)) 0

/-- A start of the text that one class of tokens accepts: its kind and its characters. -/
structure Lexeme where
  /-- What the characters mean. -/
  kind : Kind
  /-- The characters, in order. -/
  characters : List Char

namespace Lexeme

/-- Accepts one mark. -/
def mark? (mark : Mark) (source : List Char) : Option Lexeme :=
  if mark.spelling.isPrefixOf source then some ⟨.mark mark, mark.spelling⟩ else none

/-- An accepted mark is a start of the text and has a character. -/
theorem mark?_accepts {mark : Mark} {source : List Char} {lexeme : Lexeme}
    (accepted : mark? mark source = some lexeme) :
    lexeme.characters <+: source ∧ lexeme.characters ≠ [] := by
  rw [mark?] at accepted
  split at accepted
  next starts =>
    obtain rfl := Option.some.inj accepted
    exact ⟨List.isPrefixOf_iff_prefix.mp starts, by cases mark <;> simp [Mark.spelling]⟩
  next => simp at accepted

/-- A word is a keyword if it spells one, and a name otherwise. -/
def ofWord (characters : List Char) : Lexeme :=
  let text := String.ofList characters
  match Keyword.ofText? text with
  | some word => ⟨.keyword word, characters⟩
  | none => ⟨.identifier text, characters⟩

/-- A word keeps its characters. -/
@[simp]
theorem characters_ofWord (characters : List Char) :
    (ofWord characters).characters = characters := by
  rw [ofWord]
  split <;> rfl

/-- Accepts a letter and all name characters after it. -/
def word? : List Char → Option Lexeme
  | [] => none
  | c :: rest => if isLetter c then some (ofWord (c :: rest.takeWhile isNameCharacter)) else none

/-- An accepted word is a start of the text and has a character. -/
theorem word?_accepts {source : List Char} {lexeme : Lexeme}
    (accepted : word? source = some lexeme) :
    lexeme.characters <+: source ∧ lexeme.characters ≠ [] := by
  cases source with
  | nil => simp [word?] at accepted
  | cons c rest =>
    simp only [word?, Option.ite_none_right_eq_some, Option.some.injEq] at accepted
    obtain ⟨-, rfl⟩ := accepted
    simpa using List.takeWhile_prefix isNameCharacter

/-- Accepts a quote, everything before the next quote, and that quote. -/
def string? : List Char → Option Lexeme
  | '"' :: rest =>
    let body := rest.takeWhile (· != '"')
    match rest.dropWhile (· != '"') with
    | [] => none
    | _ :: _ => some ⟨.string (String.ofList body), '"' :: body ++ ['"']⟩
  | _ => none

/-- An accepted string is a start of the text and has a character. -/
theorem string?_accepts {source : List Char} {lexeme : Lexeme}
    (accepted : string? source = some lexeme) :
    lexeme.characters <+: source ∧ lexeme.characters ≠ [] := by
  unfold string? at accepted
  split at accepted
  next rest =>
    dsimp only at accepted
    split at accepted
    next => simp at accepted
    next quote after found =>
      obtain rfl := Option.some.inj accepted
      have quoted : quote = '"' := by
        have := List.head?_dropWhile_not (· != '"') rest
        simp only [found, List.head?_cons] at this
        simpa using this
      refine ⟨⟨after, ?_⟩, by simp⟩
      have whole := List.takeWhile_append_dropWhile (p := (· != '"')) (l := rest)
      rw [found, quoted] at whole
      simpa using whole
  next => simp at accepted

/-- The digits of a fraction, if a point with at least one digit after it comes first. -/
def fraction : List Char → List Char
  | '.' :: rest => rest.takeWhile Char.isDigit
  | _ => []

/-- Digits, a point and the digits of a fraction are a start of the text. -/
theorem fraction_starts {rest : List Char} (found : fraction rest ≠ []) :
    '.' :: fraction rest <+: rest := by
  unfold fraction at found ⊢
  split
  next => simpa using List.takeWhile_prefix Char.isDigit
  next unmatched => 
    split at found
    · simp_all
    · simp at found

/-- Accepts digits, and a point with further digits. -/
def number? (source : List Char) : Option Lexeme :=
  let whole := source.takeWhile Char.isDigit
  let places := fraction (source.dropWhile Char.isDigit)
  if whole.isEmpty then none
  else if places.isEmpty then some ⟨.number (Number.ofDecimal (digitsValue whole) 0), whole⟩
  else
    some ⟨.number (Number.ofDecimal (digitsValue (whole ++ places)) places.length),
      whole ++ '.' :: places⟩

/-- An accepted number is a start of the text and has a character. -/
theorem number?_accepts {source : List Char} {lexeme : Lexeme}
    (accepted : number? source = some lexeme) :
    lexeme.characters <+: source ∧ lexeme.characters ≠ [] := by
  unfold number? at accepted
  dsimp only at accepted
  split at accepted
  next => simp at accepted
  next whole =>
    have whole : source.takeWhile Char.isDigit ≠ [] := by simpa using whole
    split at accepted
    next =>
      obtain rfl := Option.some.inj accepted
      exact ⟨ List.takeWhile_prefix Char.isDigit, whole⟩
    next places =>
      obtain rfl := Option.some.inj accepted
      have places := fraction_starts (by simpa using places)
      have := (List.prefix_append_right_inj (source.takeWhile Char.isDigit)).mpr places
      rw [List.takeWhile_append_dropWhile] at this
      exact ⟨this, by simp⟩

/-- All classes of tokens. -/
def matchers : List (List Char → Option Lexeme) :=
  Mark.all.map mark? ++ [word?, string?, number?]

/-- Whatever a matcher accepts is a start of the text and has a character. -/
theorem matchers_accept {accept : List Char → Option Lexeme} (listed : accept ∈ matchers)
    {source : List Char} {lexeme : Lexeme} (accepted : accept source = some lexeme) :
    lexeme.characters <+: source ∧ lexeme.characters ≠ [] := by
  simp only [matchers, List.mem_append, List.mem_map, List.mem_cons, List.not_mem_nil,
    or_false] at listed
  rcases listed with ⟨mark, -, rfl⟩ | rfl | rfl | rfl
  · exact mark?_accepts accepted
  · exact word?_accepts accepted
  · exact string?_accepts accepted
  · exact number?_accepts accepted

/-- The longer of two starts, and the first of two as long. -/
def longer (first second : Lexeme) : Lexeme :=
  if first.characters.length < second.characters.length then second else first

/-- The longest of some lexemes is one of them. -/
theorem foldl_longer_mem (first : Lexeme) (others : List Lexeme) :
    others.foldl longer first ∈ first :: others := by
  induction others generalizing first with
  | nil => simp
  | cons second others ih =>
    have := ih (longer first second)
    simp only [List.foldl_cons, List.mem_cons] at this ⊢
    rcases this with same | listed
    · rw [same, longer]
      split <;> simp
    · exact .inr (.inr listed)

/-- The longest start of a text that some class accepts. -/
def longest? (source : List Char) : Option Lexeme :=
  match matchers.filterMap fun accept => accept source with
  | [] => none
  | first :: others => some (others.foldl longer first)

/-- The longest start of a text that some class accepts is accepted by a class. -/
theorem longest?_accepts {source : List Char} {lexeme : Lexeme}
    (found : longest? source = some lexeme) :
    lexeme.characters <+: source ∧ lexeme.characters ≠ [] := by
  unfold longest? at found
  split at found
  next => simp at found
  next first others same =>
    obtain rfl := Option.some.inj found
    have listed := foldl_longer_mem first others
    rw [← same, List.mem_filterMap] at listed
    obtain ⟨accept, known, accepted⟩ := listed
    exact matchers_accept known accepted

end Lexeme

/-- A piece of a source text. -/
inductive Piece where
  /-- A run of blanks. -/
  | blank (characters : List Char)
  /-- Two slashes and the rest of the line. -/
  | comment (characters : List Char)
  /-- A token. -/
  | token (lexeme : Lexeme)
  /-- A character that begins no piece of any other kind. -/
  | unexpected (character : Char)
  /-- A quote that no other quote follows, and all text after it. -/
  | unterminated (characters : List Char)

namespace Piece

/-- The characters of a piece. -/
def characters : Piece → List Char
  | .blank characters => characters
  | .comment characters => characters
  | .token lexeme => lexeme.characters
  | .unexpected character => [character]
  | .unterminated characters => characters

/-- The first piece of a text that begins with `c` and goes on with `rest`. -/
def first (c : Char) (rest : List Char) : Piece :=
  let source := c :: rest
  if isSeparator c then .blank (source.takeWhile isSeparator)
  else if ['/', '/'].isPrefixOf source then .comment (source.takeWhile (· != '\n'))
  else
    match Lexeme.longest? source with
    | some lexeme => .token lexeme
    | none => if c = '"' then .unterminated source else .unexpected c

/-- The first piece of a text is a start of it and has a character. -/
theorem first_accepts (c : Char) (rest : List Char) :
    (first c rest).characters <+: c :: rest ∧ (first c rest).characters ≠ [] := by
  unfold first
  dsimp only
  split
  next blank => 
    exact ⟨ List.takeWhile_prefix isSeparator, by simp [characters, blank]⟩
  next =>
    split
    next slashes =>
      refine ⟨ List.takeWhile_prefix _, ?_⟩
      have begins : '/' = c ∧ ['/'] <+: rest := by simpa using slashes
      simp [characters, ← begins.1]
    next =>
      split
      next lexeme found => exact Lexeme.longest?_accepts found
      next => split <;> simp [characters]

/-- All pieces of a text, in order. -/
def all : List Char → List Piece
  | [] => []
  | c :: rest =>
    let piece := first c rest
    piece :: all (rest.drop (piece.characters.length - 1))
termination_by source => source.length

/-- The pieces of a text put together again are the text. -/
theorem flatMap_characters_all (source : List Char) :
    (all source).flatMap characters = source := by
  induction source using all.induct with
  | case1 => simp [all]
  | case2 c rest piece ih =>
    obtain ⟨⟨suffix, same⟩, nonempty⟩ := first_accepts c rest
    obtain ⟨head, tail, shape⟩ := List.exists_cons_of_ne_nil nonempty
    rw [all, List.flatMap_cons, ih, shape]
    rw [shape, List.cons_append, List.cons.injEq] at same
    simp [← same.1, ← same.2]

end Piece

end KoreanLox
