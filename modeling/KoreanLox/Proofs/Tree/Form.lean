import KoreanLox.Proofs.Token.Decomposition

/-!
# Printed forms

What a tree is printed as, apart from what its words mean: words, strings between quotes, names
with parameters, and lists in parentheses that begin with a head. Nothing is escaped, and still a
text that begins with a form begins with one form only, wherever the form ends
(`Form.eq_of_text_append`): words have no character that ends one, and strings have no quote.
-/

namespace KoreanLox

/-- What a node of a tree is printed as. -/
inductive Form where
  /-- A word as it stands. -/
  | word (text : String)
  /-- A text between quotes. -/
  | quote (text : String)
  /-- A name and, in parentheses, the names of parameters. -/
  | header (name : String) (parameters : List String)
  /-- In parentheses, a head and further forms. -/
  | list (head : String) (parts : List Form)

/-- Some words with a space between every two of them. -/
def spaced : List String → List Char
  | [] => []
  | [first] => first.toList
  | first :: second :: rest => first.toList ++ ' ' :: spaced (second :: rest)

mutual

/-- The text of a form. -/
def Form.text : Form → List Char
  | .word text => text.toList
  | .quote text => '"' :: text.toList ++ ['"']
  | .header name parameters => name.toList ++ '(' :: spaced parameters ++ [')']
  | .list head parts => '(' :: head.toList ++ Form.textAll parts ++ [')']

/-- The texts of some forms, a space before each. -/
def Form.textAll : List Form → List Char
  | [] => []
  | first :: rest => ' ' :: first.text ++ Form.textAll rest

end

/-- The texts of some forms, a line for each. -/
def Form.lines : List Form → List Char
  | [] => []
  | first :: rest => first.text ++ '\n' :: Form.lines rest

/-! ## Words -/

/-- Whether a character may stand in a word: blanks, parentheses and quotes end words. -/
def isWordCharacter (c : Char) : Bool :=
  !(c == ' ' || c == '\n' || c == '(' || c == ')' || c == '"')

/-- A text is a word: it has characters, and all may stand in a word. -/
structure IsWord (text : String) : Prop where
  /-- It has characters. -/
  present : text.toList ≠ []
  /-- All its characters may stand in a word. -/
  pure : ∀ c ∈ text.toList, isWordCharacter c

/-- No character that may stand in a word comes first. -/
def Breaks (rest : List Char) : Prop := ∀ c ∈ rest.head?, isWordCharacter c = false

/-- What comes after a whole form: nothing, or a blank or a closing parenthesis. -/
def Ends (rest : List Char) : Prop := ∀ c ∈ rest.head?, c = ' ' ∨ c = '\n' ∨ c = ')'

/-- What comes after a form comes after a word. -/
theorem Ends.breaks {rest : List Char} (ends : Ends rest) : Breaks rest := by
  intro c first
  rcases ends c first with rfl | rfl | rfl <;> decide

/-- Nothing begins with an opening parenthesis after a form. -/
theorem Ends.ne_open {rest tail : List Char} (ends : Ends rest) : rest ≠ '(' :: tail := by
  rintro rfl
  exact absurd (ends '(' rfl) (by decide)

section

variable {first second : String} {rest rest' : List Char}

/-- Words that may be empty are told apart from what follows them. -/
theorem eq_of_word_append (pure : ∀ c ∈ first.toList, isWordCharacter c)
    (pure' : ∀ c ∈ second.toList, isWordCharacter c) (breaks : Breaks rest)
    (breaks' : Breaks rest') (same : first.toList ++ rest = second.toList ++ rest') :
    first = second ∧ rest = rest' := by
  have words := congrArg (List.takeWhile isWordCharacter) same
  rw [Piece.takeWhile_append_of_ends pure fun c found => by simp [breaks c found],
    Piece.takeWhile_append_of_ends pure' fun c found => by simp [breaks' c found]] at words
  rw [words] at same
  exact ⟨String.toList_inj.mp words, List.append_cancel_left same⟩

/-- A word does not begin with a character that ends words. -/
theorem IsWord.append_ne_cons (word : IsWord first) {c : Char} (outer : isWordCharacter c = false) :
    first.toList ++ rest ≠ c :: rest' := by
  obtain ⟨d, inner, characters⟩ := List.exists_cons_of_ne_nil word.present
  have inside := word.pure d (by simp [characters])
  rw [characters, List.cons_append]
  intro same
  rw [(List.cons.inj same).1, outer] at inside
  simp at inside

end

/-! ## Legible forms -/

mutual

/-- The words of a form are words, and its strings have no quote inside. -/
def Form.Legible : Form → Prop
  | .word text => IsWord text
  | .quote text => '"' ∉ text.toList
  | .header name parameters => IsWord name ∧ ∀ parameter ∈ parameters, IsWord parameter
  | .list head parts => (∀ c ∈ head.toList, isWordCharacter c) ∧ Form.LegibleAll parts

/-- All of some forms are legible. -/
def Form.LegibleAll : List Form → Prop
  | [] => True
  | first :: rest => first.Legible ∧ Form.LegibleAll rest

end

/-- Some forms are legible if each is. -/
theorem Form.legibleAll_iff (forms : List Form) :
    Form.LegibleAll forms ↔ ∀ form ∈ forms, form.Legible := by
  induction forms with
  | nil => simp [LegibleAll]
  | cons first rest ih => simp [LegibleAll, ih]

/-! ## Texts determine forms -/

section

variable {rest rest' : List Char}

/-- Parameters break the name before them off. -/
theorem breaks_open (tail : List Char) : Breaks ('(' :: tail) := by
  intro c found
  obtain rfl := Option.some.inj found
  decide

/-- The parameters of a name are told by their text up to the closing parenthesis. -/
theorem eq_of_spaced_append {names others : List String} (words : ∀ name ∈ names, IsWord name)
    (words' : ∀ name ∈ others, IsWord name)
    (same : spaced names ++ ')' :: rest = spaced others ++ ')' :: rest') :
    names = others ∧ rest = rest' := by
  have closes (tail : List Char) : Breaks (')' :: tail) := by
    intro c found
    obtain rfl := Option.some.inj found
    decide
  have parts (tail : List Char) : Breaks (' ' :: tail) := by
    intro c found
    obtain rfl := Option.some.inj found
    decide
  induction names using spaced.induct generalizing others with
  | case1 =>
    match others with
    | [] => exact ⟨rfl, (List.cons.inj same).2⟩
    | [second] =>
      exact absurd same.symm ((words' second (by simp)).append_ne_cons (by decide))
    | second :: next :: more =>
      rw [spaced, spaced, List.append_assoc] at same
      exact absurd same.symm ((words' second (by simp)).append_ne_cons (by decide))
  | case2 first =>
    have word := words first (by simp)
    match others with
    | [] => exact absurd same (word.append_ne_cons (by decide))
    | [second] =>
      obtain ⟨rfl, ended⟩ := eq_of_word_append word.pure (words' second (by simp)).pure
        (closes rest) (closes rest') same
      exact ⟨rfl, (List.cons.inj ended).2⟩
    | second :: next :: more =>
      rw [spaced, spaced, List.append_assoc] at same
      have ended := (eq_of_word_append word.pure (words' second (by simp)).pure (closes rest)
        (parts _) same).2
      simp at ended
  | case3 first following tail ih =>
    have word := words first (by simp)
    rw [spaced, List.append_assoc] at same
    match others with
    | [] => exact absurd same (word.append_ne_cons (by decide))
    | [second] =>
      have ended := (eq_of_word_append word.pure (words' second (by simp)).pure (parts _)
        (closes rest') same).2
      simp at ended
    | second :: next :: more =>
      rw [spaced, List.append_assoc] at same
      obtain ⟨rfl, ended⟩ := eq_of_word_append word.pure (words' second (by simp)).pure
        (parts _) (parts _) same
      obtain ⟨later, ended⟩ := ih (fun name mem => words name (List.mem_cons_of_mem _ mem))
        (fun name mem => words' name (List.mem_cons_of_mem _ mem)) (List.cons.inj ended).2
      exact ⟨by rw [later], ended⟩

/-- A string is told by its text up to the closing quote. -/
theorem eq_of_quote_append {first second : String} (unquoted : '"' ∉ first.toList)
    (unquoted' : '"' ∉ second.toList)
    (same : first.toList ++ '"' :: rest = second.toList ++ '"' :: rest') :
    first = second ∧ rest = rest' := by
  have run {text : String} (free : '"' ∉ text.toList) (tail : List Char) :
      (text.toList ++ '"' :: tail).takeWhile (· != '"') = text.toList :=
    Piece.takeWhile_append_of_ends
      (fun c mem => by simpa using fun quote : c = '"' => free (quote ▸ mem)) (by simp)
  have texts := congrArg (List.takeWhile (· != '"')) same
  rw [run unquoted, run unquoted'] at texts
  rw [texts] at same
  exact ⟨String.toList_inj.mp texts, (List.cons.inj (List.append_cancel_left same)).2⟩

/-- The parts of a list break its head off. -/
theorem breaks_textAll (parts : List Form) (tail : List Char) :
    Breaks (Form.textAll parts ++ ')' :: tail) := by
  intro c found
  cases parts with
  | nil =>
    obtain rfl := Option.some.inj found
    decide
  | cons first more =>
    obtain rfl := Option.some.inj found
    decide

/-- The parts of a list end each form before them. -/
theorem ends_textAll (parts : List Form) (tail : List Char) :
    Ends (Form.textAll parts ++ ')' :: tail) := by
  intro c found
  cases parts with
  | nil => exact .inr (.inr (Option.some.inj found).symm)
  | cons first more => exact .inl (Option.some.inj found).symm

end

mutual

/-- A text that begins with a legible form, at whose end the form may end, begins with no other
one. -/
theorem Form.eq_of_text_append : ∀ (first second : Form) (rest rest' : List Char),
    first.Legible → second.Legible → Ends rest → Ends rest' →
      first.text ++ rest = second.text ++ rest' → first = second ∧ rest = rest'
  | .word one, .word other, rest, rest', spelled, spelled', ends, ends', same => by
    obtain ⟨rfl, after⟩ :=
      eq_of_word_append spelled.pure spelled'.pure ends.breaks ends'.breaks same
    exact ⟨rfl, after⟩
  | .word one, .header name parameters, rest, rest', spelled, legible, ends, _, same => by
    simp only [text, List.append_assoc, List.cons_append] at same
    have after := (eq_of_word_append spelled.pure legible.1.pure ends.breaks
      (breaks_open _) same).2
    exact absurd after ends.ne_open
  | .word one, .quote _, _, _, spelled, _, _, _, same =>
    absurd same (spelled.append_ne_cons (by decide))
  | .word one, .list _ _, _, _, spelled, _, _, _, same =>
    absurd same (spelled.append_ne_cons (by decide))
  | .quote _, .word other, _, _, _, spelled, _, _, same =>
    absurd same.symm (spelled.append_ne_cons (by decide))
  | .quote one, .quote other, rest, rest', unquoted, unquoted', _, _, same => by
    simp only [text, List.cons_append, List.append_assoc, List.nil_append, List.cons.injEq,
      true_and] at same
    obtain ⟨rfl, after⟩ := eq_of_quote_append unquoted unquoted' same
    exact ⟨rfl, after⟩
  | .quote _, .header name parameters, _, _, _, legible, _, _, same => by
    simp only [text, List.cons_append, List.append_assoc] at same
    exact absurd same.symm (legible.1.append_ne_cons (by decide))
  | .quote _, .list _ _, _, _, _, _, _, _, same => absurd (List.cons.inj same).1 (by decide)
  | .header name parameters, .word other, rest, rest', legible, spelled, _, ends', same => by
    simp only [text, List.append_assoc, List.cons_append] at same
    have after := (eq_of_word_append legible.1.pure spelled.pure (breaks_open _)
      ends'.breaks same).2
    exact absurd after.symm ends'.ne_open
  | .header name parameters, .quote _, _, _, legible, _, _, _, same => by
    simp only [text, List.cons_append, List.append_assoc] at same
    exact absurd same (legible.1.append_ne_cons (by decide))
  | .header name parameters, .header name' parameters', rest, rest', legible, legible', _, _,
      same => by
    simp only [text, List.append_assoc, List.cons_append, List.nil_append] at same
    obtain ⟨rfl, later⟩ := eq_of_word_append legible.1.pure legible'.1.pure (breaks_open _)
      (breaks_open _) same
    obtain ⟨rfl, after⟩ := eq_of_spaced_append legible.2 legible'.2 (List.cons.inj later).2
    exact ⟨rfl, after⟩
  | .header name parameters, .list _ _, _, _, legible, _, _, _, same => by
    simp only [text, List.cons_append, List.append_assoc] at same
    exact absurd same (legible.1.append_ne_cons (by decide))
  | .list _ _, .word other, _, _, _, spelled, _, _, same =>
    absurd same.symm (spelled.append_ne_cons (by decide))
  | .list _ _, .quote _, _, _, _, _, _, _, same => absurd (List.cons.inj same).1 (by decide)
  | .list _ _, .header name parameters, _, _, _, legible, _, _, same => by
    simp only [text, List.cons_append, List.append_assoc] at same
    exact absurd same.symm (legible.1.append_ne_cons (by decide))
  | .list head parts, .list head' parts', rest, rest', legible, legible', _, _, same => by
    simp only [text, List.cons_append, List.append_assoc, List.nil_append, List.cons.injEq,
      true_and] at same
    obtain ⟨rfl, later⟩ := eq_of_word_append legible.1 legible'.1 (breaks_textAll parts rest)
      (breaks_textAll parts' rest') same
    obtain ⟨rfl, after⟩ :=
      Form.eq_of_textAll_append parts parts' rest rest' legible.2 legible'.2 later
    exact ⟨rfl, after⟩

/-- The parts of a list are told by their text up to the closing parenthesis. -/
theorem Form.eq_of_textAll_append : ∀ (parts others : List Form) (rest rest' : List Char),
    Form.LegibleAll parts → Form.LegibleAll others →
      Form.textAll parts ++ ')' :: rest = Form.textAll others ++ ')' :: rest' →
        parts = others ∧ rest = rest'
  | [], [], _, _, _, _, same => ⟨rfl, (List.cons.inj same).2⟩
  | [], _ :: _, _, _, _, _, same => by simp [textAll] at same
  | _ :: _, [], _, _, _, _, same => by simp [textAll] at same
  | first :: more, second :: more', rest, rest', legible, legible', same => by
    simp only [textAll, List.cons_append, List.append_assoc, List.cons.injEq, true_and] at same
    obtain ⟨rfl, later⟩ := Form.eq_of_text_append first second _ _ legible.1 legible'.1
      (ends_textAll more rest) (ends_textAll more' rest') same
    obtain ⟨rfl, after⟩ :=
      Form.eq_of_textAll_append more more' rest rest' legible.2 legible'.2 later
    exact ⟨rfl, after⟩

end

/-- Lines of legible forms are told by their text. -/
theorem Form.eq_of_lines {forms others : List Form} (legible : Form.LegibleAll forms)
    (legible' : Form.LegibleAll others) (same : Form.lines forms = Form.lines others) :
    forms = others := by
  have newline (tail : List Char) : Ends ('\n' :: tail) :=
    fun c found => .inr (.inl (Option.some.inj found).symm)
  induction forms generalizing others with
  | nil =>
    cases others with
    | nil => rfl
    | cons second more => simp [lines] at same
  | cons first rest ih =>
    cases others with
    | nil => simp [lines] at same
    | cons second more =>
      obtain ⟨rfl, after⟩ := Form.eq_of_text_append first second _ _ legible.1 legible'.1
        (newline _) (newline _) same
      rw [ih legible.2 legible'.2 (List.cons.inj after).2]

end KoreanLox
