import KoreanLox.Proofs.Token.Lookahead

/-!
# Printing tokens again

A separator prolongs no token. So the texts of the tokens of a scan, written one after another with
separators between them, are scanned as the same tokens (`Scan.ofSource_reprinted`), whatever stood
between them before: other separators, comments, errors or nothing.
-/

namespace KoreanLox

/-- Some texts one after the other, with a separator of its own after each but the last. -/
def Text.joined (separator : Nat → String) : List String → String
  | [] => ""
  | [last] => last
  | first :: second :: rest =>
    first ++ separator 0 ++ joined (fun index => separator (index + 1)) (second :: rest)

/-- The texts that the tokens of a scan were read from, without the end of the text. -/
def Scan.lexemes (scan : Scan) : List String :=
  scan.tokens.dropLast.map Token.lexeme

/-- A separator prolongs no token. -/
theorem Prolongs.not_isSeparator {text rest : List Char} (prolongs : Prolongs text rest) :
    ∃ c ∈ rest.head?, isSeparator c = false := by
  cases prolongs with
  | equal => exact ⟨'=', rfl, by decide⟩
  | word _ goesOn => exact ⟨_, rfl, isSeparator_of_isNameCharacter goesOn⟩
  | digit _ further =>
    exact ⟨_, rfl, isSeparator_of_isNameCharacter (isNameCharacter_of_isDigit further)⟩
  | point => exact ⟨'.', rfl, by decide⟩

/-- A token opens a text that goes on with a separator or ends. -/
theorem Spells.opens {lexeme : Lexeme} (spelled : Spells lexeme.kind lexeme.characters)
    {rest : List Char} (apart : ∀ c ∈ rest.head?, isSeparator c) :
    (Piece.token lexeme).Opens rest := by
  refine .token ?_ ((spelled.isLongest_iff rest).mpr ?_)
  · obtain ⟨first, inner, shape⟩ := List.exists_cons_of_ne_nil spelled.ne_nil
    obtain ⟨solid, slash⟩ := spelled.head_solid shape
    rw [shape]
    rintro (⟨c, found, separator⟩ | slashes)
    · obtain rfl : first = c := by simpa using found
      rw [solid] at separator
      exact Bool.false_ne_true separator
    · obtain ⟨rfl, second⟩ := List.cons_prefix_cons.mp slashes
      obtain rfl := slash rfl
      obtain ⟨after, rfl⟩ := second
      exact absurd (apart '/' rfl) (by decide)
  · intro prolongs
    obtain ⟨c, found, solid⟩ := prolongs.not_isSeparator
    rw [apart c found] at solid
    exact Bool.false_ne_true solid.symm

/-- Joined texts begin with the first of them. -/
theorem Text.joined_cons (separator : Nat → String) (first : String) (rest : List String) :
    ∃ after, joined separator (first :: rest) = first ++ after := by
  cases rest with
  | nil => exact ⟨"", (String.append_empty).symm⟩
  | cons second rest => exact ⟨_, String.append_assoc⟩

/-- A token and a blank after it are two pieces of a text that goes on with another token. -/
theorem Decomposes.separated {source : List Char} {pieces : List Piece}
    (cut : Decomposes source pieces) {lexeme : Lexeme}
    (spelled : Spells lexeme.kind lexeme.characters) {blank : List Char} (present : blank ≠ [])
    (separators : ∀ c ∈ blank, isSeparator c) (solid : ∀ c ∈ source.head?, ¬ isSeparator c) :
    Decomposes (lexeme.characters ++ (blank ++ source))
      (.token lexeme :: .blank blank :: pieces) := by
  have between := Decomposes.step (.blank present separators solid) cut
  have apart : ∀ c ∈ (blank ++ source).head?, isSeparator c := by
    obtain ⟨first, inner, rfl⟩ := List.exists_cons_of_ne_nil present
    intro c found
    obtain rfl : first = c := by simpa using found
    exact separators first List.mem_cons_self
  exact .step (spelled.opens apart) between

/-- Tokens that are joined by separators are the tokens that the joined text is cut into, and there
are no errors. -/
theorem exists_decomposes_joined (lexemes : List Lexeme)
    (spelled : ∀ lexeme ∈ lexemes, Spells lexeme.kind lexeme.characters) (separator : Nat → String)
    (present : ∀ index, separator index ≠ "")
    (blank : ∀ index, ∀ c ∈ (separator index).toList, isSeparator c) :
    ∃ pieces, Decomposes
        (Text.joined separator
          (lexemes.map fun lexeme => String.ofList lexeme.characters)).toList pieces ∧
      pieces.filterMap Piece.lexeme? = lexemes ∧ pieces.filterMap Piece.cause? = [] := by
  induction lexemes generalizing separator with
  | nil => exact ⟨[], .done, rfl, rfl⟩
  | cons first rest ih =>
    have begins := spelled first List.mem_cons_self
    cases rest with
    | nil =>
      have opens : (Piece.token first).Opens [] := begins.opens (by simp)
      have cut := Decomposes.step opens .done
      rw [List.append_nil] at cut
      refine ⟨[.token first], ?_, rfl, rfl⟩
      rw [List.map_singleton, Text.joined, String.toList_ofList]
      exact cut
    | cons second rest =>
      obtain ⟨pieces, cut, tokens, errors⟩ := ih
        (fun lexeme listed => spelled lexeme (List.mem_cons_of_mem _ listed))
        (fun index => separator (index + 1)) (fun index => present (index + 1))
        (fun index => blank (index + 1))
      have follows := spelled second (List.mem_cons_of_mem _ List.mem_cons_self)
      obtain ⟨head, tail, shape⟩ := List.exists_cons_of_ne_nil follows.ne_nil
      obtain ⟨after, same⟩ := Text.joined_cons (fun index => separator (index + 1))
        (String.ofList second.characters)
        (rest.map fun lexeme => String.ofList lexeme.characters)
      rw [List.map_cons, same] at cut
      have solid : ∀ c ∈ (String.ofList second.characters ++ after).toList.head?,
          ¬ isSeparator c := by
        intro c found
        have other := (follows.head_solid shape).1
        obtain rfl : head = c := by simpa [shape] using found
        rw [other]
        exact Bool.false_ne_true
      have filled : (separator 0).toList ≠ [] := by simpa using present 0
      have whole := cut.separated begins filled (blank 0) solid
      refine ⟨.token first :: .blank (separator 0).toList :: pieces, ?_, ?_, ?_⟩
      · rw [List.map_cons, List.map_cons, Text.joined, same]
        simpa using whole
      · exact congrArg (List.cons first) tokens
      · exact errors

namespace Scan

/-- The tokens of a text, joined in their order by any separators, are scanned as the same tokens
with the same texts, followed by the end of the text, and without errors. -/
theorem ofSource_reprinted (source : String) (separator : Nat → String)
    (present : ∀ index, separator index ≠ "")
    (blank : ∀ index, ∀ c ∈ (separator index).toList, isSeparator c) :
    (ofSource (Text.joined separator (ofSource source).lexemes)).errors = [] ∧
      (ofSource (Text.joined separator (ofSource source).lexemes)).tokens.map
          (fun token => (token.kind, token.lexeme)) =
        (ofSource source).tokens.dropLast.map (fun token => (token.kind, token.lexeme)) ++
          [(.endOfFile, "")] := by
  have tokens := tokens_ofPieces .start (Piece.all source.toList)
  have proper : (ofSource source).tokens.dropLast.map (fun token => (token.kind, token.lexeme)) =
      ((Piece.all source.toList).filterMap Piece.lexeme?).map
        (fun lexeme => (lexeme.kind, String.ofList lexeme.characters)) := by
    rw [List.map_dropLast]
    exact (congrArg List.dropLast tokens).trans List.dropLast_concat
  have lexemes : (ofSource source).lexemes =
      ((Piece.all source.toList).filterMap Piece.lexeme?).map
        (fun lexeme => String.ofList lexeme.characters) := by
    have texts := congrArg (List.map Prod.snd) proper
    rwa [List.map_map, List.map_map] at texts
  have spelled : ∀ lexeme ∈ (Piece.all source.toList).filterMap Piece.lexeme?,
      Spells lexeme.kind lexeme.characters := by
    intro lexeme listed
    obtain ⟨piece, among, found⟩ := List.mem_filterMap.mp listed
    cases piece with
    | token other =>
      obtain rfl := Option.some.inj found
      exact (decomposes_all source.toList).spells among
    | _ => simp [Piece.lexeme?] at found
  obtain ⟨pieces, cut, kept, clean⟩ := exists_decomposes_joined _ spelled separator present blank
  rw [← lexemes] at cut
  have errors := errors_ofPieces .start pieces
  have again := tokens_ofPieces .start pieces
  rw [clean, List.map_eq_nil_iff] at errors
  rw [kept, ← proper] at again
  rw [ofSource, ← cut.eq_all]
  exact ⟨errors, again⟩

/-- A newline after every second text, and a space and a tab after the others. -/
def alternating (index : Nat) : String := if index % 2 = 0 then "\n" else " \t"

/-- A number before a point, two slashes apart, a string with slashes inside and a character that is
no token: the tokens that are left keep apart in any layout. -/
theorem ofSource_reprinted_slashes :
    (∀ index, alternating index ≠ "") ∧
      (∀ index, ∀ c ∈ (alternating index).toList, isSeparator c) ∧
      (ofSource "3.x/ /\"//\"@=").lexemes = ["3", ".", "x", "/", "/", "\"//\"", "="] ∧
      (ofSource (Text.joined alternating ["3", ".", "x", "/", "/", "\"//\"", "="])).errors =
        [] := by
  have present : ∀ index, alternating index ≠ "" := by
    intro index
    unfold alternating
    split <;> decide
  have blank : ∀ index, ∀ c ∈ (alternating index).toList, isSeparator c := by
    intro index
    unfold alternating
    split <;> simp [isSeparator]
  have lexemes : (ofSource "3.x/ /\"//\"@=").lexemes =
      ["3", ".", "x", "/", "/", "\"//\"", "="] := by decide +kernel
  have reprinted := ofSource_reprinted "3.x/ /\"//\"@=" alternating present blank
  rw [lexemes] at reprinted
  exact ⟨present, blank, lexemes, reprinted.1⟩

end Scan

end KoreanLox
