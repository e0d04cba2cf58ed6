import KoreanLox.Token.Scan
import KoreanLox.Tree.Basic

/-!
# Names among the tokens

A word that spells a keyword in either language is never a name, so the names of a scanned text
are other than all keywords (`Scan.names_ordinary`).
-/

namespace KoreanLox

/-- A name that spells no keyword. -/
def Ordinary (name : String) : Prop := Keyword.ofText? name = none

/-- A name that spells no keyword is not the one of the receiver. -/
theorem Ordinary.ne_receiver {name : String} (ordinary : Ordinary name) : name ≠ receiverName := by
  have reserved : Keyword.ofText? receiverName ≠ none := by decide
  rintro rfl
  exact reserved ordinary

/-- A name that spells no keyword is not the one of the superclass. -/
theorem Ordinary.ne_parent {name : String} (ordinary : Ordinary name) : name ≠ parentName := by
  have reserved : Keyword.ofText? parentName ≠ none := by decide
  rintro rfl
  exact reserved ordinary

namespace Lexeme

/-- What a class of tokens accepts as a name spells no keyword. -/
theorem matchers_ordinary {accept : List Char → Option Lexeme} (listed : accept ∈ matchers)
    {source : List Char} {lexeme : Lexeme} (accepted : accept source = some lexeme)
    {name : String} (named : lexeme.kind = .identifier name) : Ordinary name := by
  simp only [matchers, List.mem_append, List.mem_map, List.mem_cons, List.not_mem_nil,
    or_false] at listed
  rcases listed with ⟨mark, -, rfl⟩ | rfl | rfl | rfl
  · unfold mark? at accepted
    split at accepted
    · obtain rfl := Option.some.inj accepted
      simp at named
    · simp at accepted
  · cases source with
    | nil => simp [word?] at accepted
    | cons c rest =>
      simp only [word?, Option.ite_none_right_eq_some, Option.some.injEq] at accepted
      obtain ⟨-, rfl⟩ := accepted
      unfold ofWord at named
      dsimp only at named
      split at named
      next => simp at named
      next other =>
        obtain rfl := Kind.identifier.inj named
        exact other
  · unfold string? at accepted
    split at accepted
    · dsimp only at accepted
      split at accepted
      · simp at accepted
      · obtain rfl := Option.some.inj accepted
        simp at named
    · simp at accepted
  · unfold number? at accepted
    dsimp only at accepted
    split at accepted
    · simp at accepted
    · split at accepted
      · obtain rfl := Option.some.inj accepted
        simp at named
      · obtain rfl := Option.some.inj accepted
        simp at named

/-- The longest start of a text that is a name spells no keyword. -/
theorem longest?_ordinary {source : List Char} {lexeme : Lexeme}
    (found : longest? source = some lexeme) {name : String}
    (named : lexeme.kind = .identifier name) : Ordinary name := by
  unfold longest? at found
  split at found
  next => simp at found
  next first others same =>
    obtain rfl := Option.some.inj found
    have listed := foldl_longer_mem first others
    rw [← same, List.mem_filterMap] at listed
    obtain ⟨accept, known, accepted⟩ := listed
    exact matchers_ordinary known accepted named

end Lexeme

/-- A piece that is a name spells no keyword. -/
theorem Piece.all_ordinary {source : List Char} {lexeme : Lexeme}
    (listed : .token lexeme ∈ Piece.all source) {name : String}
    (named : lexeme.kind = .identifier name) : Ordinary name := by
  induction source using Piece.all.induct with
  | case1 => simp [Piece.all] at listed
  | case2 c rest piece ih =>
    rw [Piece.all, List.mem_cons] at listed
    rcases listed with same | listed
    · unfold Piece.first at same
      dsimp only at same
      split at same
      · simp at same
      · split at same
        · simp at same
        · split at same
          next found accepted =>
            obtain rfl := Piece.token.inj same
            exact Lexeme.longest?_ordinary accepted named
          next => split at same <;> simp at same
    · exact ih listed

namespace Scan

/-- The names among the tokens of some pieces come from these pieces. -/
theorem exists_piece_of_name {position : Position} {pieces : List Piece} {token : Token}
    (listed : token ∈ (ofPieces position pieces).tokens) {name : String}
    (named : token.kind = .identifier name) :
    ∃ lexeme, .token lexeme ∈ pieces ∧ lexeme.kind = .identifier name := by
  induction pieces generalizing position with
  | nil =>
    simp only [ofPieces, List.mem_singleton] at listed
    rw [listed] at named
    simp at named
  | cons piece rest ih =>
    have later (listed : token ∈ (ofPieces (position.afterAll piece.characters) rest).tokens) :
        ∃ lexeme, .token lexeme ∈ piece :: rest ∧ lexeme.kind = .identifier name := by
      obtain ⟨lexeme, found, same⟩ := ih listed
      exact ⟨lexeme, List.mem_cons_of_mem _ found, same⟩
    cases piece with
    | token lexeme =>
      simp only [ofPieces, List.mem_cons] at listed
      rcases listed with rfl | listed
      · exact ⟨lexeme, List.mem_cons_self, named⟩
      · exact later listed
    | _ => exact later listed

/-- The names among the tokens of a text spell no keyword. -/
theorem names_ordinary (source : String) {token : Token}
    (listed : token ∈ (ofSource source).tokens) {name : String}
    (named : token.kind = .identifier name) : Ordinary name := by
  obtain ⟨lexeme, found, same⟩ := exists_piece_of_name listed named
  exact Piece.all_ordinary found same

end Scan

end KoreanLox
