/-!
# Occurrences of one text in another

A text is searched for the first place where another text occurs in it literally, character by
character. From that follow containment and splitting at every occurrence that does not overlap
an earlier one.
-/

namespace KoreanLox.Text

/-- The text before and the text after the first occurrence of a part. -/
def cut? (part : List Char) : List Char → Option (List Char × List Char)
  | [] => if part.isEmpty then some ([], []) else none
  | c :: rest =>
    if part.isPrefixOf (c :: rest) then some ([], (c :: rest).drop part.length)
    else (cut? part rest).map fun found => (c :: found.1, found.2)

/-- A cut puts nothing but the part between the two texts it returns. -/
theorem eq_of_cut? {part text before after : List Char}
    (found : cut? part text = some (before, after)) : text = before ++ part ++ after := by
  induction text generalizing before with
  | nil =>
    cases part with
    | nil => simp [cut?] at found; simp [found]
    | cons => simp [cut?] at found
  | cons c rest ih =>
    rw [cut?] at found
    split at found
    next starts =>
      simp only [Option.some.injEq, Prod.mk.injEq] at found
      obtain ⟨rfl, rfl⟩ := found
      simpa using (List.prefix_iff_eq_append.mp (List.isPrefixOf_iff_prefix.mp starts)).symm
    next =>
      obtain ⟨inner, cutRest, same⟩ := Option.map_eq_some_iff.mp found
      obtain ⟨innerBefore, innerAfter⟩ := inner
      simp only [Prod.mk.injEq] at same
      obtain ⟨rfl, rfl⟩ := same
      simp [ih cutRest]

/-- Whether a part occurs in a text. -/
def contains (part text : List Char) : Bool :=
  (cut? part text).isSome

/-- The pieces of a text between the occurrences of the part that begins with `first` and goes on
with `others`, from left to right. -/
def splitAt (first : Char) (others text : List Char) : List (List Char) :=
  match _found : cut? (first :: others) text with
  | none => [text]
  | some (before, after) => before :: splitAt first others after
termination_by text.length
decreasing_by
  have := eq_of_cut? _found
  simp [this]
  omega

/-- The pieces of a text between the occurrences of a part; the empty part leaves every character
alone. -/
def split (part text : List Char) : List (List Char) :=
  match part with
  | [] => text.map fun c => [c]
  | first :: others => splitAt first others text

end KoreanLox.Text
