import KoreanLox.Text.Occurrence
import Mathlib.Data.List.Infix

/-!
# Pieces of a text

A text is cut at the first occurrence of a part, so that the part does not occur before it
(`Text.not_infix_of_cut?`), and it is not cut only where the part does not occur at all
(`Text.contains_iff`). So the pieces between the occurrences are free of the part
(`Text.not_infix_of_mem_splitAt`), there is more than one of them exactly if the part occurs
(`Text.one_lt_length_splitAt_iff`), and with the part between them they are the text
(`Text.intercalate_split`).
-/

namespace KoreanLox.Text

variable {part text before after : List Char}

/-! ## The first occurrence -/

/-- A text is not cut exactly if the part does not occur in it. -/
theorem cut?_eq_none_iff : cut? part text = none ↔ ¬ part <:+: text := by
  induction text with
  | nil => cases part <;> simp [cut?]
  | cons c rest ih =>
    rw [cut?, List.infix_cons_iff]
    by_cases starts : part <+: c :: rest
    · simp [starts]
    · simp [starts, ih]

/-- A text contains a part exactly if the part occurs in it. -/
theorem contains_iff : contains part text = true ↔ part <:+: text := by
  rw [contains, Option.isSome_iff_ne_none, ne_eq, cut?_eq_none_iff, not_not]

/-- A text does not contain a part exactly if the part does not occur in it. -/
theorem contains_eq_false_iff : contains part text = false ↔ ¬ part <:+: text := by
  rw [← contains_iff, Bool.not_eq_true]

/-- A part does not occur before its first occurrence. -/
theorem not_infix_of_cut? (nonempty : part ≠ []) (found : cut? part text = some (before, after)) :
    ¬ part <:+: before := by
  induction text generalizing before with
  | nil => simp [cut?, nonempty] at found
  | cons c rest ih =>
    rw [cut?] at found
    split at found
    next =>
      obtain ⟨rfl, -⟩ := Prod.mk.inj (Option.some.inj found)
      simpa using nonempty
    next starts =>
      obtain ⟨⟨inner, left⟩, cutRest, same⟩ := Option.map_eq_some_iff.mp found
      obtain ⟨rfl, rfl⟩ := Prod.mk.inj same
      rw [List.infix_cons_iff]
      rintro (early | later)
      · -- A beginning of what stands before the occurrence is a beginning of the text.
        have whole : c :: inner <+: c :: rest := by
          rw [eq_of_cut? cutRest, List.append_assoc]
          exact List.prefix_append (c :: inner) (part ++ left)
        exact starts (List.isPrefixOf_iff_prefix.mpr (early.trans whole))
      · exact ih cutRest later

/-! ## The pieces between the occurrences -/

variable {first : Char} {others : List Char}

/-- Without an occurrence the text is the only piece. -/
theorem splitAt_of_none (missing : cut? (first :: others) text = none) :
    splitAt first others text = [text] := by
  rw [splitAt]
  split
  next => rfl
  next found => simp [missing] at found

/-- The first piece stands before the first occurrence, and the others are those of what is behind
it. -/
theorem splitAt_of_some (found : cut? (first :: others) text = some (before, after)) :
    splitAt first others text = before :: splitAt first others after := by
  rw [splitAt]
  split
  next missing => simp [found] at missing
  next same =>
    obtain ⟨rfl, rfl⟩ := Prod.mk.inj (Option.some.inj (found.symm.trans same))
    rfl

/-- There is always a piece. -/
theorem splitAt_ne_nil (first : Char) (others text : List Char) :
    splitAt first others text ≠ [] := by
  cases cut : cut? (first :: others) text with
  | none => simp [splitAt_of_none cut]
  | some found => simp [splitAt_of_some cut]

/-- The pieces with the part between them are the text. -/
theorem intercalate_splitAt (first : Char) (others text : List Char) :
    (first :: others).intercalate (splitAt first others text) = text := by
  induction text using splitAt.induct first others with
  | case1 text missing => rw [splitAt_of_none missing, List.intercalate_singleton]
  | case2 text before after found ih =>
    rw [splitAt_of_some found, List.intercalate_cons_of_ne_nil (splitAt_ne_nil _ _ _), ih]
    exact (eq_of_cut? found).symm

/-- The part does not occur in any piece. -/
theorem not_infix_of_mem_splitAt {piece : List Char} (listed : piece ∈ splitAt first others text) :
    ¬ first :: others <:+: piece := by
  induction text using splitAt.induct first others with
  | case1 text missing =>
    rw [splitAt_of_none missing] at listed
    rw [List.mem_singleton.mp listed]
    exact cut?_eq_none_iff.mp missing
  | case2 text before after found ih =>
    rw [splitAt_of_some found] at listed
    rcases List.mem_cons.mp listed with rfl | later
    · exact not_infix_of_cut? (List.cons_ne_nil first others) found
    · exact ih later

/-- There is more than one piece exactly if the part occurs in the text. -/
theorem one_lt_length_splitAt_iff :
    1 < (splitAt first others text).length ↔ first :: others <:+: text := by
  cases cut : cut? (first :: others) text with
  | none =>
    rw [splitAt_of_none cut]
    simpa using cut?_eq_none_iff.mp cut
  | some found =>
    have further := List.length_pos_of_ne_nil (splitAt_ne_nil first others found.2)
    have occurs : first :: others <:+: text := by
      rw [← contains_iff, contains, cut]
      rfl
    rw [splitAt_of_some cut, List.length_cons]
    exact iff_of_true (Nat.succ_lt_succ further) occurs

/-- The pieces of a text with the part between them are the text, also if the part is empty. -/
theorem intercalate_split (part text : List Char) : part.intercalate (split part text) = text := by
  cases part with
  | cons first others => exact intercalate_splitAt first others text
  | nil =>
    rw [split]
    induction text with
    | nil => rfl
    | cons c rest ih =>
      cases rest with
      | nil => rfl
      | cons next rest =>
        rw [List.map_cons, List.intercalate_cons_of_ne_nil (by simp), ih]
        rfl

end KoreanLox.Text
