import KoreanLox.Evaluation.Evaluate
import KoreanLox.Proofs.Evaluation.SharedArrays
import KoreanLox.Proofs.Number.Whole
import KoreanLox.Proofs.Text.Occurrence

/-!
# Natives that take texts apart

Splitting and the operator `+` undo each other, and no piece contains the delimiter
(`Evaluation.pieces_rejoin`). A substring is exactly what stands between two positions: a range that
does not lie in the text is refused, and what stands before, in and behind a range that does is the
text (`Evaluation.substring_cuts_text`). What a text contains are its substrings.
-/

namespace KoreanLox

namespace Evaluation

open Run

variable {span : Span} {machine : Machine}

/-! ## Splitting -/

/-- Values put together by the operator `+`, with another value between them. -/
def rejoin (between : Value) : List Value → Except RuntimeCause Value
  | [] => .ok (.string "")
  | first :: rest =>
    rest.foldlM (fun joined value => do
      let before ← BinaryOperator.add.apply joined between
      BinaryOperator.add.apply before value) first

/-- Strings are put together to a string. -/
theorem rejoin_strings (delimiter : String) (parts : List String) :
    rejoin (.string delimiter) (parts.map Value.string) =
      .ok (.string (delimiter.intercalate parts)) := by
  cases parts with
  | nil => simp [rejoin]
  | cons first rest =>
    rw [List.map_cons, rejoin]
    induction rest generalizing first with
    | nil => simp [pure, Except.pure]
    | cons next rest ih =>
      rw [List.map_cons, List.foldlM_cons]
      show List.foldlM _ (Value.string (first ++ delimiter ++ next)) (rest.map Value.string) = _
      rw [ih, String.intercalate_cons_append, String.intercalate_cons_cons]

/-- The pieces of a text between the occurrences of a delimiter; the empty delimiter leaves every
character alone. -/
def pieces (text delimiter : String) : List String :=
  (Text.split delimiter.toList text.toList).map String.ofList

example : pieces "aaa" "aa" = ["", "a"] := by decide +kernel

/-- The empty delimiter leaves every character alone. -/
theorem pieces_empty (text : String) : pieces text "" = text.toList.map String.singleton := by
  show (text.toList.map fun c => [c]).map String.ofList = _
  rw [List.map_map]
  rfl

/-- The pieces with the delimiter between them are the text. -/
theorem intercalate_pieces (text delimiter : String) :
    delimiter.intercalate (pieces text delimiter) = text := by
  rw [← String.toList_inj, String.toList_intercalate, pieces, List.map_map]
  have same : String.toList ∘ String.ofList = id := by
    funext cs
    exact String.toList_ofList
  rw [same, List.map_id, Text.intercalate_split]

/-- No piece contains the delimiter, of the pieces there are some, and there are more than one
exactly if the text contains it. -/
theorem pieces_of_ne {delimiter : String} (nonempty : delimiter ≠ "") (text : String) :
    pieces text delimiter ≠ [] ∧
      (∀ piece ∈ pieces text delimiter, Text.contains delimiter.toList piece.toList = false) ∧
      (1 < (pieces text delimiter).length ↔
        Text.contains delimiter.toList text.toList = true) := by
  obtain ⟨first, others, same⟩ :=
    List.exists_cons_of_ne_nil (mt String.toList_eq_nil_iff.mp nonempty)
  have split : pieces text delimiter =
      (Text.splitAt first others text.toList).map String.ofList := by
    rw [pieces, same, Text.split]
  rw [split, same]
  refine ⟨?_, ?_, ?_⟩
  · simpa using Text.splitAt_ne_nil first others text.toList
  · intro piece listed
    obtain ⟨cs, between, rfl⟩ := List.mem_map.mp listed
    rw [String.toList_ofList, Text.contains_eq_false_iff]
    exact Text.not_infix_of_mem_splitAt between
  · rw [List.length_map, Text.one_lt_length_splitAt_iff, Text.contains_iff]

/-- What a text contains is what occurs in it. -/
theorem callNative_contains (text part : String) :
    callNative span .contains [.string text, .string part] machine =
      (.ok (.boolean (Text.contains part.toList text.toList)), machine) := rfl

/-- The length of an array is its number of elements. -/
theorem callNative_arraySize (ref : ArrayRef) :
    callNative span .arraySize [.array ref] machine =
      (.ok (ofCount (machine.store.arrayLength ref)), machine) := rfl

/-- Splitting makes an array of the pieces. -/
theorem callNative_split (text delimiter : String) :
    callNative span .split [.string text, .string delimiter] machine =
      (.ok (.array ⟨machine.store.arrays.size⟩), { machine with
        store := (machine.store.addArray
          ((pieces text delimiter).map Value.string).toArray).2 }) := by
  rw [pieces, List.map_map]
  rfl

/-- Splitting a text makes an array that was not there before, and leaves all others alone. Its
elements are strings, and these with the delimiter between them are put together to the text by the
operator `+`. A string contains the delimiter exactly if its characters stand in it one after the
other. If the delimiter is not empty there is one piece at least, none contains the delimiter, and
there are more than one exactly if the text contains it. If it is empty they are the characters of
the text, and the array is as long as the text. -/
theorem pieces_rejoin (span : Span) (machine : Machine) (text delimiter : String) :
    ∃ (ref : ArrayRef) (store : Store) (parts : List String),
      callNative span .split [.string text, .string delimiter] machine =
          (.ok (.array ref), { machine with store := store }) ∧
        machine.store.array? ref = none ∧
        (store.elements ref).toList = parts.map Value.string ∧
        (∀ other, other ≠ ref → store.elements other = machine.store.elements other) ∧
        rejoin (.string delimiter) (parts.map Value.string) = .ok (.string text) ∧
        (∀ whole : String, ∃ answer, (∀ later, callNative span .contains
            [.string whole, .string delimiter] later = (.ok (.boolean answer), later)) ∧
          (answer = true ↔ delimiter.toList <:+: whole.toList)) ∧
        (delimiter ≠ "" → parts ≠ [] ∧
          (∀ part ∈ parts, ∀ later, callNative span .contains [.string part, .string delimiter]
            later = (.ok (.boolean false), later)) ∧
          (1 < parts.length ↔ ∀ later, callNative span .contains
            [.string text, .string delimiter] later = (.ok (.boolean true), later))) ∧
        (delimiter = "" → parts = text.toList.map String.singleton ∧
          ∃ size, (∀ later, callNative span .length [.string text] later = (.ok size, later)) ∧
            callNative span .arraySize [.array ref] { machine with store := store } =
              (.ok size, { machine with store := store })) := by
  refine ⟨_, _, pieces text delimiter, callNative_split text delimiter, ?_, ?_, ?_, ?_, ?_, ?_, ?_⟩
  · simp [Store.array?]
  · rw [Store.elements_addArray, if_pos rfl]
  · intro other different
    rw [Store.elements_addArray, if_neg]
    exact fun last => different (congrArg Ref.mk last)
  · rw [rejoin_strings, intercalate_pieces]
  · exact fun whole => ⟨_, fun later => callNative_contains whole delimiter, Text.contains_iff⟩
  · intro nonempty
    obtain ⟨some, free, more⟩ := pieces_of_ne nonempty text
    refine ⟨some, fun piece listed later => ?_, more.trans ?_⟩
    · rw [callNative_contains, free piece listed]
    · exact ⟨fun found later => by rw [callNative_contains, found],
        fun found => by simpa [callNative_contains] using found machine⟩
  · rintro rfl
    refine ⟨pieces_empty text, ofCount text.length, fun later => rfl, ?_⟩
    have size : (machine.store.addArray
        ((pieces text "").map Value.string).toArray).2.arrayLength ⟨machine.store.arrays.size⟩ =
          text.length := by
      rw [Store.arrayLength, Store.elements_addArray, if_pos rfl, pieces_empty]
      simp [String.length_toList]
    rw [callNative_arraySize, size]

/-! ## Substrings -/

/-- Two numbers with their fractions cut off are the ends of a range in a text of some length. -/
structure Ends (start finish : Float) (length first last : Nat) : Prop where
  /-- The range begins at the first position. -/
  start : ∃ q, Number.value? start = some q ∧ Number.towardZero q = first
  /-- The range ends before the last position. -/
  finish : ∃ q, Number.value? finish = some q ∧ Number.towardZero q = last
  /-- The range does not end before it begins. -/
  ordered : first ≤ last
  /-- The range ends within the text. -/
  inside : last ≤ length

/-- The ends of a range are told by the numbers without their fractions. -/
theorem ends_iff {start finish : Float} {length first last : Nat} :
    Ends start finish length first last ↔
      Number.truncated start = .integer first ∧ Number.truncated finish = .integer last ∧
        first ≤ last ∧ last ≤ length := by
  rw [Number.truncated_eq_integer_iff, Number.truncated_eq_integer_iff]
  constructor
  · exact fun ends => ⟨ends.start, ends.finish, ends.ordered, ends.inside⟩
  · exact fun ⟨start, finish, ordered, inside⟩ => ⟨start, finish, ordered, inside⟩

/-- Only integers are within bounds, unless a number is undefined. -/
theorem inBounds_iff {start finish : Number.Truncated} (starts : start ≠ .undefined)
    (finishes : finish ≠ .undefined) (length : Nat) :
    inBounds start finish length = true ↔ ∃ first last : Nat,
      start = .integer first ∧ finish = .integer last ∧ first ≤ last ∧ last ≤ length := by
  cases start with
  | undefined => exact absurd rfl starts
  | infinite negative =>
    cases finish with
    | undefined => exact absurd rfl finishes
    | infinite other => cases negative <;> cases other <;> simp [inBounds, Number.Truncated.lt]
    | integer finish => cases negative <;> simp [inBounds, Number.Truncated.lt]
  | integer start =>
    cases finish with
    | undefined => exact absurd rfl finishes
    | infinite other => cases other <;> simp [inBounds, Number.Truncated.lt]
    | integer finish =>
      simp only [inBounds, Number.Truncated.lt, Bool.and_eq_true, Bool.not_eq_true',
        decide_eq_false_iff_not, not_lt, Number.Truncated.integer.injEq]
      constructor
      · rintro ⟨⟨begins, inside⟩, ordered⟩
        exact ⟨start.toNat, finish.toNat, by omega⟩
      · rintro ⟨first, last, rfl, rfl, ordered, inside⟩
        omega

/-- What is left of a number without its fraction is undefined only if the number is. -/
theorem truncated_ne_undefined {x : Float} (number : x.isNaN = false) :
    Number.truncated x ≠ .undefined := by
  intro nothing
  have parts : Number.parts x = .undefined := by
    unfold Number.truncated at nothing
    cases same : Number.parts x with
    | undefined => rfl
    | infinite | finite => simp [same, Number.Parts.truncated] at nothing
  rw [(Number.isNaN_iff x).mpr parts] at number
  cases number

variable {text : String} {start finish : Float} {first last : Nat}

/-- A count that is not too great is a position. -/
theorem position_integer {count : Nat} (short : count < 2 ^ 53) :
    (Number.Truncated.integer count).position = count := by
  have below : count ≤ Number.positions - 1 := by
    unfold Number.positions
    omega
  rw [Number.Truncated.position, Int.toNat_natCast, min_eq_left below]

/-- The characters between the ends of a range are given. The ends are in order, and so their
difference does not go below zero. -/
theorem callNative_substring (short : text.length < 2 ^ 53)
    (ends : Ends start finish text.length first last) :
    callNative span .substring [.string text, .number start, .number finish] machine =
      (.ok (.string (String.ofList (slice text.toList first (last - first)))), machine) := by
  obtain ⟨start, finish, ordered, inside⟩ := ends_iff.mp ends
  have bounds : inBounds (.integer first) (.integer last) text.length = true :=
    (inBounds_iff (by simp) (by simp) _).mpr ⟨first, last, rfl, rfl, ordered, inside⟩
  show substringOf span text _ _ machine = _
  unfold substringOf
  simp only [start, finish, bounds, if_true, position_integer (show first < 2 ^ 53 by omega),
    position_integer (show last < 2 ^ 53 by omega)]
  rw [bind_apply, lengthBetween_of_le ordered]
  rfl

/-- A range that has no ends in the text is refused. -/
theorem callNative_substring_outside (starts : start.isNaN = false)
    (finishes : finish.isNaN = false)
    (outside : ∀ first last, ¬ Ends start finish text.length first last) :
    callNative span .substring [.string text, .number start, .number finish] machine =
      (.error (.failure ⟨.native .substring (.outOfBounds (Number.truncate start)
        (Number.truncate finish) text.length), some span⟩), machine) := by
  show substringOf span text _ _ machine = _
  unfold substringOf
  rw [if_neg]
  · rfl
  · rw [inBounds_iff (truncated_ne_undefined starts) (truncated_ne_undefined finishes)]
    rintro ⟨first, last, found⟩
    exact outside first last (ends_iff.mpr found)

/-- Two counts in order are the ends of a range in a text that is not too long. -/
theorem ends_counts {length : Nat} (short : length < 2 ^ 53) (ordered : first ≤ last)
    (inside : last ≤ length) :
    Ends (Float.ofNat first) (Float.ofNat last) length first last := by
  have equals {count : Nat} (below : count < 2 ^ 53) :
      ∃ q, Number.value? (Float.ofNat count) = some q ∧ Number.towardZero q = count :=
    ⟨count, Number.value?_ofNat below, by
      rw [Number.towardZero_of_nonneg (Nat.cast_nonneg count), Int.floor_natCast]⟩
  exact ⟨equals (by omega), equals (by omega), ordered, inside⟩

/-- A substring occurs in its text. -/
theorem infix_of_substring {part : String}
    (found : callNative span .substring [.string text, .number start, .number finish] machine =
      (.ok (.string part), machine)) : part.toList <:+: text.toList := by
  change substringOf span text start finish machine = _ at found
  unfold substringOf at found
  split at found
  next =>
    rw [bind_apply] at found
    rcases lengthBetween_cases (Number.truncated start).position
      (Number.truncated finish).position machine with ⟨count, told⟩ | ⟨-, told⟩
    · rw [told] at found
      have same := Value.string.inj (Except.ok.inj (Prod.mk.inj found).1)
      rw [← same, String.toList_ofList]
      exact (List.take_prefix _ _).isInfix.trans (List.drop_suffix _ _).isInfix
    · rw [told] at found
      cases (Prod.mk.inj found).1
  next => cases (Prod.mk.inj found).1

/-- What occurs in a text is a substring of it. -/
theorem substring_of_infix (short : text.length < 2 ^ 53) {part : String}
    (occurs : part.toList <:+: text.toList) :
    ∃ first last : Nat, first ≤ last ∧
      callNative span .substring [.string text, ofCount first, ofCount last] machine =
        (.ok (.string part), machine) := by
  obtain ⟨before, behind, whole⟩ := occurs
  have length : text.length = before.length + part.toList.length + behind.length := by
    rw [← String.length_toList, ← whole, List.length_append, List.length_append]
  have ends := ends_counts short (Nat.le_add_right before.length part.toList.length) (by omega)
  refine ⟨_, _, Nat.le_add_right before.length part.toList.length, ?_⟩
  rw [ofCount, ofCount, callNative_substring short ends, slice, ← whole, List.append_assoc,
    List.drop_left, Nat.add_sub_cancel_left, List.take_left, String.ofList_toList]

/-- What stands before a range, in it and behind it is the text. -/
theorem slices_append (cs : List Char) (ordered : first ≤ last) :
    slice cs 0 (first - 0) ++ slice cs first (last - first) ++
      slice cs last (cs.length - last) = cs := by
  have early : slice cs 0 (first - 0) ++ slice cs first (last - first) = cs.take last := by
    unfold slice
    rw [List.drop_zero, Nat.sub_zero, ← List.take_add, Nat.add_sub_cancel' ordered]
  have late : slice cs last (cs.length - last) = cs.drop last := by
    unfold slice
    rw [← List.length_drop, List.take_length]
  rw [early, late, List.take_append_drop]

/-- A slice has as many characters as it is asked for, if the text is not at its end before. -/
theorem length_slice {cs : List Char} (inside : last ≤ cs.length) :
    (slice cs first (last - first)).length = last - first := by
  unfold slice
  rw [List.length_take, List.length_drop]
  omega

/-- Two numbers whose fractions are cut off in the direction of zero give the substring between
them, exactly if they are in order and not beyond the ends of the text: it has as many characters as
they are apart, and with what stands before and behind it, it is the text. All other numbers are
refused by the function. And a text contains a part exactly if the part is one of its substrings. -/
theorem substring_cuts_text (span : Span) (machine : Machine) {text : String}
    {start finish : Float} (starts : start.isNaN = false) (finishes : finish.isNaN = false)
    (short : text.length < 2 ^ 53) :
    (∀ first last, Ends start finish text.length first last →
      ∃ before result behind : String,
        callNative span .substring [.string text, .number start, .number finish] machine =
            (.ok (.string result), machine) ∧
          (Number.truncated start).position ≤ (Number.truncated finish).position ∧
          first + result.length = last ∧
          callNative span .substring [.string text, ofCount 0, ofCount first] machine =
            (.ok (.string before), machine) ∧
          (∃ length, callNative span .length [.string text] machine = (.ok length, machine) ∧
            callNative span .substring [.string text, ofCount last, length] machine =
              (.ok (.string behind), machine)) ∧
          (do
            let joined ← BinaryOperator.add.apply (.string before) (.string result)
            BinaryOperator.add.apply joined (.string behind)) = .ok (.string text)) ∧
      ((∀ first last, ¬ Ends start finish text.length first last) →
        ∃ problem, callNative span .substring
          [.string text, .number start, .number finish] machine =
            (.error (.failure ⟨.native .substring problem, some span⟩), machine)) ∧
      ∀ part : String,
        callNative span .contains [.string text, .string part] machine =
            (.ok (.boolean true), machine) ↔
          ∃ first last : Nat, first ≤ last ∧
            callNative span .substring [.string text, ofCount first, ofCount last] machine =
              (.ok (.string part), machine) := by
  refine ⟨fun first last ends => ?_, fun outside => ?_, fun part => ?_⟩
  · obtain ⟨begins, stops, ordered, inside⟩ := ends_iff.mp ends
    have whole : text.toList.length = text.length := String.length_toList
    refine ⟨_, _, _, callNative_substring short ends, ?_, ?_,
      callNative_substring short (ends_counts short (Nat.zero_le first) (ordered.trans inside)),
      ⟨ofCount text.length, rfl, callNative_substring short (ends_counts short inside le_rfl)⟩, ?_⟩
    · rw [begins, stops, position_integer (by omega), position_integer (by omega)]
      exact ordered
    · rw [String.length_ofList, length_slice (by omega)]
      omega
    · show Except.ok (Value.string (String.ofList _ ++ String.ofList _ ++ String.ofList _)) = _
      rw [← String.ofList_append, ← String.ofList_append, ← whole, slices_append _ ordered,
        String.ofList_toList]
  · exact ⟨_, callNative_substring_outside starts finishes outside⟩
  · rw [callNative_contains, Prod.mk.injEq, Except.ok.injEq, Value.boolean.injEq, eq_self,
      and_true, Text.contains_iff]
    constructor
    · exact substring_of_infix short
    · rintro ⟨first, last, -, found⟩
      exact infix_of_substring found

/-- Two characters are cut out of three, with fractions that count for nothing. -/
theorem substring_cuts_text_fractions :
    Float.isNaN (-0.5) = false ∧ Float.isNaN 2.9 = false ∧ "한글a".length < 2 ^ 53 ∧
      Ends (-0.5) 2.9 "한글a".length 0 2 ∧ ∃ result,
        callNative (.point .start) .substring
            [.string "한글a", .number (-0.5), .number 2.9] idle = (.ok (.string result), idle) ∧
          0 + result.length = 2 := by
  have starts : Float.isNaN (-0.5) = false := by decide +kernel
  have finishes : Float.isNaN 2.9 = false := by decide +kernel
  have short : "한글a".length < 2 ^ 53 := by decide +kernel
  have ends : Ends (-0.5) 2.9 "한글a".length 0 2 := ends_iff.mpr (by decide +kernel)
  obtain ⟨-, result, -, cut, -, length, -⟩ :=
    (substring_cuts_text (.point .start) idle starts finishes short).1 0 2 ends
  exact ⟨starts, finishes, short, ends, result, cut, length⟩

end Evaluation

end KoreanLox
