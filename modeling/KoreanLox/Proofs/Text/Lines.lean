import KoreanLox.Text.Blank
import KoreanLox.Text.Line
import Mathlib.Data.List.TakeWhile
import Mathlib.Tactic.Common

/-!
# The lines of a text

A text is divided into lines behind its newlines (`Text.lines`). Among the bytes of a text a line
feed stands for a newline and is part of no other character, so that the first line of the bytes is
the first line of the text (`Text.firstLine_encoded`). The content of a line is the line without
its ending (`Text.content_withoutEnding`), and trimming drops the white space around a line
(`Text.trims_trim`).
-/

namespace KoreanLox.Text

/-! ## Lines of characters -/

/-- The lines of a text, each with its newline; the last one may have none. -/
def lines : List Char → List (List Char)
  | [] => []
  | c :: rest =>
    if c = '\n' then [c] :: lines rest
    else
      match lines rest with
      | [] => [[c]]
      | first :: others => (c :: first) :: others

example : lines "a\r\n\nb".toList = ["a\r\n".toList, "\n".toList, "b".toList] := by decide

/-- All lines together are the text. -/
theorem flatten_lines (text : List Char) : (lines text).flatten = text := by
  induction text with
  | nil => rfl
  | cons c rest ih =>
    rw [lines]
    split
    next => rw [List.flatten_cons, ih, List.singleton_append]
    next =>
      generalize lines rest = others at ih
      cases others with
      | nil => simpa using ih
      | cons first others => simpa using ih

/-- The first line of a text and what is behind it. -/
def splitLine : List Char → List Char × List Char
  | [] => ([], [])
  | c :: rest =>
    if c = '\n' then ([c], rest) else (c :: (splitLine rest).1, (splitLine rest).2)

/-- The lines of a text are its first line and those of what is behind it. -/
theorem lines_of_ne_nil {text : List Char} (some : text ≠ []) :
    lines text = (splitLine text).1 :: lines (splitLine text).2 := by
  induction text with
  | nil => exact absurd rfl some
  | cons c rest ih =>
    rw [lines, splitLine]
    by_cases ended : c = '\n'
    · rw [if_pos ended, if_pos ended]
    · rw [if_neg ended, if_neg ended]
      cases rest with
      | nil => rfl
      | cons next rest => rw [ih (List.cons_ne_nil next rest)]

/-- Only the empty text begins with an empty line. -/
theorem splitLine_fst_eq_nil {text : List Char} : (splitLine text).1 = [] ↔ text = [] := by
  cases text with
  | nil => exact ⟨fun _ => rfl, fun _ => rfl⟩
  | cons c rest =>
    rw [splitLine]
    split <;> simp

/-! ## Lines of bytes -/

/-- The bytes of a text. -/
def encoded (text : List Char) : List UInt8 := text.flatMap String.utf8EncodeChar

/-- Bytes are read as a text exactly if they are the bytes of that text. -/
theorem decode?_eq_some_iff {bytes : List UInt8} {text : String} :
    decode? bytes = some text ↔ bytes = encoded text.toList := by
  have whole : text.toByteArray = ⟨(encoded text.toList).toArray⟩ := by
    rw [← String.utf8Encode_toList]
    exact ByteArray.ext List.data_toByteArray
  unfold decode? String.fromUTF8?
  constructor
  · intro read
    split at read
    next valid =>
      have same : text.toByteArray = ⟨bytes.toArray⟩ := by
        rw [← Option.some.inj read]
        rfl
      rw [whole] at same
      simpa using same.symm
    next => cases read
  · rintro rfl
    rw [← whole, dif_pos text.isValidUTF8]
    rfl

/-- A line feed is part of no character but a newline. -/
theorem lineFeed_not_mem {c : Char} (other : c ≠ '\n') : lineFeed ∉ String.utf8EncodeChar c := by
  have code : c.val.toNat ≠ 10 := fun same => other (Char.toNat_inj.mp same)
  have feed (byte : Nat) : lineFeed = UInt8.ofNat byte ↔ byte % 256 = 10 := by
    rw [← UInt8.toNat_inj, UInt8.toNat_ofNat']
    exact eq_comm
  unfold String.utf8EncodeChar
  dsimp only
  repeat' split
  all_goals
    simp only [List.mem_cons, List.not_mem_nil, or_false, feed]
    omega

/-- A line feed ends the first line, and any other byte belongs to it. -/
theorem firstLine_cons (byte : UInt8) (bytes : List UInt8) :
    firstLine (byte :: bytes) =
      if byte = lineFeed then ([byte], bytes)
      else (byte :: (firstLine bytes).1, (firstLine bytes).2) := by
  unfold firstLine
  rw [List.dropWhile_cons, List.takeWhile_cons]
  by_cases ended : byte = lineFeed
  · subst ended
    rfl
  · have going : (byte != lineFeed) = true := by simpa using ended
    rw [if_neg ended, if_pos going, if_pos going]
    cases bytes.dropWhile (· != lineFeed) <;> rfl

/-- Bytes without a line feed belong to the first line. -/
theorem firstLine_of_not_mem {early : List UInt8} (without : lineFeed ∉ early)
    (bytes : List UInt8) :
    firstLine (early ++ bytes) = (early ++ (firstLine bytes).1, (firstLine bytes).2) := by
  induction early with
  | nil => rfl
  | cons byte early ih =>
    have other : byte ≠ lineFeed := fun same => without (same ▸ List.mem_cons_self)
    have others : lineFeed ∉ early := fun listed => without (List.mem_cons_of_mem byte listed)
    rw [List.cons_append, firstLine_cons, if_neg other, ih others]
    rfl

/-- The first line of the bytes of a text are the bytes of its first line. -/
theorem firstLine_encoded (text : List Char) :
    firstLine (encoded text) = (encoded (splitLine text).1, encoded (splitLine text).2) := by
  induction text with
  | nil => rfl
  | cons c rest ih =>
    have cons : encoded (c :: rest) = String.utf8EncodeChar c ++ encoded rest := rfl
    rw [splitLine]
    by_cases ended : c = '\n'
    · subst ended
      exact firstLine_cons _ _
    · rw [if_neg ended, cons, firstLine_of_not_mem (lineFeed_not_mem ended), ih]
      rfl

/-- A text has no more lines than bytes. -/
theorem length_lines_le (text : List Char) : (lines text).length ≤ (encoded text).length := by
  induction text with
  | nil => exact Nat.le_refl 0
  | cons c rest ih =>
    have fewer : (lines (c :: rest)).length ≤ (lines rest).length + 1 := by
      rw [lines]
      split
      next => exact Nat.le_refl _
      next =>
        cases lines rest with
        | nil => exact Nat.le_refl 1
        | cons first others => exact Nat.le_succ _
    have size : (encoded (c :: rest)).length = c.utf8Size + (encoded rest).length := by
      rw [← String.length_utf8EncodeChar, ← List.length_append]
      rfl
    have positive := c.utf8Size_pos
    omega

/-! ## What a line is read as -/

/-- A line is read as its content: without the line feed, or the carriage return and the line feed,
at its end. -/
inductive Content : List Char → List Char → Prop where
  /-- The line ends with a line feed. -/
  | feed {content : List Char} (other : content.getLast? ≠ some '\r') :
    Content (content ++ ['\n']) content
  /-- The line ends with a carriage return and a line feed. -/
  | returnFeed (content : List Char) : Content (content ++ ['\r', '\n']) content
  /-- The line has no line feed at its end; a carriage return stays. -/
  | unended {line : List Char} (other : line.getLast? ≠ some '\n') : Content line line

/-- The content of a line is what is left without its ending. -/
theorem content_withoutEnding (line : List Char) : Content line (withoutEnding line) := by
  obtain ⟨turned, rfl⟩ : ∃ turned : List Char, line = turned.reverse :=
    ⟨_, line.reverse_reverse.symm⟩
  unfold withoutEnding
  rw [List.reverse_reverse]
  split
  next rest =>
    rw [List.reverse_cons, List.reverse_cons, List.append_assoc]
    exact .returnFeed _
  next rest other =>
    rw [List.reverse_cons]
    refine .feed fun ends => ?_
    rw [List.getLast?_reverse] at ends
    obtain ⟨tail, rfl⟩ := List.head?_eq_some_iff.mp ends
    exact other tail rfl
  next other =>
    refine .unended fun ends => ?_
    rw [List.getLast?_reverse] at ends
    obtain ⟨tail, rfl⟩ := List.head?_eq_some_iff.mp ends
    exact other tail rfl

/-- A unit is a line without the white space at its ends. -/
structure Trims (line unit : List Char) : Prop where
  /-- Only white space stands around it. -/
  around : ∃ before after, line = before ++ unit ++ after ∧ (∀ c ∈ before, isBlank c = true) ∧
    ∀ c ∈ after, isBlank c = true
  /-- It does not begin with white space. -/
  first : ∀ c ∈ unit.head?, isBlank c = false
  /-- It does not end with white space. -/
  last : ∀ c ∈ unit.getLast?, isBlank c = false

/-- What is dropped from the front of a text is white space, and what is left begins with none. -/
theorem exists_blank_append (text : List Char) :
    ∃ blank, text = blank ++ text.dropWhile isBlank ∧ (∀ c ∈ blank, isBlank c = true) ∧
      ∀ c ∈ (text.dropWhile isBlank).head?, isBlank c = false := by
  refine ⟨text.takeWhile isBlank, List.takeWhile_append_dropWhile.symm,
    fun c => List.mem_takeWhile_imp, fun c first => ?_⟩
  have stopped := List.head?_dropWhile_not isBlank text
  rwa [Option.mem_def.mp first] at stopped

/-- Trimming drops the white space around a line. -/
theorem trims_trim (line : List Char) : Trims line (trim line) := by
  obtain ⟨before, front, blank, first⟩ := exists_blank_append line
  obtain ⟨after, back, blank', last⟩ := exists_blank_append (line.dropWhile isBlank).reverse
  have rest : line.dropWhile isBlank = trim line ++ after.reverse := by
    rw [← List.reverse_reverse (line.dropWhile isBlank), back, List.reverse_append]
    rfl
  refine ⟨⟨before, after.reverse, ?_, blank, fun c listed => ?_⟩, fun c begins => ?_,
    fun c ends => ?_⟩
  · rw [List.append_assoc, ← rest]
    exact front
  · exact blank' c (List.mem_reverse.mp listed)
  · refine first c ?_
    obtain ⟨tail, same⟩ := List.head?_eq_some_iff.mp begins
    rw [rest, same]
    rfl
  · refine last c ?_
    rwa [trim, trimEnd, List.getLast?_reverse] at ends

end KoreanLox.Text
