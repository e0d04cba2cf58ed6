import KoreanLox.Console
import Mathlib.Logic.Relation

/-!
# The output of a console

However a console is used, its output only grows, and a limit on it stays in force. A console with
a limit does what the same console without one does until a text no longer fits. From there on the
two are cut off from each other: the output of the one without a limit goes on, and that of the
other one is the part of it within the limit, whatever else is written (`Console.CutOff`).
-/

namespace KoreanLox.Console

/-- A single use of a console. -/
inductive Step : Console → Console → Prop where
  /-- A text is written. -/
  | write (console : Console) (text : String) : Step console (console.write text).2
  /-- A line is read. -/
  | readLine (console : Console) : Step console console.readLine.2
  /-- A reading of the clock is taken. -/
  | readClock (console : Console) : Step console console.readClock.2

/-- Uses of a console one after the other. -/
abbrev Steps : Console → Console → Prop := Relation.ReflTransGen Step

/-- Writing leaves everything but the output alone. -/
theorem write_eq (console : Console) (text : String) :
    (console.write text).2 = { console with written := (console.write text).2.written } := by
  unfold write
  dsimp only
  split <;> rfl

/-- Reading a line leaves everything but the input alone. -/
theorem readLine_eq (console : Console) :
    console.readLine.2 = { console with input := console.readLine.2.input } := by
  unfold readLine
  split <;> rfl

/-- A use of a console keeps its limit. -/
theorem Step.limit_eq {before after : Console} (used : before.Step after) :
    after.limit = before.limit := by
  cases used with
  | write text => rw [write_eq]
  | readLine => rw [readLine_eq]
  | readClock => rfl

/-- A use of a console does not change what machine it belongs to. -/
theorem Step.checked_eq {before after : Console} (used : before.Step after) :
    after.checked = before.checked := by
  cases used with
  | write text => rw [write_eq]
  | readLine => rw [readLine_eq]
  | readClock => rfl

/-- A use of a console adds to its output, and within the limit. -/
theorem Step.exists_append {before after : Console} (used : before.Step after) :
    ∃ more, after.written = before.written ++ more ∧
      ∀ limit, before.limit = some limit → before.written.size ≤ limit →
        before.written.size + more.size ≤ limit := by
  cases used with
  | write text =>
    refine ⟨_, written_write before text, fun limit limited fits => ?_⟩
    have kept := size_written_write_le before text limit limited fits
    rwa [written_write, ByteArray.size_append] at kept
  | readLine =>
    refine ⟨.empty, ?_, fun limit _ fits => fits⟩
    rw [readLine_eq, ByteArray.append_empty]
  | readClock =>
    refine ⟨.empty, ?_, fun limit _ fits => fits⟩
    rw [ByteArray.append_empty]
    rfl

/-- Uses of a console keep its limit. -/
theorem Steps.limit_eq {before after : Console} (used : before.Steps after) :
    after.limit = before.limit := by
  induction used with
  | refl => rfl
  | tail _ last ih => exact last.limit_eq.trans ih

/-- Uses of a console do not change what machine it belongs to. -/
theorem Steps.checked_eq {before after : Console} (used : before.Steps after) :
    after.checked = before.checked := by
  induction used with
  | refl => rfl
  | tail _ last ih => exact last.checked_eq.trans ih

/-- Uses of a console add to its output, and within the limit. -/
theorem Steps.exists_append {before after : Console} (used : before.Steps after) :
    ∃ more, after.written = before.written ++ more ∧
      ∀ limit, before.limit = some limit → before.written.size ≤ limit →
        before.written.size + more.size ≤ limit := by
  induction used with
  | refl => exact ⟨.empty, ByteArray.append_empty.symm, fun limit _ fits => fits⟩
  | @tail between after early last ih =>
    obtain ⟨more, grown, within⟩ := ih
    obtain ⟨further, added, inside⟩ := last.exists_append
    refine ⟨more ++ further, ?_, fun limit limited fits => ?_⟩
    · rw [added, grown, ByteArray.append_assoc]
    · have same : between.limit = some limit := (Steps.limit_eq early).trans limited
      have room := within limit limited fits
      have size : between.written.size = before.written.size + more.size := by
        rw [grown, ByteArray.size_append]
      have kept := inside limit same (by omega)
      rw [ByteArray.size_append]
      omega

/-- The output never gets shorter. -/
theorem Steps.size_le {before after : Console} (used : before.Steps after) :
    before.written.size ≤ after.written.size := by
  obtain ⟨more, grown, -⟩ := used.exists_append
  rw [grown, ByteArray.size_append]
  omega

/-- An output that has reached its limit stays as it is. -/
theorem Steps.written_eq_of_full {before after : Console} (used : before.Steps after)
    (full : before.limit = some before.written.size) : after.written = before.written := by
  obtain ⟨more, grown, within⟩ := used.exists_append
  have none := within _ full (Nat.le_refl _)
  have empty : more = .empty := ByteArray.size_eq_zero_iff.mp (by omega)
  rw [grown, empty, ByteArray.append_empty]

/-- A console whose output takes a number of bytes in all. -/
def capped (limit : Nat) (console : Console) : Console := { console with limit := some limit }

/-- Two consoles are in step: they are the same, or the second one has a limit that the output of
the first one is within. -/
def InStep : Option Nat → Console → Console → Prop
  | none, first, second => second = first
  | some limit, first, second =>
    first.limit = none ∧ first.written.size ≤ limit ∧ second = first.capped limit

/-- A console with a limit is cut off from one without. Both had been in step since some earlier
use, up to a text that no longer fitted into the second one; the first one took all of that text
and whatever else was done. -/
def CutOff (limit : Nat) (before first second : Console) : Prop :=
  ∃ cut text, before.Steps cut ∧ cut.limit = none ∧ cut.written.size ≤ limit ∧
    limit < (cut.write text).2.written.size ∧ second = ((cut.capped limit).write text).2 ∧
      (cut.write text).2.Steps first

/-- What is cut off stays so while the console without a limit is used. -/
theorem CutOff.after {limit : Nat} {before first second later : Console}
    (cut : CutOff limit before first second) (used : first.Steps later) :
    CutOff limit before later second := by
  obtain ⟨console, text, early, unlimited, fits, beyond, same, late⟩ := cut
  exact ⟨console, text, early, unlimited, fits, beyond, same, late.trans used⟩

/-- What is cut off from some use on is so from every earlier one. -/
theorem CutOff.from {limit : Nat} {before between first second : Console}
    (cut : CutOff limit between first second) (used : before.Steps between) :
    CutOff limit before first second := by
  obtain ⟨console, text, early, cut⟩ := cut
  exact ⟨console, text, used.trans early, cut⟩

/-- An unlimited output takes all of a text. -/
theorem write_of_unlimited {console : Console} (unlimited : console.limit = none) (text : String) :
    console.write text = (.ok (), { console with written := console.written ++ text.toUTF8 }) := by
  simp only [write, room, unlimited, if_true]

/-- The output of a console has reached its limit, and is the part within it of a longer output. -/
structure Behind (limit : Nat) (first second : Console) : Prop where
  /-- The console has the limit. -/
  limited : second.limit = some limit
  /-- The limit is reached. -/
  size : second.written.size = limit
  /-- The other output is longer. -/
  beyond : limit < first.written.size
  /-- The output is the part of the other one within the limit. -/
  written : second.written = first.written.extract 0 limit

/-- Nothing of what is added to bytes beyond a limit is within it. -/
theorem extract_append_of_le {bytes : ByteArray} {limit : Nat} (beyond : limit ≤ bytes.size)
    (more : ByteArray) : (bytes ++ more).extract 0 limit = bytes.extract 0 limit := by
  have nothing : limit - bytes.size = 0 := by omega
  rw [ByteArray.extract_append, nothing, Nat.zero_sub, ByteArray.extract_same,
    ByteArray.append_empty]

/-- All of some bytes within a limit is within it. -/
theorem extract_of_size_le {bytes : ByteArray} {limit : Nat} (fits : bytes.size ≤ limit) :
    bytes.extract 0 limit = bytes := by
  rw [← Nat.max_eq_left fits, ByteArray.extract_zero_max_size]

/-- The output of a console stays behind a longer one, however both are used. -/
theorem Behind.steps {limit : Nat} {first second later later' : Console}
    (behind : Behind limit first second) (used : first.Steps later)
    (used' : second.Steps later') : Behind limit later later' := by
  obtain ⟨more, grown, -⟩ := used.exists_append
  have beyond := behind.beyond
  have full : second.limit = some second.written.size := by rw [behind.limited, behind.size]
  have kept := used'.written_eq_of_full full
  refine ⟨used'.limit_eq.trans behind.limited, ?_, ?_, ?_⟩
  · rw [kept, behind.size]
  · exact Nat.lt_of_lt_of_le beyond used.size_le
  · rw [kept, grown, extract_append_of_le (Nat.le_of_lt beyond), behind.written]

/-- The output of a console that is cut off is behind the unlimited one. -/
theorem CutOff.behind {limit : Nat} {before first second : Console}
    (cut : CutOff limit before first second) : Behind limit first second := by
  obtain ⟨console, text, early, unlimited, fits, beyond, rfl, late⟩ := cut
  rw [write_of_unlimited unlimited, ByteArray.size_append] at beyond
  have room : (console.capped limit).room text.toUTF8.size = limit - console.written.size := by
    simp only [Console.room, capped]
    omega
  have written : ((console.capped limit).write text).2.written =
      console.written ++ text.toUTF8.extract 0 (limit - console.written.size) := by
    rw [written_write, room]
    rfl
  have early : Behind limit (console.write text).2 ((console.capped limit).write text).2 := by
    rw [write_of_unlimited unlimited]
    refine ⟨?_, ?_, ?_, ?_⟩
    · rw [write_eq]
      rfl
    · rw [written, ByteArray.size_append, ByteArray.size_extract]
      omega
    · rw [ByteArray.size_append]
      exact beyond
    · rw [written, ByteArray.extract_append, extract_of_size_le fits, Nat.zero_sub]
  exact early.steps late .refl

/-- A text is written to consoles in step alike, or it no longer fits into the second one. -/
theorem InStep.write {cap : Option Nat} {first second : Console} (same : InStep cap first second)
    (text : String) :
    ((first.write text).1 = (second.write text).1 ∧
        InStep cap (first.write text).2 (second.write text).2) ∨
      ∃ limit, cap = some limit ∧ (first.write text).1 = .ok () ∧
        (second.write text).1 = .error .outputLimit ∧
          CutOff limit first (first.write text).2 (second.write text).2 := by
  cases cap with
  | none =>
    obtain rfl : second = first := same
    exact .inl ⟨rfl, rfl⟩
  | some limit =>
    obtain ⟨unlimited, fits, rfl⟩ := same
    have free := write_of_unlimited unlimited text
    by_cases all : first.written.size + text.toUTF8.size ≤ limit
    · have room : (first.capped limit).room text.toUTF8.size = text.toUTF8.size := by
        simp only [Console.room, capped]
        omega
      have bound : (first.capped limit).write text =
          (.ok (), { first.capped limit with written := first.written ++ text.toUTF8 }) := by
        simp only [Console.write, room, if_true]
        rfl
      rw [free, bound]
      refine .inl ⟨rfl, unlimited, ?_, rfl⟩
      rw [ByteArray.size_append]
      exact all
    · have room : (first.capped limit).room text.toUTF8.size ≠ text.toUTF8.size := by
        simp only [Console.room, capped]
        omega
      have refused : ((first.capped limit).write text).1 = .error .outputLimit := by
        simp only [Console.write, if_neg room]
      refine .inr ⟨limit, rfl, ?_, refused, first, text, .refl, unlimited, fits, ?_, rfl, .refl⟩
      · rw [free]
      · rw [free, ByteArray.size_append]
        omega

/-- Consoles in step are flushed alike. -/
theorem InStep.flush {cap : Option Nat} {first second : Console} (same : InStep cap first second) :
    second.flush = first.flush := by
  cases cap with
  | none =>
    obtain rfl : second = first := same
    rfl
  | some limit =>
    obtain ⟨-, -, rfl⟩ := same
    rfl

/-- Consoles in step belong to machines that check their arithmetic alike. -/
theorem InStep.checked {cap : Option Nat} {first second : Console}
    (same : InStep cap first second) : second.checked = first.checked := by
  cases cap with
  | none =>
    obtain rfl : second = first := same
    rfl
  | some limit =>
    obtain ⟨-, -, rfl⟩ := same
    rfl

/-- The same line is read from consoles in step. -/
theorem InStep.readLine {cap : Option Nat} {first second : Console}
    (same : InStep cap first second) :
    second.readLine.1 = first.readLine.1 ∧ InStep cap first.readLine.2 second.readLine.2 := by
  cases cap with
  | none =>
    obtain rfl : second = first := same
    exact ⟨rfl, rfl⟩
  | some limit =>
    obtain ⟨unlimited, fits, rfl⟩ := same
    have read : (first.capped limit).readLine =
        (first.readLine.1, first.readLine.2.capped limit) := by
      by_cases waiting : (!first.closed && !Text.hasLine first.input) = true
      · rw [Console.readLine, Console.readLine, if_pos waiting]
        exact if_pos waiting
      · rw [Console.readLine, Console.readLine, if_neg waiting]
        exact if_neg waiting
    rw [read]
    refine ⟨rfl, ?_, ?_, rfl⟩
    · rw [readLine_eq]
      exact unlimited
    · rw [readLine_eq]
      exact fits

/-- The same reading of the clock is taken from consoles in step. -/
theorem InStep.readClock {cap : Option Nat} {first second : Console}
    (same : InStep cap first second) :
    second.readClock.1 = first.readClock.1 ∧ InStep cap first.readClock.2 second.readClock.2 := by
  cases cap with
  | none =>
    obtain rfl : second = first := same
    exact ⟨rfl, rfl⟩
  | some limit =>
    obtain ⟨unlimited, fits, rfl⟩ := same
    exact ⟨rfl, unlimited, fits, rfl⟩

end KoreanLox.Console
