import KoreanLox.Evaluation.Evaluate
import KoreanLox.Proofs.Console.Output
import KoreanLox.Store.Rendering
import Mathlib.Data.Finset.Card

/-!
# The rendered text of a value

Arrays may contain each other in any way. The text of a value is its unfolding along paths: an
array on the path to an occurrence of it is cut off there, and everywhere else it is written out
(`Store.Unfolds`). A rendering goes one level down with each array that is not on the path yet, so
that a bound above the number of arrays is never used up. It writes the same pieces whatever they
are written to, up to the one that fails, and it leaves the stack of arrays as it found it.
-/

namespace KoreanLox

variable {ε σ : Type}

/-- Writes pieces up to the first one that fails. -/
def writeAll (write : String → σ → Except ε Unit × σ) : List String → σ → Except ε Unit × σ
  | [], sink => (.ok (), sink)
  | text :: rest, sink =>
    match write text sink with
    | (.ok (), sink) => writeAll write rest sink
    | stopped => stopped

/-- Pieces are written after others unless one of those fails. -/
theorem writeAll_append (write : String → σ → Except ε Unit × σ) (early late : List String)
    (sink : σ) :
    writeAll write (early ++ late) sink =
      match writeAll write early sink with
      | (.ok (), sink) => writeAll write late sink
      | stopped => stopped := by
  induction early generalizing sink with
  | nil => rfl
  | cons text rest ih =>
    simp only [List.cons_append, writeAll]
    generalize write text sink = written
    obtain ⟨result, sink⟩ := written
    cases result with
    | error error => rfl
    | ok => exact ih sink

/-- The room for some bytes is for no more than them. -/
theorem Console.room_le (console : Console) (count : Nat) : console.room count ≤ count := by
  unfold room
  split
  next => exact Nat.le_refl _
  next => exact Nat.min_le_left ..

/-- The output of a console takes a text like the two parts of it, one after the other. -/
theorem Console.write_append (console : Console) (early late : String) :
    console.write (early ++ late) =
      match console.write early with
      | (.ok (), console) => console.write late
      | stopped => stopped := by
  have bytes : (early ++ late).toUTF8 = early.toUTF8 ++ late.toUTF8 := String.toByteArray_append
  have size : (early ++ late).toUTF8.size = early.toUTF8.size + late.toUTF8.size := by
    rw [bytes, ByteArray.size_append]
  by_cases fits : console.room early.toUTF8.size = early.toUTF8.size
  next =>
    let between : Console := { console with written := console.written ++ early.toUTF8 }
    have first : console.write early = (.ok (), between) := by
      simp only [write, if_pos fits, between]
    have room : console.room (early ++ late).toUTF8.size =
        early.toUTF8.size + between.room late.toUTF8.size := by
      simp only [Console.room, size, ByteArray.size_append, between] at fits ⊢
      split
      next => rfl
      next limit limited =>
        rw [limited] at fits
        dsimp only at fits
        omega
    have taken : console.written ++ (early ++ late).toUTF8.extract 0
        (early.toUTF8.size + between.room late.toUTF8.size) =
          between.written ++ late.toUTF8.extract 0 (between.room late.toUTF8.size) := by
      rw [bytes, ByteArray.extract_append, extract_of_size_le (Nat.le_add_right _ _),
        Nat.zero_sub, Nat.add_sub_cancel_left, ByteArray.append_assoc]
    rw [first]
    dsimp only
    by_cases all : between.room late.toUTF8.size = late.toUTF8.size
    · have whole : console.room (early ++ late).toUTF8.size = (early ++ late).toUTF8.size := by
        omega
      simp only [write, if_pos all, if_pos whole]
      rw [bytes, ← ByteArray.append_assoc]
    · have cut : console.room (early ++ late).toUTF8.size ≠ (early ++ late).toUTF8.size := by
        omega
      simp only [write, if_neg all, if_neg cut]
      rw [room, taken]
  next =>
    have room : console.room (early ++ late).toUTF8.size = console.room early.toUTF8.size := by
      simp only [Console.room, size] at fits ⊢
      split
      next unlimited => simp [unlimited] at fits
      next limit limited =>
        rw [limited] at fits
        dsimp only at fits
        omega
    have short : console.room early.toUTF8.size < early.toUTF8.size :=
      Nat.lt_of_le_of_ne (room_le console _) fits
    have cut : console.room (early ++ late).toUTF8.size ≠ (early ++ late).toUTF8.size := by
      omega
    simp only [write, if_neg fits, if_neg cut]
    rw [room, bytes, extract_append_of_le (Nat.le_of_lt short)]

/-- Pieces are written to a console like the text that they make up. -/
theorem Console.writeAll_eq (console : Console) (pieces : List String) :
    writeAll (fun text console => Console.write console text) pieces console =
      console.write (String.join pieces) := by
  induction pieces generalizing console with
  | nil =>
    have fits : console.room 0 = 0 := by
      unfold room
      split
      next => rfl
      next => exact Nat.zero_min _
    have empty : (String.join []).toUTF8 = .empty := rfl
    simp only [writeAll, write, empty, ByteArray.size_empty, if_pos fits, ByteArray.append_empty]
  | cons text rest ih =>
    rw [String.join_cons, write_append, writeAll]
    generalize console.write text = written
    obtain ⟨result, after⟩ := written
    cases result with
    | error error => rfl
    | ok => exact ih after

namespace Render

variable {write : String → σ → Except ε Unit × σ} {path : List ArrayRef}

/-- Inside the arrays of a path, a part of a rendering writes pieces up to the first one that
fails, and leaves the stack as it is. -/
def Writes (write : String → σ → Except ε Unit × σ) (path : List ArrayRef) (part : Render ε σ)
    (texts : List String) : Prop :=
  ∀ sink, part ⟨path, sink⟩ =
    some ((writeAll write texts sink).1, ⟨path, (writeAll write texts sink).2⟩)

namespace Writes

/-- Nothing is written. -/
theorem nothing : Writes write path .nothing [] := fun _ => rfl

/-- A piece is written. -/
theorem piece (text : String) : Writes write path (.piece write text) [text] := by
  intro sink
  simp only [Render.piece, writeAll]
  generalize write text sink = written
  obtain ⟨result, sink⟩ := written
  cases result <;> rfl

/-- The pieces of one part come before those of the next one. -/
theorem andThen {first next : Render ε σ} {early late : List String}
    (begun : first.Writes write path early) (ended : next.Writes write path late) :
    (first.andThen next).Writes write path (early ++ late) := by
  intro sink
  simp only [Render.andThen, begun sink, writeAll_append]
  generalize writeAll write early sink = written
  obtain ⟨result, sink⟩ := written
  cases result with
  | error error => rfl
  | ok => exact ended sink

/-- All pieces are written. -/
theorem pieces (texts : List String) : Writes write path (.pieces write texts) texts := by
  induction texts with
  | nil => exact nothing
  | cons text rest ih => exact (piece text).andThen ih

/-- An array that is put on the stack is taken off it. -/
theorem within {inner : Render ε σ} {ref : ArrayRef} {texts : List String}
    (written : inner.Writes write (ref :: path) texts) :
    (Render.within ref inner).Writes write path texts := by
  intro sink
  simp only [Render.within, written sink, List.tail_cons]

/-- An array of the path is on the stack. -/
theorem ifActive_of_mem {ref : ArrayRef} {again : Render ε σ} {texts : List String}
    (on : ref ∈ path) (written : again.Writes write path texts) (fresh : Render ε σ) :
    (Render.ifActive ref again fresh).Writes write path texts := by
  intro sink
  rw [Render.ifActive, if_pos (List.contains_iff_mem.mpr on)]
  exact written sink

/-- Only arrays of the path are on the stack. -/
theorem ifActive_of_not_mem {ref : ArrayRef} {fresh : Render ε σ} {texts : List String}
    (off : ref ∉ path) (again : Render ε σ) (written : fresh.Writes write path texts) :
    (Render.ifActive ref again fresh).Writes write path texts := by
  intro sink
  rw [Render.ifActive, if_neg fun on => off (List.contains_iff_mem.mp on)]
  exact written sink

end Writes

end Render

namespace Store

/-- The text of a value inside the arrays of a path. An array on the path is cut off; any other
array has the texts of its elements inside it. -/
inductive Unfolds (store : Store) : List ArrayRef → Value → String → Prop where
  /-- A value that is no array contains nothing. -/
  | leaf (path : List ArrayRef) (value : Value) (other : ∀ ref, value ≠ .array ref) :
    store.Unfolds path value (store.text value)
  /-- An array on the path. -/
  | again {path : List ArrayRef} {ref : ArrayRef} (on : ref ∈ path) :
    store.Unfolds path (.array ref) "[...]"
  /-- An array that is not on the path, with a text for each of its elements in order. -/
  | fresh {path : List ArrayRef} {ref : ArrayRef} {texts : List String} (off : ref ∉ path)
    (count : texts.length = (store.elements ref).toList.length)
    (each : ∀ (position : Nat) (value : Value) (text : String),
      (store.elements ref).toList[position]? = some value → texts[position]? = some text →
        store.Unfolds (ref :: path) value text) :
    store.Unfolds path (.array ref) ("[" ++ ", ".intercalate texts ++ "]")

/-- No value has two texts inside the same arrays. -/
theorem Unfolds.eq {store : Store} {path : List ArrayRef} {value : Value} {text other : String}
    (first : store.Unfolds path value text) (second : store.Unfolds path value other) :
    text = other := by
  induction first generalizing other with
  | leaf path value no =>
    cases second with
    | leaf => rfl
    | again | fresh => exact absurd rfl (no _)
  | again on =>
    cases second with
    | leaf _ _ no => exact absurd rfl (no _)
    | again => rfl
    | fresh off => exact absurd on off
  | @fresh path ref texts off count each ih =>
    cases second with
    | leaf _ _ no => exact absurd rfl (no _)
    | again on => exact absurd on off
    | @fresh _ _ others _ count' each' =>
      have same : texts = others := by
        refine List.ext_getElem (count.trans count'.symm) fun position inside inside' => ?_
        have found := List.getElem?_eq_getElem (count ▸ inside)
        exact ih position _ _ found (List.getElem?_eq_getElem inside)
          (each' position _ _ found (List.getElem?_eq_getElem inside'))
      rw [same]

/-- The number of arrays that are not on a path. -/
def remaining (store : Store) (path : List ArrayRef) : Nat :=
  ((Finset.range store.arrays.size).filter fun index => ⟨index⟩ ∉ path).card

/-- There are no more arrays off a path than arrays. -/
theorem remaining_le (store : Store) (path : List ArrayRef) :
    store.remaining path ≤ store.arrays.size :=
  (Finset.card_filter_le _ _).trans (Finset.card_range _).le

/-- An array that goes on a path is no longer off it. -/
theorem remaining_cons_lt {store : Store} {path : List ArrayRef} {ref : ArrayRef}
    (live : ref.index < store.arrays.size) (off : ref ∉ path) :
    store.remaining (ref :: path) < store.remaining path := by
  refine Finset.card_lt_card (Finset.ssubset_iff_of_subset ?_ |>.mpr ⟨ref.index, ?_, ?_⟩)
  · exact Finset.monotone_filter_right _ fun index _ off on => off (.tail _ on)
  · exact Finset.mem_filter.mpr ⟨Finset.mem_range.mpr live, off⟩
  · exact fun listed => (Finset.mem_filter.mp listed).2 (.head _)

/-- What has an element is among the arrays. -/
theorem lt_size_of_mem_elements {store : Store} {ref : ArrayRef} {position : Nat} {value : Value}
    (found : (store.elements ref).toList[position]? = some value) :
    ref.index < store.arrays.size := by
  by_contra beyond
  have none : store.arrays[ref.index]? = none := Array.getElem?_eq_none (Nat.le_of_not_lt beyond)
  simp [elements, array?, none] at found

/-- The text of a value within a depth that is enough for the arrays off the path. -/
theorem unfolds_textWithin {store : Store} {depth : Nat} {path : List ArrayRef} {value : Value}
    (enough : store.remaining path < depth) :
    store.Unfolds path value (store.textWithin depth path value) := by
  induction depth generalizing path value with
  | zero => exact absurd enough (Nat.not_lt_zero _)
  | succ depth ih =>
    cases value with
    | array ref =>
      by_cases on : ref ∈ path
      · rw [textWithin, if_pos (List.contains_iff_mem.mpr on)]
        exact .again on
      · rw [textWithin, if_neg (fun held => on (List.contains_iff_mem.mp held))]
        refine .fresh on (List.length_map _) fun position value text found text' => ?_
        rw [List.getElem?_map, found] at text'
        cases text'
        have fewer := remaining_cons_lt (lt_size_of_mem_elements found) on
        exact ih (by omega)
    | _ => exact .leaf path _ nofun

/-- The pieces of a value that is no array make up its text. -/
theorem join_leafPieces {store : Store} {value : Value} (other : ∀ ref, value ≠ .array ref) :
    String.join (store.leafPieces value) = store.text value := by
  cases value with
  | array ref => exact absurd rfl (other ref)
  | _ => simp [leafPieces, text, textWithin, String.join_cons, String.append_assoc]

/-- A value is rendered as pieces that make up a text, whatever they are written to, under every
bound of some kind. -/
def Renders (store : Store) (path : List ArrayRef) (enough : Nat → Prop) (value : Value)
    (text : String) : Prop :=
  ∃ pieces, String.join pieces = text ∧
    ∀ {ε σ : Type} (write : String → σ → Except ε Unit × σ) (bound : Nat), enough bound →
      (store.render write bound value).Writes write path pieces

/-- Values are rendered with a comma between them, and one more in front if they follow others. -/
theorem exists_separated {store : Store} {path : List ArrayRef} {enough : Nat → Prop}
    {values : List Value} {texts : List String}
    (each : List.Forall₂ (store.Renders path enough) values texts) (position : Nat) :
    ∃ pieces, String.join pieces =
        (if position ≠ 0 ∧ values ≠ [] then ", " else "") ++ ", ".intercalate texts ∧
      ∀ {ε σ : Type} (write : String → σ → Except ε Unit × σ) (bound : Nat), enough bound →
        (Render.separated write (store.render write bound) position values).Writes write path
          pieces := by
  induction each generalizing position with
  | nil => exact ⟨[], by simp, fun _ _ _ => .nothing⟩
  | @cons value text values texts first others ih =>
    obtain ⟨early, makes, written⟩ := first
    obtain ⟨late, makes', written'⟩ := ih (position + 1)
    refine ⟨(if position ≠ 0 then [", "] else []) ++ (early ++ late), ?_, ?_⟩
    · have rest : String.join late =
          (if values ≠ [] then ", " else "") ++ ", ".intercalate texts := by simpa using makes'
      have joined : ", ".intercalate (text :: texts) =
          text ++ ((if values ≠ [] then ", " else "") ++ ", ".intercalate texts) := by
        cases others with
        | nil => simp
        | cons => simp [String.intercalate_cons_cons, String.append_assoc]
      rw [String.join_append, String.join_append, makes, rest, joined]
      by_cases following : position ≠ 0 <;> simp [following]
    · intro ε σ write bound room
      refine .andThen ?_ ((written write bound room).andThen (written' write bound room))
      split
      next => exact .piece ", "
      next => exact .nothing

/-- The unfolding of a value is rendered under every bound above the number of arrays that are not
on the path. -/
theorem Unfolds.renders {store : Store} {path : List ArrayRef} {value : Value} {text : String}
    (unfolds : store.Unfolds path value text) :
    store.Renders path (store.remaining path < ·) value text := by
  induction unfolds with
  | leaf path value other =>
    refine ⟨store.leafPieces value, join_leafPieces other, fun write bound room => ?_⟩
    obtain ⟨bound, rfl⟩ : ∃ less, bound = less + 1 := ⟨bound - 1, by omega⟩
    cases value with
    | array ref => exact absurd rfl (other ref)
    | _ => exact .pieces _
  | again on =>
    refine ⟨["[...]"], String.join_cons, fun write bound room => ?_⟩
    obtain ⟨bound, rfl⟩ : ∃ less, bound = less + 1 := ⟨bound - 1, by omega⟩
    exact .ifActive_of_mem on (.piece _) _
  | @fresh path ref texts off count each ih =>
    have elements : List.Forall₂ (store.Renders (ref :: path) (store.remaining path < · + 1))
        (store.elements ref).toList texts := by
      refine List.forall₂_iff_get.mpr ⟨count.symm, fun position inside inside' => ?_⟩
      have found := List.getElem?_eq_getElem inside
      obtain ⟨pieces, makes, written⟩ := ih position _ _ found (List.getElem?_eq_getElem inside')
      refine ⟨pieces, makes, fun write bound room => written write bound ?_⟩
      have fewer := remaining_cons_lt (lt_size_of_mem_elements found) off
      omega
    obtain ⟨pieces, makes, written⟩ := exists_separated elements 0
    refine ⟨["["] ++ (pieces ++ ["]"]), ?_, fun write bound room => ?_⟩
    · simp [String.join_append, makes, String.append_assoc]
    · obtain ⟨bound, rfl⟩ : ∃ less, bound = less + 1 := ⟨bound - 1, by omega⟩
      exact .ifActive_of_not_mem off _
        (.within ((Render.Writes.piece _).andThen ((written write bound room).andThen (.piece _))))

/-- Rendering terminates and gives the unfolding along paths. Whatever arrays are being rendered
and however arrays contain each other, a value has exactly one unfolding inside them, made up of
pieces that do not depend on what they are written to; under every bound above the number of
arrays, a rendering writes these pieces up to the first one that fails, and the stack of arrays
being rendered is then as it was before. The text of a value is its unfolding inside no array, and
printing is a rendering to the console with nothing on the stack, followed by a line feed. -/
theorem rendering_is_unfolding (store : Store) (value : Value) :
    (∀ path : List ArrayRef, ∃ text pieces,
      (∀ other, store.Unfolds path value other ↔ other = text) ∧ String.join pieces = text ∧
        ∀ (ε σ : Type) (write : String → σ → Except ε Unit × σ) (bound : Nat) (sink : σ),
          store.arrays.size < bound →
            store.render write bound value ⟨path, sink⟩ =
              some ((writeAll write pieces sink).1, ⟨path, (writeAll write pieces sink).2⟩)) ∧
    store.Unfolds [] value (store.text value) ∧
    ∀ (machine : Machine) (bound : Nat), machine.store = store → store.arrays.size < bound →
      ∃ result console,
        ((store.render (fun text console => Console.write console text) bound value).andThen
          (.piece (fun text console => Console.write console text) "\n")) ⟨[], machine.console⟩ =
            some (result, ⟨[], console⟩) ∧
        Evaluation.printValue value machine = Run.orFail result { machine with console } := by
  have unfolds (path : List ArrayRef) :
      store.Unfolds path value (store.textWithin (store.arrays.size + 1) path value) :=
    unfolds_textWithin (Nat.lt_succ_of_le (store.remaining_le path))
  have enough (path : List ArrayRef) {bound : Nat} (room : store.arrays.size < bound) :
      store.remaining path < bound := Nat.lt_of_le_of_lt (store.remaining_le path) room
  refine ⟨fun path => ?_, unfolds [], fun machine bound here room => ?_⟩
  · obtain ⟨pieces, makes, written⟩ := (unfolds path).renders
    refine ⟨_, pieces, fun other => ⟨fun also => also.eq (unfolds path), ?_⟩, makes, ?_⟩
    · rintro rfl
      exact unfolds path
    · exact fun ε σ write bound sink room => written write bound (enough path room) sink
  · obtain ⟨pieces, makes, written⟩ := (unfolds []).renders
    have line := (written (fun text console => Console.write console text) bound
      (enough [] room)).andThen (.piece "\n") machine.console
    refine ⟨_, _, line, ?_⟩
    rw [Console.writeAll_eq, String.join_append, makes, ← here]
    rfl

/-- An array that contains itself, twice inside another one. -/
example :
    Store.text { Store.empty with arrays := #[#[.nil, .array ⟨0⟩], #[.array ⟨0⟩, .array ⟨0⟩]] }
      (.array ⟨1⟩) = "[[nil, [...]], [nil, [...]]]" := by
  cbv

end Store

end KoreanLox
