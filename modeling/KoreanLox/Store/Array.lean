import KoreanLox.Number.Parts
import KoreanLox.Store.Basic

/-!
# Arrays

An array is a list of values that grows at its end. All values that refer to it see the same
elements. An index is a number; it must have no fraction, and be neither less than zero nor beyond
the last element. So it equals a natural number below the length (`Store.position?_eq_some_iff`).
-/

namespace KoreanLox.Store

/-- The elements of an array. -/
def elements (store : Store) (ref : ArrayRef) : Array Value :=
  (store.array? ref).getD #[]

/-- A new array has the elements it is made with, and the others have what they had. -/
theorem elements_addArray (store : Store) (new : Array Value) (ref : ArrayRef) :
    (store.addArray new).2.elements ref =
      if ref.index = store.arrays.size then new else store.elements ref := by
  simp only [elements, array?, addArray, Array.getElem?_push]
  by_cases last : ref.index = store.arrays.size <;> simp [last]

/-- The length of an array. -/
def arrayLength (store : Store) (ref : ArrayRef) : Nat :=
  (store.elements ref).size

/-- Appends a value to an array. -/
def push (store : Store) (ref : ArrayRef) (value : Value) : Store :=
  { store with arrays := store.arrays.modify ref.index fun elements => elements.push value }

/-- A push adds the value at the end of one array, and to no other array. -/
theorem elements_push (store : Store) (ref other : ArrayRef) (value : Value) :
    (store.push ref value).elements other =
      if ref = other ∧ (store.array? ref).isSome then (store.elements other).push value
      else store.elements other := by
  obtain ⟨place⟩ := ref
  obtain ⟨elsewhere⟩ := other
  by_cases same : place = elsewhere
  · subst same
    cases found : store.arrays[place]? <;>
      simp [elements, array?, push, Array.getElem?_modify, found]
  · simp [elements, array?, push, Array.getElem?_modify, same]

/-- The position that an index stands for in an array of some length. -/
def position? (length : Nat) (index : Float) : Option Nat :=
  if Number.hasFraction index || index < 0 || Float.ofNat length ≤ index then none
  else some (Number.truncated index).position

/-- The element at an index. -/
def element? (store : Store) (ref : ArrayRef) (index : Float) : Option Value :=
  match position? (store.arrayLength ref) index with
  | none => none
  | some position => (store.elements ref)[position]?

/-- Replaces the element at a position. -/
def replace (store : Store) (ref : ArrayRef) (position : Nat) (value : Value) : Store :=
  { store with
    arrays := store.arrays.modify ref.index fun elements => elements.setIfInBounds position value }

/-- A replacement changes one array only. -/
theorem elements_replace (store : Store) (ref other : ArrayRef) (position : Nat) (value : Value) :
    (store.replace ref position value).elements other =
      if ref = other then (store.elements other).setIfInBounds position value
      else store.elements other := by
  obtain ⟨place⟩ := ref
  obtain ⟨elsewhere⟩ := other
  by_cases same : place = elsewhere
  · subst same
    cases found : store.arrays[place]? <;>
      simp [elements, array?, replace, Array.getElem?_modify, found]
  · simp [elements, array?, replace, Array.getElem?_modify, same]

/-- Replaces the element at an index. -/
def setElement? (store : Store) (ref : ArrayRef) (index : Float) (value : Value) : Option Store :=
  match position? (store.arrayLength ref) index with
  | none => none
  | some position => some (store.replace ref position value)

end KoreanLox.Store
