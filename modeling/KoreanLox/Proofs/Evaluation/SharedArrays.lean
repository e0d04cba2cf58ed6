import KoreanLox.Evaluation.Native
import KoreanLox.Proofs.Number.Order
import Mathlib.Data.List.Induction

/-!
# Arrays are shared lists

A handle is a value that refers to an array. Any number of handles may refer to one array, and
operations on arrays are made through handles. However they follow each other, a handle reads as the
list that comes of the changes made through all handles of its array, in their order, and of no
other changes (`Evaluation.Holding.reads_as_shared_list`). Lengths are taken below `2 ^ 53`, where
the number that an index is compared with equals the length.
-/

namespace KoreanLox

namespace Evaluation

open Run

/-! ## Operations and the lists they make -/

/-- An operation on arrays through handles, which are numbered in the order in which they come. -/
inductive ArrayOperation where
  /-- Makes an array, with a first handle to it. -/
  | make
  /-- Makes another handle to the array of a handle. -/
  | copy (handle : Nat)
  /-- Appends a value. -/
  | push (handle : Nat) (value : Value)
  /-- Reads the element at an index. -/
  | get (handle : Nat) (index : Float)
  /-- Replaces the element at an index. -/
  | set (handle : Nat) (index : Float) (value : Value)

/-- A change of a list. -/
inductive ListChange where
  /-- A value comes to its end. -/
  | append (value : Value)
  /-- A value comes to the position that an index equals. -/
  | replace (index : Float) (value : Value)

/-- A list after a change. An index that equals no position of the list changes nothing. -/
def ListChange.apply (list : List Value) : ListChange → List Value
  | .append value => list ++ [value]
  | .replace index value =>
    list.mapIdx fun position old =>
      if Number.value? index = some (position : ℚ) then value else old

namespace ArrayOperation

/-- The arrays of the handles after one more operation, each told by its first handle. -/
def extend (known : List Nat) : ArrayOperation → List Nat
  | .make => known ++ [known.length]
  | .copy handle => known ++ known[handle]?.toList
  | _ => known

/-- The arrays of the handles that some operations make. -/
def owners (operations : List ArrayOperation) : List Nat :=
  operations.foldl extend []

/-- The handle that an operation goes through, if it needs one. -/
def handle? : ArrayOperation → Option Nat
  | .make => none
  | .copy handle => some handle
  | .push handle _ => some handle
  | .get handle _ => some handle
  | .set handle _ _ => some handle

/-- What an operation changes if its handle is one of some handles. -/
def change? (shares : Nat → Bool) : ArrayOperation → Option ListChange
  | .push handle value => if shares handle then some (.append value) else none
  | .set handle index value => if shares handle then some (.replace index value) else none
  | _ => none

/-- The list that an array reads as: all changes made through its handles, in order, applied to the
empty list. -/
def content (operations : List ArrayOperation) (owner : Nat) : List Value :=
  (operations.filterMap (change? fun handle => (owners operations)[handle]? = some owner)).foldl
    ListChange.apply []

/-- Operations of which each goes through a handle that is there. -/
inductive Handled : List ArrayOperation → Prop where
  /-- No operation. -/
  | none : Handled []
  /-- One more operation. -/
  | more {operations : List ArrayOperation} {operation : ArrayOperation}
    (earlier : Handled operations)
    (present : ∀ handle ∈ operation.handle?, handle < (owners operations).length) :
    Handled (operations ++ [operation])

end ArrayOperation

/-! ## Running them -/

/-- Handles with the machine that holds their arrays. -/
structure Holding where
  /-- The arrays that the handles refer to. -/
  refs : List ArrayRef
  /-- The machine. -/
  machine : Machine

namespace Holding

/-- The value of a handle. -/
def value (holding : Holding) (handle : Nat) : Value :=
  match holding.refs[handle]? with
  | some ref => .array ref
  | none => .nil

/-- The call of a native function that an operation stands for; another handle to an array is only
a value that is used again. -/
def call (span : Span) (holding : Holding) : ArrayOperation → Run Value
  | .make => callNative span .array []
  | .copy handle => return holding.value handle
  | .push handle value => callNative span .arrayPush [holding.value handle, value]
  | .get handle index => callNative span .arrayGet [holding.value handle, .number index]
  | .set handle index value =>
    callNative span .arraySet [holding.value handle, .number index, value]

/-- Whether the value of an operation is a further handle. -/
def givesHandle : ArrayOperation → Bool
  | .make | .copy _ => true
  | _ => false

/-- Handles and machine after an operation, whether it succeeds or fails. -/
def after (span : Span) (holding : Holding) (operation : ArrayOperation) : Holding :=
  match holding.call span operation holding.machine with
  | (.ok (.array ref), machine) =>
    ⟨if givesHandle operation then holding.refs ++ [ref] else holding.refs, machine⟩
  | (_, machine) => ⟨holding.refs, machine⟩

/-- Handles and machine after some operations, beginning without handles. -/
def afterAll (span : Span) (machine : Machine) (operations : List ArrayOperation) : Holding :=
  operations.foldl (after span) ⟨[], machine⟩

end Holding

/-! ## Owners -/

namespace ArrayOperation

variable {operations : List ArrayOperation} {operation : ArrayOperation}

/-- The arrays of the handles after one more operation. -/
theorem owners_more (operations : List ArrayOperation) (operation : ArrayOperation) :
    owners (operations ++ [operation]) = operation.extend (owners operations) := by
  rw [owners, List.foldl_append]
  rfl

/-- The handles that there were keep their arrays. -/
theorem getElem?_extend (known : List Nat) (operation : ArrayOperation) {handle : Nat}
    (present : handle < known.length) : (operation.extend known)[handle]? = known[handle]? := by
  cases operation with
  | make => exact List.getElem?_append_left present
  | copy other => exact List.getElem?_append_left present
  | push | get | set => rfl

/-- There are never fewer handles. -/
theorem length_le_extend (known : List Nat) (operation : ArrayOperation) :
    known.length ≤ (operation.extend known).length := by
  cases operation <;> simp [extend]

/-- The first handle of an array is one of the handles. -/
theorem owner_lt (operations : List ArrayOperation) :
    ∀ owner ∈ owners operations, owner < (owners operations).length := by
  induction operations using List.reverseRecOn with
  | nil => nofun
  | append_singleton operations operation ih =>
    intro owner listed
    rw [owners_more] at listed ⊢
    have grown := length_le_extend (owners operations) operation
    have known (there : owner ∈ owners operations) :
        owner < (operation.extend (owners operations)).length :=
      Nat.lt_of_lt_of_le (ih owner there) grown
    cases operation with
    | make =>
      rcases List.mem_append.mp listed with there | new
      · exact known there
      · rw [List.mem_singleton.mp new]
        simp [extend]
    | copy handle =>
      rcases List.mem_append.mp listed with there | again
      · exact known there
      · exact known (List.mem_of_getElem? (Option.mem_toList.mp again))
    | push | get | set => exact known listed

/-- An operation goes through one of the handles. -/
theorem Handled.handle_lt (handled : Handled operations) :
    ∀ operation ∈ operations, ∀ handle ∈ operation.handle?,
      handle < (owners operations).length := by
  induction handled with
  | none => nofun
  | @more operations last earlier present ih =>
    intro operation listed handle through
    rw [owners_more]
    have grown := length_le_extend (owners operations) last
    rcases List.mem_append.mp listed with before | now
    · exact Nat.lt_of_lt_of_le (ih operation before handle through) grown
    · obtain rfl := List.mem_singleton.mp now
      exact Nat.lt_of_lt_of_le (present handle through) grown

/-- What an operation changes depends on its own handle only. -/
theorem change?_congr {shares others : Nat → Bool}
    (same : ∀ handle ∈ operation.handle?, shares handle = others handle) :
    operation.change? shares = operation.change? others := by
  cases operation with
  | make | copy | get => rfl
  | push handle value => simp only [change?, same handle rfl]
  | set handle index value => simp only [change?, same handle rfl]

/-- The list of an array after one more operation. -/
theorem content_more (earlier : Handled operations)
    (present : ∀ handle ∈ operation.handle?, handle < (owners operations).length) (owner : Nat) :
    content (operations ++ [operation]) owner =
      (operation.change? fun handle => (owners operations)[handle]? = some owner).elim
        (content operations owner) (ListChange.apply (content operations owner)) := by
  -- Later handles are further ones, so that the shares of each operation stay what they were.
  have kept (some : ArrayOperation)
      (through : ∀ handle ∈ some.handle?, handle < (owners operations).length) :
      (some.change? fun handle =>
          (owners (operations ++ [operation]))[handle]? = Option.some owner) =
        some.change? fun handle => (owners operations)[handle]? = Option.some owner := by
    apply change?_congr
    intro handle named
    rw [owners_more, getElem?_extend _ _ (through handle named)]
  unfold content
  rw [List.filterMap_append, List.filterMap_congr fun some listed =>
    kept some (earlier.handle_lt some listed), List.filterMap_cons, kept operation present,
    List.filterMap_nil, List.foldl_append]
  cases operation.change? fun handle => (owners operations)[handle]? = some owner <;> rfl

/-- The list of an array never gets shorter. -/
theorem length_content_le_more (earlier : Handled operations)
    (present : ∀ handle ∈ operation.handle?, handle < (owners operations).length) (owner : Nat) :
    (content operations owner).length ≤ (content (operations ++ [operation]) owner).length := by
  rw [content_more earlier present]
  cases operation.change? fun handle => (owners operations)[handle]? = some owner with
  | none => rfl
  | some change => cases change <;> simp [ListChange.apply]

/-- The list of an array is not longer than the operations are many. -/
theorem length_content_le (handled : Handled operations) (owner : Nat) :
    (content operations owner).length ≤ operations.length := by
  induction handled with
  | none => rfl
  | @more earlier operation handled present ih =>
    rw [content_more handled present, List.length_append, List.length_singleton]
    cases operation.change? fun handle => (owners earlier)[handle]? = some owner with
    | none => exact Nat.le_succ_of_le ih
    | some change => cases change <;> simp [ListChange.apply, Nat.le_succ_of_le, ih]

/-- An array that no handle refers to yet reads as the empty list. -/
theorem content_of_unowned {owner : Nat} (unowned : owner ∉ owners operations) :
    content operations owner = [] := by
  have nothing : operations.filterMap
      (change? fun handle => (owners operations)[handle]? = some owner) = [] := by
    rw [List.filterMap_eq_nil_iff]
    intro operation _
    have alone (handle : Nat) : (owners operations)[handle]? ≠ some owner :=
      fun found => unowned (List.mem_of_getElem? found)
    cases operation <;> simp [change?, alone]
  rw [content, nothing]
  rfl

end ArrayOperation

/-! ## Positions -/

/-- An index that equals a position of a list replaces the value there. -/
theorem ListChange.apply_replace {list : List Value} {index : Float} {position : Nat}
    (equals : Number.value? index = some (position : ℚ)) (value : Value) :
    ListChange.apply list (.replace index value) = list.set position value := by
  apply List.ext_getElem?
  intro other
  simp only [apply, List.getElem?_mapIdx, List.getElem?_set, equals, Option.some.injEq,
    Nat.cast_inj]
  by_cases same : position = other
  · subst same
    by_cases inside : position < list.length <;> simp [inside]
  · cases list[other]? <;> simp [same]

/-- An index that equals no position of a list replaces nothing. -/
theorem ListChange.apply_replace_of_outside {list : List Value} {index : Float}
    (outside : ∀ position < list.length, Number.value? index ≠ some (position : ℚ))
    (value : Value) : ListChange.apply list (.replace index value) = list := by
  apply List.ext_getElem?
  intro other
  simp only [apply, List.getElem?_mapIdx]
  by_cases inside : other < list.length
  · simp [inside, outside other inside]
  · simp [Nat.le_of_not_lt inside]

/-! ## Calls -/

variable {span : Span} {machine : Machine} {ref : ArrayRef} {index : Float} {position : Nat}

/-- An element is read at the position that the index equals. -/
theorem callNative_arrayGet (short : machine.store.arrayLength ref < 2 ^ 53)
    (inside : position < machine.store.arrayLength ref)
    (equals : Number.value? index = some (position : ℚ)) :
    callNative span .arrayGet [.array ref, .number index] machine =
      (.ok (machine.store.elements ref)[position], machine) := by
  have found := (Store.position?_eq_some_iff short index position).mpr ⟨inside, equals⟩
  have element : machine.store.element? ref index =
      some (machine.store.elements ref)[position] := by
    rw [Store.element?, found]
    exact Array.getElem?_eq_getElem inside
  show elementAt span ref index machine = _
  simp only [elementAt, bind, andThen, inspect, element]
  rfl

/-- No element is read at an index that equals no position. -/
theorem callNative_arrayGet_outside (short : machine.store.arrayLength ref < 2 ^ 53)
    (outside : ∀ position < machine.store.arrayLength ref,
      Number.value? index ≠ some (position : ℚ)) :
    callNative span .arrayGet [.array ref, .number index] machine =
      (.error (.failure ⟨.indexOutOfRange index (machine.store.arrayLength ref), some span⟩),
        machine) := by
  have missing := (Store.position?_eq_none_iff short index).mpr outside
  have element : machine.store.element? ref index = none := by rw [Store.element?, missing]
  show elementAt span ref index machine = _
  simp only [elementAt, bind, andThen, inspect, element]
  rfl

/-- An array is changed at an index as its store changes it, or not at all. -/
theorem callNative_arraySet_eq (value : Value) :
    callNative span .arraySet [.array ref, .number index, value] machine =
      match machine.store.setElement? ref index value with
      | some store => (.ok value, { machine with store })
      | none => (.error (.failure
          ⟨.indexOutOfRange index (machine.store.arrayLength ref), some span⟩), machine) := by
  show replaceAt span ref index value machine = _
  simp only [replaceAt, bind, andThen, inspect, Store.setElement?]
  cases Store.position? (machine.store.arrayLength ref) index <;> rfl

/-- The element at the position that the index equals is replaced. -/
theorem callNative_arraySet (short : machine.store.arrayLength ref < 2 ^ 53)
    (inside : position < machine.store.arrayLength ref)
    (equals : Number.value? index = some (position : ℚ)) (value : Value) :
    callNative span .arraySet [.array ref, .number index, value] machine =
      (.ok value, { machine with store := machine.store.replace ref position value }) := by
  have found := (Store.position?_eq_some_iff short index position).mpr ⟨inside, equals⟩
  rw [callNative_arraySet_eq, Store.setElement?, found]

/-- Nothing is replaced at an index that equals no position. -/
theorem callNative_arraySet_outside (short : machine.store.arrayLength ref < 2 ^ 53)
    (outside : ∀ position < machine.store.arrayLength ref,
      Number.value? index ≠ some (position : ℚ)) (value : Value) :
    callNative span .arraySet [.array ref, .number index, value] machine =
      (.error (.failure ⟨.indexOutOfRange index (machine.store.arrayLength ref), some span⟩),
        machine) := by
  have missing := (Store.position?_eq_none_iff short index).mpr outside
  rw [callNative_arraySet_eq, Store.setElement?, missing]

namespace Holding

open ArrayOperation

variable {holding : Holding} {operations : List ArrayOperation} {operation : ArrayOperation}
  {handle : Nat}

/-- A handle refers to its array. -/
theorem value_eq (held : holding.refs[handle]? = some ref) : holding.value handle = .array ref := by
  rw [value, held]

/-- An operation that makes no handle changes the machine only. -/
theorem after_of_silent (silent : givesHandle operation = false) (span : Span) :
    holding.after span operation =
      ⟨holding.refs, (holding.call span operation holding.machine).2⟩ := by
  unfold after
  split
  next came => rw [came, silent]; rfl
  next came => rw [came]

/-- The handles refer to the arrays that they should, and these read as they should. -/
structure Reads (holding : Holding) (operations : List ArrayOperation) : Prop where
  /-- There are as many handles as the operations made. -/
  length : holding.refs.length = (owners operations).length
  /-- All arrays are there. -/
  present : ∀ pair ∈ holding.refs.zip (owners operations),
    pair.1.index < holding.machine.store.arrays.size
  /-- Two handles refer to one array exactly if they should. -/
  shared : ∀ first ∈ holding.refs.zip (owners operations),
    ∀ second ∈ holding.refs.zip (owners operations), first.1 = second.1 ↔ first.2 = second.2
  /-- Every array reads as its list. -/
  content : ∀ pair ∈ holding.refs.zip (owners operations),
    (holding.machine.store.elements pair.1).toList = ArrayOperation.content operations pair.2

namespace Reads

/-- Every handle refers to an array and has an owner. -/
theorem exists_pair (reads : holding.Reads operations)
    (present : handle < (owners operations).length) :
    ∃ ref owner, holding.refs[handle]? = some ref ∧ (owners operations)[handle]? = some owner ∧
      (ref, owner) ∈ holding.refs.zip (owners operations) := by
  have held : handle < holding.refs.length := by
    rw [reads.length]
    exact present
  have paired : (holding.refs.zip (owners operations))[handle]? =
      some (holding.refs[handle], (owners operations)[handle]) := by
    rw [List.getElem?_zip_eq_some]
    exact ⟨List.getElem?_eq_getElem held, List.getElem?_eq_getElem present⟩
  exact ⟨_, _, List.getElem?_eq_getElem held, List.getElem?_eq_getElem present,
    List.mem_of_getElem? paired⟩

/-- An operation that changes the list of one array, and makes no handle. -/
theorem change (reads : holding.Reads operations) (earlier : Handled operations)
    (through : operation.handle? = some handle)
    (present : handle < (owners operations).length) (change : ListChange)
    (changes : ∀ mine : Nat → Bool,
      operation.change? mine = if mine handle then some change else none)
    (keeps : operation.extend (owners operations) = owners operations) {store : Store}
    (size : store.arrays.size = holding.machine.store.arrays.size)
    (here : ∀ ref, holding.refs[handle]? = some ref → (store.elements ref).toList =
      change.apply (holding.machine.store.elements ref).toList)
    (elsewhere : ∀ ref other, holding.refs[handle]? = some ref → other ≠ ref →
      store.elements other = holding.machine.store.elements other) :
    Reads ⟨holding.refs, { holding.machine with store := store }⟩ (operations ++ [operation]) := by
  obtain ⟨ref, owner, held, owned, paired⟩ := reads.exists_pair present
  have same : owners (operations ++ [operation]) = owners operations := by
    rw [owners_more, keeps]
  refine ⟨?_, ?_, ?_, ?_⟩ <;> rw [same]
  · exact reads.length
  · intro pair listed
    rw [size]
    exact reads.present pair listed
  · exact reads.shared
  · intro pair listed
    have named : ∀ other ∈ operation.handle?, other < (owners operations).length := by
      rw [through]
      intro other equal
      obtain rfl : handle = other := Option.some.inj equal
      exact present
    rw [content_more earlier named, changes, owned]
    by_cases mine : pair.1 = ref
    · have owner : owner = pair.2 := ((reads.shared _ listed _ paired).mp mine).symm
      rw [mine, here ref held, ← mine, reads.content pair listed]
      simp [owner]
    · have other : owner ≠ pair.2 := fun equal =>
        mine ((reads.shared _ listed _ paired).mpr equal.symm)
      rw [elsewhere ref pair.1 held mine, reads.content pair listed]
      simp [other]

/-- An operation that makes a further handle. -/
theorem extend (reads : holding.Reads operations) (store : Store) (ref : ArrayRef)
    (earlier : Handled operations)
    (named : ∀ other ∈ operation.handle?, other < (owners operations).length)
    (silent : ∀ mine : Nat → Bool, operation.change? mine = none) {owner : Nat}
    (added : operation.extend (owners operations) = owners operations ++ [owner])
    (grown : holding.machine.store.arrays.size ≤ store.arrays.size)
    (kept : ∀ other, other.index < holding.machine.store.arrays.size →
      store.elements other = holding.machine.store.elements other)
    (present : ref.index < store.arrays.size)
    (shares : ∀ pair ∈ holding.refs.zip (owners operations), pair.1 = ref ↔ pair.2 = owner)
    (reading : (store.elements ref).toList = ArrayOperation.content operations owner) :
    Reads ⟨holding.refs ++ [ref], { holding.machine with store := store }⟩
      (operations ++ [operation]) := by
  have more : owners (operations ++ [operation]) = owners operations ++ [owner] := by
    rw [owners_more, added]
  have pairs : (holding.refs ++ [ref]).zip (owners operations ++ [owner]) =
      holding.refs.zip (owners operations) ++ [(ref, owner)] := by
    rw [List.zip_append reads.length]
    rfl
  have content (some : Nat) : ArrayOperation.content (operations ++ [operation]) some =
      ArrayOperation.content operations some := by
    rw [content_more earlier named, silent]
    rfl
  refine ⟨?_, ?_, ?_, ?_⟩ <;> rw [more]
  · simp [reads.length]
  · rw [pairs, List.forall_mem_append]
    refine ⟨fun pair listed => Nat.lt_of_lt_of_le (reads.present pair listed) grown, ?_⟩
    simpa using present
  · rw [pairs]
    intro first listed second also
    rcases List.mem_append.mp listed with old | new <;>
      rcases List.mem_append.mp also with old' | new'
    · exact reads.shared first old second old'
    · rw [List.mem_singleton.mp new']
      exact shares first old
    · rw [List.mem_singleton.mp new, eq_comm, shares second old', eq_comm]
    · rw [List.mem_singleton.mp new, List.mem_singleton.mp new']
      simp
  · rw [pairs, List.forall_mem_append]
    refine ⟨fun pair listed => ?_, ?_⟩
    · rw [kept pair.1 (reads.present pair listed), content]
      exact reads.content pair listed
    · intro pair new
      rw [List.mem_singleton.mp new, content]
      exact reading

/-- An array is as long as the list that it reads as. -/
theorem arrayLength_lt (reads : holding.Reads operations) {bound : Nat}
    (short : ∀ owner, (ArrayOperation.content operations owner).length < bound) {ref : ArrayRef}
    {owner : Nat} (paired : (ref, owner) ∈ holding.refs.zip (owners operations)) :
    holding.machine.store.arrayLength ref < bound := by
  have size := short owner
  rwa [← reads.content _ paired, Array.length_toList] at size

/-- Every operation keeps it so that handles read as they should. -/
theorem after (reads : holding.Reads operations) (earlier : Handled operations)
    (short : ∀ owner, (ArrayOperation.content operations owner).length < 2 ^ 53)
    (named : ∀ other ∈ operation.handle?, other < (owners operations).length) (span : Span) :
    (holding.after span operation).Reads (operations ++ [operation]) := by
  cases operation with
  | make =>
    refine reads.extend (holding.machine.store.addArray #[]).2
      ⟨holding.machine.store.arrays.size⟩ earlier named (fun _ => rfl) rfl ?_ ?_ ?_ ?_ ?_
    · simp [Store.addArray]
    · intro other old
      rw [Store.elements_addArray, if_neg (Nat.ne_of_lt old)]
    · simp [Store.addArray]
    · intro pair listed
      have old := reads.present pair listed
      have known := owner_lt operations pair.2 (List.of_mem_zip listed).2
      constructor
      · intro new
        rw [new] at old
        exact absurd old (Nat.lt_irrefl _)
      · intro new
        rw [new] at known
        exact absurd known (Nat.lt_irrefl _)
    · rw [Store.elements_addArray, if_pos rfl, content_of_unowned]
      intro listed
      exact absurd (owner_lt operations _ listed) (Nat.lt_irrefl _)
  | copy handle =>
    obtain ⟨ref, owner, held, owned, paired⟩ := reads.exists_pair (named handle rfl)
    have value : holding.value handle = .array ref := by rw [Holding.value, held]
    have run : holding.after span (.copy handle) = ⟨holding.refs ++ [ref], holding.machine⟩ := by
      simp only [Holding.after, call, value]
      rfl
    rw [run]
    refine reads.extend holding.machine.store ref earlier named (fun _ => rfl) ?_
      (Nat.le_refl _) (fun _ _ => rfl) (reads.present _ paired) ?_ (reads.content _ paired)
    · simp [ArrayOperation.extend, owned]
    · intro pair listed
      exact reads.shared pair listed _ paired
  | push handle value =>
    obtain ⟨ref, owner, held, owned, paired⟩ := reads.exists_pair (named handle rfl)
    have run : holding.after span (.push handle value) = ⟨holding.refs,
        { holding.machine with store := holding.machine.store.push ref value }⟩ := by
      rw [after_of_silent rfl, call, value_eq held]
      rfl
    rw [run]
    refine reads.change earlier rfl (named handle rfl) (.append value) (fun _ => rfl) rfl ?_ ?_ ?_
    · simp [Store.push]
    · intro other also
      obtain rfl : ref = other := Option.some.inj (held.symm.trans also)
      have present : (holding.machine.store.array? ref).isSome := by
        simpa [Store.array?] using reads.present _ paired
      rw [Store.elements_push, if_pos ⟨rfl, present⟩, Array.toList_push]
      rfl
    · intro some other also different
      obtain rfl : ref = some := Option.some.inj (held.symm.trans also)
      rw [Store.elements_push, if_neg (fun same => different same.1.symm)]
  | get handle index =>
    obtain ⟨ref, owner, held, owned, paired⟩ := reads.exists_pair (named handle rfl)
    have short := reads.arrayLength_lt short paired
    have run : holding.after span (.get handle index) = holding := by
      rw [after_of_silent rfl, call, value_eq held]
      by_cases inside : ∃ position < holding.machine.store.arrayLength ref,
          Number.value? index = some (position : ℚ)
      · obtain ⟨position, inside, equals⟩ := inside
        rw [callNative_arrayGet short inside equals]
      · rw [callNative_arrayGet_outside short (by simpa using inside)]
    have content (owner : Nat) : ArrayOperation.content (operations ++ [.get handle index]) owner =
        ArrayOperation.content operations owner := by
      rw [content_more earlier named]
      rfl
    have same : owners (operations ++ [.get handle index]) = owners operations :=
      owners_more operations _
    rw [run]
    refine ⟨?_, ?_, ?_, ?_⟩ <;> rw [same]
    · exact reads.length
    · exact reads.present
    · exact reads.shared
    · intro pair listed
      rw [content]
      exact reads.content pair listed
  | set handle index value =>
    obtain ⟨ref, owner, held, owned, paired⟩ := reads.exists_pair (named handle rfl)
    have short := reads.arrayLength_lt short paired
    by_cases inside : ∃ position < holding.machine.store.arrayLength ref,
        Number.value? index = some (position : ℚ)
    · obtain ⟨position, inside, equals⟩ := inside
      have run : holding.after span (.set handle index value) = ⟨holding.refs,
          { holding.machine with store := holding.machine.store.replace ref position value }⟩ := by
        rw [after_of_silent rfl, call, value_eq held, callNative_arraySet short inside equals]
      rw [run]
      refine reads.change earlier rfl (named handle rfl) (.replace index value)
        (fun _ => rfl) rfl ?_ ?_ ?_
      · simp [Store.replace]
      · intro other also
        obtain rfl : ref = other := Option.some.inj (held.symm.trans also)
        rw [Store.elements_replace, if_pos rfl, Array.toList_setIfInBounds,
          ListChange.apply_replace equals]
      · intro some other also different
        obtain rfl : ref = some := Option.some.inj (held.symm.trans also)
        rw [Store.elements_replace, if_neg different.symm]
    · have outside : ∀ position < holding.machine.store.arrayLength ref,
          Number.value? index ≠ some (position : ℚ) := by simpa using inside
      have run : holding.after span (.set handle index value) = holding := by
        rw [after_of_silent rfl, call, value_eq held, callNative_arraySet_outside short outside]
      rw [run]
      refine reads.change earlier rfl (named handle rfl) (.replace index value)
        (fun _ => rfl) rfl rfl ?_ (fun _ _ _ _ => rfl)
      intro other also
      obtain rfl : ref = other := Option.some.inj (held.symm.trans also)
      exact (ListChange.apply_replace_of_outside outside value).symm

end Reads

/-- After any operations the handles read as they should. -/
theorem reads_afterAll (span : Span) (machine : Machine) (handled : Handled operations)
    (short : ∀ owner, (ArrayOperation.content operations owner).length < 2 ^ 53) :
    (afterAll span machine operations).Reads operations := by
  induction handled with
  | none => exact ⟨rfl, nofun, nofun, nofun⟩
  | more earlier named ih =>
    have short := fun owner =>
      Nat.lt_of_le_of_lt (length_content_le_more earlier named owner) (short owner)
    rw [afterAll, List.foldl_append]
    exact (ih short).after earlier short named span

end Holding

/-! ## Arrays as lists -/

/-- The array of a reference is a list: it reads and is changed by calls as the list is. -/
structure IsList (span : Span) (machine : Machine) (ref : ArrayRef) (list : List Value) : Prop where
  /-- It has the elements of the list. -/
  elements : (machine.store.elements ref).toList = list
  /-- An index that equals a position of the list reads the element there. -/
  get : ∀ index position, (inside : position < list.length) →
    Number.value? index = some (position : ℚ) →
      callNative span .arrayGet [.array ref, .number index] machine = (.ok list[position], machine)
  /-- Every other index is reported with the length of the list, and nothing changes. -/
  getRefused : ∀ index, (∀ position < list.length, Number.value? index ≠ some (position : ℚ)) →
    callNative span .arrayGet [.array ref, .number index] machine =
      (.error (.failure ⟨.indexOutOfRange index list.length, some span⟩), machine)
  /-- An index that equals a position of the list replaces the element there, in this array only. -/
  set : ∀ index position value, position < list.length →
    Number.value? index = some (position : ℚ) →
      ∃ store, callNative span .arraySet [.array ref, .number index, value] machine =
          (.ok value, { machine with store := store }) ∧
        (store.elements ref).toList = list.set position value ∧
        ∀ other, other ≠ ref → store.elements other = machine.store.elements other
  /-- Every other index is reported with the length of the list, and nothing changes. -/
  setRefused : ∀ index value,
    (∀ position < list.length, Number.value? index ≠ some (position : ℚ)) →
      callNative span .arraySet [.array ref, .number index, value] machine =
        (.error (.failure ⟨.indexOutOfRange index list.length, some span⟩), machine)

/-- Every array that is not too long is the list of its elements. -/
theorem isList_elements (span : Span) (machine : Machine) (ref : ArrayRef)
    (short : machine.store.arrayLength ref < 2 ^ 53) :
    IsList span machine ref (machine.store.elements ref).toList where
  elements := rfl
  get := by
    intro index position inside equals
    exact callNative_arrayGet short inside equals
  getRefused := by
    intro index outside
    exact callNative_arrayGet_outside short outside
  set := by
    intro index position value inside equals
    refine ⟨_, callNative_arraySet short inside equals value, ?_, ?_⟩
    · rw [Store.elements_replace, if_pos rfl, Array.toList_setIfInBounds]
    · intro other different
      rw [Store.elements_replace, if_neg different.symm]
  setRefused := by
    intro index value outside
    exact callNative_arraySet_outside short outside value

/-- However operations on arrays follow each other, beginning without handles: two handles refer to
one array exactly if one of them comes from the other, and every handle reads as the list that comes
of all changes made through the handles of its array, in order, and of no others. An index reads or
replaces an element exactly if it equals a position of this list; any other index is reported with
the length of the list, and nothing changes. Lists are taken to be shorter than `2 ^ 53`. -/
theorem Holding.reads_as_shared_list (span : Span) (machine : Machine)
    {operations : List ArrayOperation} (handled : ArrayOperation.Handled operations)
    (short : ∀ owner, (ArrayOperation.content operations owner).length < 2 ^ 53) :
    (Holding.afterAll span machine operations).refs.length =
        (ArrayOperation.owners operations).length ∧
      ∀ (handle owner : Nat), (ArrayOperation.owners operations)[handle]? = some owner →
        ∃ ref, (Holding.afterAll span machine operations).refs[handle]? = some ref ∧
          IsList span (Holding.afterAll span machine operations).machine ref
            (ArrayOperation.content operations owner) ∧
          ∀ other : Nat, (Holding.afterAll span machine operations).refs[other]? = some ref ↔
            (ArrayOperation.owners operations)[other]? = some owner := by
  have reads := reads_afterAll span machine handled short
  refine ⟨reads.length, ?_⟩
  intro handle owner owned
  obtain ⟨inside, -⟩ := List.getElem?_eq_some_iff.mp owned
  obtain ⟨ref, also, held, again, paired⟩ := reads.exists_pair inside
  obtain rfl : owner = also := Option.some.inj (owned.symm.trans again)
  refine ⟨ref, held, ?_, ?_⟩
  · rw [← reads.content _ paired]
    exact isList_elements span _ ref (reads.arrayLength_lt short paired)
  · intro other
    by_cases present : other < (ArrayOperation.owners operations).length
    · obtain ⟨its, owns, found, known, listed⟩ := reads.exists_pair present
      rw [found, known, Option.some.injEq, Option.some.injEq]
      exact reads.shared _ listed _ paired
    · have beyond := Nat.le_of_not_lt present
      rw [List.getElem?_eq_none (by rw [reads.length]; exact beyond),
        List.getElem?_eq_none beyond]
      simp

/-- Two handles to one array that comes to hold itself, and a handle to another array. -/
def selfHolding : List ArrayOperation :=
  [.make, .copy 0, .push 1 (.boolean true), .make, .push 0 (.array ⟨0⟩), .push 2 .nil,
    .set 1 0 .nil]

/-- A machine that has run nothing. -/
def idle : Machine := ⟨.empty, .ofInput [], {}, Store.globals, 0⟩

/-- What comes through either of two handles is read through both of them. -/
theorem selfHolding_reads_as_shared_list :
    ArrayOperation.Handled selfHolding ∧
      (∀ owner, (ArrayOperation.content selfHolding owner).length < 2 ^ 53) ∧
      ArrayOperation.content selfHolding 0 = [.nil, .array ⟨0⟩] ∧
      ∃ ref, (Holding.afterAll (.point .start) idle selfHolding).refs[1]? = some ref ∧
        IsList (.point .start) (Holding.afterAll (.point .start) idle selfHolding).machine ref
          (ArrayOperation.content selfHolding 0) := by
  have handled : ArrayOperation.Handled selfHolding := by
    show ArrayOperation.Handled ([] ++ [.make] ++ [.copy 0] ++ [.push 1 (.boolean true)] ++
      [.make] ++ [.push 0 (.array ⟨0⟩)] ++ [.push 2 .nil] ++ [.set 1 0 .nil])
    iterate 7 apply ArrayOperation.Handled.more
    · exact .none
    all_goals
      intro handle named
      cases named
    all_goals decide
  have zero : Number.value? 0 = some ((0 : Nat) : ℚ) :=
    (Number.natural?_eq_some_iff 0 0).mp (by decide +kernel)
  have content : ArrayOperation.content selfHolding 0 = [.nil, .array ⟨0⟩] := by
    show ListChange.apply [.boolean true, .array ⟨0⟩] (.replace 0 .nil) = _
    rw [ListChange.apply_replace zero]
    rfl
  have short (owner : Nat) : (ArrayOperation.content selfHolding owner).length < 2 ^ 53 :=
    Nat.lt_of_le_of_lt (ArrayOperation.length_content_le handled owner) (by decide)
  refine ⟨handled, short, content, ?_⟩
  obtain ⟨ref, held, list, -⟩ :=
    (Holding.reads_as_shared_list (.point .start) idle handled short).2 1 0 rfl
  exact ⟨ref, held, list⟩

end Evaluation

end KoreanLox
