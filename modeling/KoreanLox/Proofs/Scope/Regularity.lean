import KoreanLox.Proofs.Scope.Acceptance
import KoreanLox.Proofs.Token.Names

/-!
# The shape of the scopes around a node

Names become declared only while their initial value is read, so that outer scopes have usable
names only. Only the scopes around methods bind the receiver and the superclass, the latter just
outside of the former. Hence, in a class that extends another, the nearest scope with a superclass
lies just outside the nearest one with a receiver (`Scopes.Regular.exists_parent`).
-/

namespace KoreanLox

/-- The state of a name after another state was given to some name. -/
theorem Scope.state?_cons (scope : Scope) (name other : String) (binding : Binding) :
    Scope.state? ((name, binding) :: scope) other =
      if name = other then some binding else scope.state? other := by
  unfold Scope.state?
  rw [List.find?_cons]
  by_cases same : name = other
  · simp [same]
  · have different : (name == other) = false := beq_eq_false_iff_ne.mpr same
    simp only [different, if_neg same]

/-- A scope binds a name after a state was given to some name. -/
theorem Scope.binds_cons (scope : Scope) (name other : String) (binding : Binding) :
    Scope.binds ((name, binding) :: scope) other =
      (decide (name = other) || scope.binds other) := by
  unfold Scope.binds
  rw [Scope.state?_cons]
  by_cases same : name = other
  · simp [same]
  · simp [same]

namespace Scopes

/-- A name that the innermost scope binds is found there. -/
theorem distance?_cons_of_binds {scope : Scope} {outer : Scopes} {name : String}
    (bound : scope.binds name = true) : distance? (scope :: outer) name = some 0 := by
  rw [distance?, List.findIdx?_cons, if_pos bound]

/-- A name that the innermost scope does not bind is found one step further out. -/
theorem distance?_cons_of_not_binds {scope : Scope} {outer : Scopes} {name : String}
    (missing : scope.binds name = false) :
    distance? (scope :: outer) name = (distance? outer name).map (· + 1) := by
  rw [distance?, List.findIdx?_cons, if_neg (by rw [missing]; exact Bool.false_ne_true)]
  rfl

/-- The scope at the distance of a name binds it. -/
theorem exists_binds_of_distance? {scopes : Scopes} {name : String} {distance : Nat}
    (found : scopes.distance? name = some distance) :
    ∃ scope, scopes[distance]? = some scope ∧ scope.binds name = true := by
  obtain ⟨inside, bound, -⟩ := List.findIdx?_eq_some_iff_getElem.mp found
  exact ⟨scopes[distance], List.getElem?_eq_getElem inside, bound⟩

/-- No initial value of a name of these scopes is being read. -/
def Settled (scopes : Scopes) : Prop :=
  ∀ scope ∈ scopes, ∀ name, scope.state? name ≠ some .declared

/-- A new scope is settled. -/
theorem Settled.push {scopes : Scopes} (settled : scopes.Settled) :
    Settled ([] :: scopes) := by
  intro scope listed name
  rcases List.mem_cons.mp listed with rfl | listed
  · simp [Scope.state?]
  · exact settled scope listed name

/-- A scope with one usable name is settled. -/
theorem Settled.pushDefined {scopes : Scopes} (settled : scopes.Settled) (name : String) :
    Settled ([(name, .defined)] :: scopes) := by
  intro scope listed other
  rcases List.mem_cons.mp listed with rfl | listed
  · rw [Scope.state?_cons]
    split <;> simp [Scope.state?]
  · exact settled scope listed other

/-- Introducing a name leaves scopes settled. -/
theorem Settled.introduce {scopes : Scopes} (settled : scopes.Settled) (name : String) :
    (scopes.introduce name).Settled := by
  cases scopes with
  | nil => exact settled
  | cons innermost outer =>
    intro scope listed other
    rcases List.mem_cons.mp listed with rfl | listed
    · have before := settled innermost List.mem_cons_self other
      rw [Scope.state?_cons, Scope.state?_cons]
      by_cases same : name = other
      · simp [same]
      · simpa [same] using before
    · exact settled scope (List.mem_cons_of_mem _ listed) other

/-- Introducing parameters leaves scopes settled. -/
theorem Settled.introduceAll {scopes : Scopes} (settled : scopes.Settled)
    (names : List Identifier) : (scopes.introduceAll names).Settled := by
  induction names generalizing scopes with
  | nil => exact settled
  | cons first rest ih => exact ih (settled.introduce first.name)

/-- The scopes around methods are settled. -/
theorem Settled.forMethods {scopes : Scopes} (settled : scopes.Settled) (extending : Bool) :
    (scopes.forMethods extending).Settled := by
  cases extending with
  | false => exact settled.pushDefined receiverName
  | true => exact (settled.pushDefined parentName).pushDefined receiverName

/-- The shape of the scopes inside a kind of class: outer scopes are settled, a receiver is bound
just inside a class, and a superclass just outside of the receiver. -/
inductive Regular : ClassContext → Scopes → Prop where
  /-- The top level. -/
  | topLevel : Regular .none []
  /-- A scope of a block or a function. -/
  | ordinary {enclosing : ClassContext} {scope : Scope} {outer : Scopes}
    (around : Regular enclosing outer) (settled : Settled outer)
    (receiver : scope.binds receiverName = false) (parent : scope.binds parentName = false) :
    Regular enclosing (scope :: outer)
  /-- The scope of the receiver in a class that extends none. -/
  | plain {enclosing : ClassContext} {scope : Scope} {outer : Scopes}
    (around : Regular enclosing outer) (settled : Settled outer)
    (receiver : scope.binds receiverName = true) (parent : scope.binds parentName = false) :
    Regular .plain (scope :: outer)
  /-- The scopes of the receiver and of the superclass in a class that extends one. -/
  | extending {enclosing : ClassContext} {scope extended : Scope} {outer : Scopes}
    (around : Regular enclosing outer) (settled : Settled (extended :: outer))
    (receiver : scope.binds receiverName = true) (parent : scope.binds parentName = false)
    (above : extended.binds parentName = true) :
    Regular .extending (scope :: extended :: outer)

namespace Regular

variable {enclosing : ClassContext} {scopes : Scopes}

/-- Binding an ordinary name in the innermost scope keeps the shape. -/
theorem bind (regular : Regular enclosing scopes) {name : String} (ordinary : Ordinary name)
    (binding : Binding) : Regular enclosing (scopes.bind name binding) := by
  have other : decide (name = receiverName) = false := decide_eq_false ordinary.ne_receiver
  have another : decide (name = parentName) = false := decide_eq_false ordinary.ne_parent
  cases regular with
  | topLevel => exact .topLevel
  | ordinary around settled receiver parent =>
    refine .ordinary around settled ?_ ?_
    · rw [Scope.binds_cons, other, receiver, Bool.false_or]
    · rw [Scope.binds_cons, another, parent, Bool.false_or]
  | plain around settled receiver parent =>
    refine .plain around settled ?_ ?_
    · rw [Scope.binds_cons, receiver, Bool.or_true]
    · rw [Scope.binds_cons, another, parent, Bool.false_or]
  | extending around settled receiver parent above =>
    refine .extending around settled ?_ ?_ above
    · rw [Scope.binds_cons, receiver, Bool.or_true]
    · rw [Scope.binds_cons, another, parent, Bool.false_or]

/-- Introducing an ordinary name keeps the shape. -/
theorem introduce (regular : Regular enclosing scopes) {name : String} (ordinary : Ordinary name) :
    Regular enclosing (scopes.introduce name) :=
  (regular.bind ordinary .declared).bind ordinary .defined

/-- Introducing ordinary parameters keeps the shape. -/
theorem introduceAll (regular : Regular enclosing scopes) {names : List Identifier}
    (ordinary : ∀ name ∈ names, Ordinary name.name) :
    Regular enclosing (scopes.introduceAll names) := by
  induction names generalizing scopes with
  | nil => exact regular
  | cons first rest ih =>
    have introduced := regular.introduce (ordinary first List.mem_cons_self)
    exact ih introduced fun name listed => ordinary name (List.mem_cons_of_mem _ listed)

/-- A new scope around settled ones keeps the shape. -/
theorem push (regular : Regular enclosing scopes) (settled : scopes.Settled) :
    Regular enclosing ([] :: scopes) :=
  .ordinary regular settled rfl rfl

/-- The scopes around methods have the shape of their class. -/
theorem forMethods (regular : Regular enclosing scopes) (settled : scopes.Settled)
    (extending : Bool) :
    Regular (if extending then .extending else .plain) (scopes.forMethods extending) := by
  cases extending with
  | false => exact .plain regular settled rfl rfl
  | true => exact .extending regular (settled.pushDefined parentName) rfl rfl rfl

/-- All scopes but the innermost one are settled. -/
theorem settled_tail (regular : Regular enclosing scopes) : Settled scopes.tail := by
  cases regular with
  | topLevel => simp [Settled]
  | ordinary _ settled => exact settled
  | plain _ settled => exact settled
  | extending _ settled => exact settled

/-- A name that some scope binds is usable in the innermost one that does, unless its initial value
is being read. -/
theorem usable (regular : Regular enclosing scopes) {name : String}
    (quiet : scopes.initialising name = false) {distance : Nat}
    (found : scopes.distance? name = some distance) :
    ∃ scope, scopes[distance]? = some scope ∧ scope.state? name = some .defined := by
  obtain ⟨scope, present, bound⟩ := exists_binds_of_distance? found
  refine ⟨scope, present, ?_⟩
  cases state : scope.state? name with
  | none => simp [Scope.binds, state] at bound
  | some binding =>
    cases binding with
    | defined => rfl
    | declared =>
      exfalso
      cases distance with
      | zero =>
        -- The innermost scope knows the name as declared only inside its initial value.
        cases scopes with
        | nil => simp at present
        | cons innermost outer =>
          obtain rfl : innermost = scope := by simpa using present
          simp [initialising, state] at quiet
      | succ distance =>
        -- Outer scopes have no name whose initial value is being read.
        have settled := regular.settled_tail
        have inside : scopes.tail[distance]? = some scope := by
          rw [List.getElem?_tail]
          exact present
        exact settled scope (List.mem_of_getElem? inside) _ state

/-- Inside a class some scope binds the receiver. -/
theorem exists_receiver (regular : Regular enclosing scopes) (inside : enclosing ≠ .none) :
    ∃ distance, scopes.distance? receiverName = some distance := by
  induction regular with
  | topLevel => exact absurd rfl inside
  | ordinary around settled receiver parent ih =>
    obtain ⟨distance, found⟩ := ih inside
    exact ⟨distance + 1, by rw [distance?_cons_of_not_binds receiver, found]; rfl⟩
  | plain around settled receiver => exact ⟨0, distance?_cons_of_binds receiver⟩
  | extending around settled receiver => exact ⟨0, distance?_cons_of_binds receiver⟩

/-- Inside a class that extends another, the nearest scope that binds the superclass lies just
outside the nearest one that binds the receiver. -/
theorem exists_parent (regular : Regular .extending scopes) :
    ∃ distance, scopes.distance? receiverName = some distance ∧
      scopes.distance? parentName = some (distance + 1) := by
  generalize same : ClassContext.extending = enclosing at regular
  induction regular with
  | topLevel => simp at same
  | ordinary around settled receiver parent ih =>
    obtain ⟨distance, found, above⟩ := ih same
    refine ⟨distance + 1, ?_, ?_⟩
    · rw [distance?_cons_of_not_binds receiver, found]
      rfl
    · rw [distance?_cons_of_not_binds parent, above]
      rfl
  | plain => simp at same
  | extending around settled receiver parent above =>
    refine ⟨0, distance?_cons_of_binds receiver, ?_⟩
    rw [distance?_cons_of_not_binds parent, distance?_cons_of_binds above]
    rfl

end Regular

end Scopes

end KoreanLox
