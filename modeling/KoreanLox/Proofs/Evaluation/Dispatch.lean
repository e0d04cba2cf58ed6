import KoreanLox.Proofs.Evaluation.Provenance
import KoreanLox.Proofs.Store.Grounding

/-!
# The nearest method of a name

A class answers to a name with the last method of that name in its declaration, and if it has none
as the class does that it extends. In a store whose classes were made by the declarations of a
history this is the method that is looked up, and nothing is found exactly if no class of the chain
declares the name (`Store.method?_eq_some_iff`, `Store.method?_eq_none_iff`).
-/

namespace KoreanLox

open Run Evaluation

/-- The last method of a name in the declaration of a class. -/
def ClassDecl.method? (declared : ClassDecl) (name : String) : Option (FunctionDecl Nat) :=
  declared.methods.reverse.find? fun method => method.name.name == name

namespace Store

/-- A moment of a history made a class by declaring it. -/
structure DeclaredBy (store : Store) (history : Moment → Prop) (ref : ClassRef) (maker : Moment)
    (declared : ClassDecl) (extended : Option ClassRef) : Prop where
  /-- The moment belongs to the history. -/
  known : history maker
  /-- It declares the class, which extends this one. -/
  declares : maker.DeclaresClass declared extended
  /-- The class was the next one to be made. -/
  place : ref = ⟨maker.machine.store.classes.size⟩
  /-- It is still as it was made. -/
  object : store.class? ref = some (maker.classWith declared extended)

/-- The nearest method of a name from a class upward. -/
inductive Nearest (store : Store) (history : Moment → Prop) (name : String) :
    ClassRef → Closure → Prop where
  /-- The last one of the class itself. -/
  | own {ref : ClassRef} {maker : Moment} {declared : ClassDecl} {extended : Option ClassRef}
    {method : FunctionDecl Nat} (made : store.DeclaredBy history ref maker declared extended)
    (last : declared.method? name = some method) :
    Nearest store history name ref
      ⟨method, maker.frameWith extended, method.name.name = initializerName⟩
  /-- The nearest one from the class that it extends, if it has none itself. -/
  | above {ref parent : ClassRef} {maker : Moment} {declared : ClassDecl} {closure : Closure}
    (made : store.DeclaredBy history ref maker declared (some parent))
    (missing : declared.method? name = none) (rest : Nearest store history name parent closure) :
    Nearest store history name ref closure

/-- No class from a class upward has a method of a name. -/
inductive Lacks (store : Store) (history : Moment → Prop) (name : String) : ClassRef → Prop where
  /-- A class that extends none has none itself. -/
  | topmost {ref : ClassRef} {maker : Moment} {declared : ClassDecl}
    (made : store.DeclaredBy history ref maker declared none)
    (missing : declared.method? name = none) : Lacks store history name ref
  /-- A class has none itself, and neither has any class upward from the one that it extends. -/
  | above {ref parent : ClassRef} {maker : Moment} {declared : ClassDecl}
    (made : store.DeclaredBy history ref maker declared (some parent))
    (missing : declared.method? name = none) (rest : Lacks store history name parent) :
    Lacks store history name ref

variable {store : Store} {origins : List (Program Nat)} {history : Moment → Prop} {name : String}
  {ref : ClassRef}

/-- The nearest method of a name has this name, and it is marked as an initializer exactly if it is
the name of one. -/
theorem Nearest.named {closure : Closure} (nearest : store.Nearest history name ref closure) :
    closure.declaration.name.name = name ∧
      closure.isInitializer = decide (name = initializerName) := by
  induction nearest with
  | @own ref maker declared extended method made last =>
    have same : method.name.name = name := by
      unfold ClassDecl.method? at last
      simpa using List.find?_some last
    exact ⟨same, by rw [same]⟩
  | above made missing rest ih => exact ih

/-- Every class of a store that comes from a history was made by a moment of the history. -/
theorem Traced.exists_maker (traced : store.Traced origins history) {object : ClassObject}
    (found : store.class? ref = some object) :
    ∃ maker declared extended, store.DeclaredBy history ref maker declared extended := by
  cases traced.classes ref object found with
  | @intro maker declared extended program trail known declares listed visited traces =>
    exact ⟨maker, declared, extended, known, declares, rfl, found⟩

/-- The class that a class extends is older. -/
theorem DeclaredBy.older {maker : Moment} {declared : ClassDecl} {parent : ClassRef}
    (made : store.DeclaredBy history ref maker declared (some parent))
    (grounded : store.Grounded) : parent.index < ref.index :=
  (grounded.classes _ _ made.object).older parent rfl

/-- A class answers with its own last method of a name, and otherwise as the one it extends. -/
theorem DeclaredBy.methodWithin? {maker : Moment} {declared : ClassDecl}
    {extended : Option ClassRef} (made : store.DeclaredBy history ref maker declared extended)
    (bound : Nat) :
    store.methodWithin? name (bound + 1) ref =
      match declared.method? name with
      | some method => some ⟨method, maker.frameWith extended, method.name.name = initializerName⟩
      | none => extended.bind (store.methodWithin? name bound) := by
  have own : (maker.classWith declared extended).methods[name]? =
      (declared.method? name).map fun method =>
        ⟨method, maker.frameWith extended, method.name.name = initializerName⟩ :=
    getElem?_methodTable (maker.frameWith extended) declared.methods name
  rw [Store.methodWithin?, made.object]
  simp only [own]
  cases declared.method? name with
  | some method => rfl
  | none => cases extended <;> rfl

/-- The nearest method is found, if enough classes are looked at. -/
theorem Nearest.methodWithin? {closure : Closure} (nearest : store.Nearest history name ref closure)
    (grounded : store.Grounded) {bound : Nat} (enough : ref.index < bound) :
    store.methodWithin? name bound ref = some closure := by
  induction nearest generalizing bound with
  | own made last =>
    cases bound with
    | zero => omega
    | succ bound => rw [made.methodWithin?, last]
  | above made missing _ ih =>
    have older := made.older grounded
    cases bound with
    | zero => omega
    | succ bound =>
      rw [made.methodWithin?, missing]
      exact ih (by omega)

/-- Where no class has the method none is found, however many classes are looked at. -/
theorem Lacks.methodWithin? (lacks : store.Lacks history name ref) (bound : Nat) :
    store.methodWithin? name bound ref = none := by
  induction lacks generalizing bound with
  | topmost made missing =>
    cases bound with
    | zero => rfl
    | succ bound => rw [made.methodWithin?, missing]; rfl
  | above made missing _ ih =>
    cases bound with
    | zero => rfl
    | succ bound =>
      rw [made.methodWithin?, missing]
      exact ih bound

/-- From a class of a store that comes from a history upward, there is a nearest method or none. -/
theorem Traced.exists_nearest_or_lacks (traced : store.Traced origins history)
    (grounded : store.Grounded) (name : String) (ref : ClassRef)
    (present : ref.index < store.classes.size) :
    (∃ closure, store.Nearest history name ref closure) ∨ store.Lacks history name ref := by
  induction place : ref.index using Nat.strongRecOn generalizing ref with
  | ind place ih =>
    subst place
    obtain ⟨maker, declared, extended, made⟩ :=
      traced.exists_maker (Array.getElem?_eq_getElem present)
    cases last : declared.method? name with
    | some method => exact .inl ⟨_, .own made last⟩
    | none =>
      cases extended with
      | none => exact .inr (.topmost made last)
      | some parent =>
        have older := made.older grounded
        rcases ih parent.index older parent (older.trans present) rfl with
          ⟨closure, nearest⟩ | lacks
        · exact .inl ⟨closure, .above made last nearest⟩
        · exact .inr (.above made last lacks)

/-- What is looked up from a class upward is the nearest method. -/
theorem method?_eq_some_iff (traced : store.Traced origins history) (grounded : store.Grounded)
    (present : ref.index < store.classes.size) {closure : Closure} :
    store.method? ref name = some closure ↔ store.Nearest history name ref closure := by
  constructor
  · intro found
    rcases traced.exists_nearest_or_lacks grounded name ref present with
      ⟨other, nearest⟩ | lacks
    · have same := nearest.methodWithin? grounded (Nat.lt_succ_self ref.index)
      obtain rfl : other = closure := Option.some.inj (same.symm.trans found)
      exact nearest
    · have none := (lacks.methodWithin? (ref.index + 1)).symm.trans found
      cases none
  · intro nearest
    exact nearest.methodWithin? grounded (Nat.lt_succ_self ref.index)

/-- Nothing is found from a class upward exactly if no class there has the method. -/
theorem method?_eq_none_iff (traced : store.Traced origins history) (grounded : store.Grounded)
    (present : ref.index < store.classes.size) :
    store.method? ref name = none ↔ store.Lacks history name ref := by
  constructor
  · intro missing
    rcases traced.exists_nearest_or_lacks grounded name ref present with
      ⟨other, nearest⟩ | lacks
    · have same := nearest.methodWithin? grounded (Nat.lt_succ_self ref.index)
      cases missing.symm.trans same
    · exact lacks
  · intro lacks
    exact lacks.methodWithin? (ref.index + 1)

end Store

end KoreanLox
