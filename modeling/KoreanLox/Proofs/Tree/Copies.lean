import KoreanLox.Proofs.Tree.Agreement
import KoreanLox.Proofs.Tree.Likeness

/-!
# Copies of a tree

Two trees are copies of each other if they are the same but for their labels. Numbering a tree makes
a copy of it (`Stmt.agreesAll_numberAll`).
-/

namespace KoreanLox

namespace Correspondence

variable {ι κ : Type}

/-- Identifiers of one name at one place are equal. -/
theorem Identifiers.eq {first second : Identifier}
    (same : (anyLabels ι κ).Identifiers first second) : second = first := by
  obtain ⟨name, span⟩ := first
  obtain ⟨name', span'⟩ := second
  obtain ⟨names, places⟩ := same
  dsimp only at names places
  rw [names, places]

/-- Parameters of the same names at the same places are equal. -/
theorem parameters_eq {first second : List Identifier}
    (same : List.Forall₂ (anyLabels ι κ).Identifiers first second) : second = first := by
  induction same with
  | nil => rfl
  | cons head _ ih => rw [head.eq, ih]

/-- An identifier corresponds to itself. -/
theorem identifiers_self (name : Identifier) : (anyLabels ι κ).Identifiers name name := ⟨rfl, rfl⟩

/-- Parameters correspond to themselves. -/
theorem parameters_self (names : List Identifier) :
    List.Forall₂ (anyLabels ι κ).Identifiers names names :=
  List.forall₂_same.mpr fun name _ => identifiers_self name

/-- Names that are looked up correspond whatever their labels are. -/
theorem references_self (target : Identifier) (label : ι) (other : κ) :
    (anyLabels ι κ).References ⟨target, label⟩ ⟨target, other⟩ :=
  ⟨trivial, identifiers_self target⟩

end Correspondence

open Correspondence

/-- What agrees with two lists one behind the other is two such lists. -/
theorem Stmt.AgreesAll.exists_append {ι κ : Type} {links : Correspondence ι κ}
    {first rest : List (Stmt ι)} {statements : List (Stmt κ)}
    (agree : Stmt.AgreesAll links (first ++ rest) statements) :
    ∃ early late, statements = early ++ late ∧ Stmt.AgreesAll links first early ∧
      Stmt.AgreesAll links rest late := by
  induction first generalizing statements with
  | nil => exact ⟨[], statements, rfl, .nil, agree⟩
  | cons statement others ih =>
    cases agree with
    | cons head tail =>
      obtain ⟨early, late, rfl, before, after⟩ := ih tail
      exact ⟨_ :: early, late, rfl, .cons head before, after⟩

/-- Statements that agree declare names both or not at all. -/
theorem Stmt.Agrees.declares_iff {ι κ : Type} {links : Correspondence ι κ} {first : Stmt ι}
    {second : Stmt κ} (agree : first.Agrees links second) : second.Declares ↔ first.Declares := by
  cases agree <;> exact Iff.rfl

end KoreanLox
