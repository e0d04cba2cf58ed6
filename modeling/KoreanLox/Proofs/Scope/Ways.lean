import KoreanLox.Proofs.Evaluation.Placement
import KoreanLox.Proofs.Scope.Lexical

/-!
# The ways of visited nodes

Where resolving visits a node, the scopes around it declare the names that are found on the way from
the node outwards, and the nodes inside it that look a name up are nodes of the program with this
way (`Program.Visits.exists_way`). In a program whose nodes have distinct labels, resolving
therefore visits an assignment once only, and its name is still being declared there exactly if the
assignment stands in the initial value of a local variable of this name (`Visited.exists_lookUp`).
-/

namespace KoreanLox

/-- An expression is another one or has it inside. -/
def Expr.Contains : Expr Nat → Expr Nat → Prop :=
  Relation.ReflTransGen fun whole part => part ∈ whole.operands

/-- An expression stands in the initial value of a local variable with some name. -/
def Program.Initialises (program : Program Nat) (name : String) (expression : Expr Nat) : Prop :=
  ∃ context scopes identifier initial,
    program.Visits ⟨context, scopes, none⟩ (.statement (.declare identifier (some initial))) ∧
      scopes ≠ [] ∧ identifier.name = name ∧ initial.Contains expression

/-- How a visited expression and its way begin. -/
inductive Program.Reads (program : Program Nat) (site : Site) (expression : Expr Nat) :
    List (Enclosure Nat) → Prop where
  /-- The expression belongs to a statement behind some others, in settled scopes. -/
  | ordinary {earlier : List (Stmt Nat)} {outer : List (Enclosure Nat)}
    (settled : site.scopes.Settled) : Reads program site expression (.behind earlier :: outer)
  /-- The expression belongs to the initial value of a variable. -/
  | initial {identifier : Identifier} {outer : List (Enclosure Nat)} {context : Context}
    {scopes : Scopes} {value : Expr Nat}
    (visited : program.Visits ⟨context, scopes, none⟩
      (.statement (.declare identifier (some value))))
    (inside : value.Contains expression) (around : scopes.Lists (Enclosure.scopes outer))
    (settled : scopes.Settled) (declared : site.scopes = scopes.bind identifier.name .declared) :
    Reads program site expression (.declaration identifier :: outer)
  /-- The expression is the name of a superclass. -/
  | parent {way : List (Enclosure Nat)} (pending : site.pending ≠ none) :
    Reads program site expression way

/-- Inside an expression the way is the same. -/
theorem Program.Reads.inner {program : Program Nat} {site : Site} {whole part : Expr Nat}
    {way : List (Enclosure Nat)} (reads : program.Reads site whole way)
    (listed : part ∈ whole.operands) : program.Reads site part way := by
  cases reads with
  | ordinary settled => exact .ordinary settled
  | initial visited inside around settled declared =>
    exact .initial visited (inside.tail listed) around settled declared
  | parent pending => exact .parent pending

/-- No name is being declared in settled scopes. -/
theorem Scopes.Settled.initialising_eq_false {scopes : Scopes} (settled : scopes.Settled)
    (name : String) : scopes.initialising name = false := by
  cases scopes with
  | nil => rfl
  | cons scope outer =>
    have quiet := settled scope List.mem_cons_self name
    simpa [Scopes.initialising] using quiet

/-- While a name is declared in settled scopes, no other one is, and this one is if there is a
scope. -/
theorem Scopes.Settled.initialising_bind {scopes : Scopes} (settled : scopes.Settled)
    (name other : String) :
    (scopes.bind name .declared).initialising other = true ↔ scopes ≠ [] ∧ name = other := by
  cases scopes with
  | nil => simp [Scopes.bind, Scopes.initialising]
  | cons scope outer =>
    have quiet := settled scope List.mem_cons_self other
    show decide (Scope.state? ((name, .declared) :: scope) other = some .declared) = true ↔ _
    rw [Scope.state?_cons]
    by_cases same : name = other
    · simp [same]
    · simp [same, quiet]

/-! ## Parts of a node -/

/-- The nodes of one of some expressions are nodes of all of them. -/
theorem Expr.lookUps_subset_lookUpsAll {expressions : List (Expr Nat)} {part : Expr Nat}
    (listed : part ∈ expressions) (way : List (Enclosure Nat)) :
    part.lookUps way ⊆ Expr.lookUpsAll way expressions := by
  induction expressions with
  | nil => simp at listed
  | cons first rest ih =>
    rw [Expr.lookUpsAll]
    rcases List.mem_cons.mp listed with rfl | listed
    · exact List.subset_append_left _ _
    · exact List.subset_append_of_subset_right _ (ih listed)

/-- The nodes of an operand are nodes of the expression. -/
theorem Expr.lookUps_subset_of_operand {whole part : Expr Nat} (listed : part ∈ whole.operands)
    (way : List (Enclosure Nat)) : part.lookUps way ⊆ whole.lookUps way := by
  cases whole with
  | literal | read | receiver | inherited => simp [Expr.operands] at listed
  | grouping | unary | get =>
    obtain rfl := List.mem_singleton.mp listed
    exact List.Subset.refl _
  | assign =>
    obtain rfl := List.mem_singleton.mp listed
    exact List.subset_cons_self _ _
  | binary | logical | set =>
    rcases List.mem_cons.mp listed with rfl | listed
    · exact List.subset_append_left _ _
    · obtain rfl := List.mem_singleton.mp listed
      exact List.subset_append_right _ _
  | call =>
    rcases List.mem_cons.mp listed with rfl | listed
    · exact List.subset_append_left _ _
    · exact List.subset_append_of_subset_right _ (Expr.lookUps_subset_lookUpsAll listed way)

/-- The nodes of an expression of a statement are nodes of the statement. -/
theorem Stmt.lookUps_subset_of_operand {statement : Stmt Nat} {value : Expr Nat}
    (listed : value ∈ statement.operands) (way : List (Enclosure Nat)) :
    value.lookUps way ⊆ statement.lookUps way := by
  cases statement with
  | expression | print =>
    obtain rfl := List.mem_singleton.mp listed
    exact List.Subset.refl _
  | choose condition thenBranch elseBranch =>
    obtain rfl := List.mem_singleton.mp listed
    cases elseBranch with
    | none => exact List.subset_append_left _ _
    | some => exact List.subset_append_of_subset_left _ (List.subset_append_left _ _)
  | loop =>
    obtain rfl := List.mem_singleton.mp listed
    exact List.subset_append_left _ _
  | finish keyword expression =>
    cases expression with
    | none => simp [Stmt.operands] at listed
    | some expression =>
      obtain rfl := List.mem_singleton.mp listed
      exact List.Subset.refl _
  | declare | block | function | classDeclaration => simp [Stmt.operands] at listed

/-- The nodes of a branch of a choice are nodes of the choice. -/
theorem Stmt.lookUps_thenBranch_subset (condition : Expr Nat) (branch : Stmt Nat)
    (other : Option (Stmt Nat)) (way : List (Enclosure Nat)) :
    branch.lookUps way ⊆ (Stmt.choose condition branch other).lookUps way := by
  cases other with
  | none => exact List.subset_append_right _ _
  | some other => exact List.subset_append_of_subset_left _ (List.subset_append_right _ _)

/-- The nodes of one of some methods are nodes of all of them. -/
theorem Stmt.functionLookUps_subset {methods : List (FunctionDecl Nat)} {method : FunctionDecl Nat}
    (listed : method ∈ methods) (way : List (Enclosure Nat)) :
    Stmt.functionLookUps way method ⊆ Stmt.methodsLookUps way methods := by
  induction methods with
  | nil => simp at listed
  | cons first rest ih =>
    rw [Stmt.methodsLookUps]
    rcases List.mem_cons.mp listed with rfl | listed
    · exact List.subset_append_left _ _
    · exact List.subset_append_of_subset_right _ (ih listed)

/-! ## Visited nodes -/

/-- A node of a program has a way: the nodes inside it that look a name up are nodes of the program
with this way. -/
def Node.Found (program : Program Nat) (site : Site) (way : List (Enclosure Nat)) : Node → Prop
  | .expression value => value.lookUps way ⊆ program.lookUps ∧ program.Reads site value way
  | .statement single =>
    single.lookUps way ⊆ program.lookUps ∧ ∃ earlier outer, way = .behind earlier :: outer
  | .statements body =>
    ∃ earlier outer, way = .behind earlier :: outer ∧
      Stmt.lookUpsAll outer earlier body ⊆ program.lookUps
  | .function declaration => Stmt.functionLookUps way declaration ⊆ program.lookUps

/-- Every visited node of a well-scoped program has a way on which the scopes around it are found.
-/
theorem Program.Visits.exists_way {table : Nat → Option Nat} {known : Nat → Prop}
    {program : Program Nat} (resolved : Stmt.ResolvedAll table .topLevel [] program)
    (proper : ∃ marks, Stmt.AlikeAll (.itself known) marks program program) {site : Site}
    {node : Node} (visited : program.Visits site node) :
    ∃ way, site.scopes.Lists (Enclosure.scopes way) ∧ node.Found program site way := by
  -- Scopes are settled wherever a statement is visited.
  have settled {site : Site} {statement : Stmt Nat}
      (visited : program.Visits site (.statement statement)) : site.scopes.Settled :=
    (visited.ready resolved proper).settled.resolve_left id
  induction visited with
  | program =>
    have outermost : Scopes.Lists [] (Enclosure.scopes ([] : List (Enclosure Nat))) := .nil
    exact ⟨[.behind []], outermost.behindNone, [], [], rfl, List.Subset.refl _⟩
  | first visited ih =>
    obtain ⟨way, listed, earlier, outer, rfl, inside⟩ := ih
    exact ⟨_, listed, List.Subset.trans (List.subset_append_left _ _) inside, earlier, outer, rfl⟩
  | @rest context scopes first rest visited ih =>
    obtain ⟨way, listed, earlier, outer, rfl, inside⟩ := ih
    exact ⟨_, listed.behind first context, earlier ++ [first], outer, rfl,
      List.Subset.trans (List.subset_append_right _ _) inside⟩
  | inner visited part ih =>
    obtain ⟨way, listed, inside, reads⟩ := ih
    exact ⟨way, listed, List.Subset.trans (Expr.lookUps_subset_of_operand part way) inside,
      reads.inner part⟩
  | operand visited part ih =>
    obtain ⟨way, listed, inside, earlier, outer, rfl⟩ := ih
    exact ⟨_, listed, List.Subset.trans (Stmt.lookUps_subset_of_operand part _) inside,
      .ordinary (settled visited)⟩
  | @initial context scopes name value visited ih =>
    obtain ⟨way, listed, inside, -⟩ := ih
    exact ⟨.declaration name :: way, listed.bind name.name .declared, inside,
      .initial visited .refl listed (settled visited) rfl⟩
  | @block context scopes body visited ih =>
    obtain ⟨way, listed, inside, -⟩ := ih
    have opened : Scopes.Lists ([] :: scopes) (Enclosure.scopes (.block :: way)) := listed.push
    exact ⟨_, opened.behindNone, [], .block :: way, rfl, inside⟩
  | @thenBranch context scopes condition branch other visited ih =>
    obtain ⟨way, listed, inside, begins⟩ := ih
    exact ⟨way, listed,
      List.Subset.trans (Stmt.lookUps_thenBranch_subset condition branch other way) inside, begins⟩
  | @elseBranch context scopes condition branch other visited ih =>
    obtain ⟨way, listed, inside, -⟩ := ih
    exact ⟨_, listed.behindNone.behind branch context,
      List.Subset.trans (List.subset_append_right _ _) inside, [branch], way, rfl⟩
  | loopBody visited ih =>
    obtain ⟨way, listed, inside, begins⟩ := ih
    exact ⟨way, listed, List.Subset.trans (List.subset_append_right _ _) inside, begins⟩
  | @function context scopes declaration visited ih =>
    obtain ⟨way, listed, inside, -⟩ := ih
    exact ⟨.declaration declaration.name :: way, listed.introduce declaration.name.name, inside⟩
  | @parent context scopes name parent methods visited ih =>
    obtain ⟨way, listed, inside, -⟩ := ih
    exact ⟨.declaration name :: way, listed.introduce name.name,
      List.Subset.trans (List.subset_append_left _ _) inside, .parent (Option.some_ne_none _)⟩
  | @method context scopes name parent methods method visited part ih =>
    obtain ⟨way, listed, inside, -⟩ := ih
    have among := Stmt.functionLookUps_subset part
      (Enclosure.aroundMethods name parent.isSome way)
    exact ⟨_, listed.forMethods name parent.isSome,
      List.Subset.trans (List.subset_append_of_subset_right _ among) inside⟩
  | @body context scopes declaration visited ih =>
    obtain ⟨way, listed, inside⟩ := ih
    obtain ⟨name, parameters, body⟩ := declaration
    exact ⟨_, (listed.function parameters).behindNone, [], .function parameters :: way, rfl, inside⟩

/-- The nodes of an expression inside another one are nodes of that one. -/
theorem Expr.Contains.lookUps_subset {whole part : Expr Nat} (inside : whole.Contains part)
    (way : List (Enclosure Nat)) : part.lookUps way ⊆ whole.lookUps way := by
  induction inside with
  | refl => exact List.Subset.refl _
  | tail _ listed ih => exact List.Subset.trans (Expr.lookUps_subset_of_operand listed way) ih

/-- An assignment is not the name of a superclass. -/
theorem Node.Ready.pending_eq_none {table : Nat → Option Nat} {known : Nat → Prop} {site : Site}
    {reference : Reference Nat} {value : Expr Nat}
    (ready : Node.Ready table known site (.expression (.assign reference value))) :
    site.pending = none := by
  cases pending : site.pending with
  | none => rfl
  | some name =>
    obtain ⟨other, same, -⟩ := ready.pending name pending
    cases same

/-- Among programs with distinct labels, a visited assignment is the only node with its label, with
the scopes that resolving finds around it. Its name is still being declared there exactly if the
assignment stands in the initial value of a local variable of this name. -/
theorem Visited.exists_lookUp {table : Nat → Option Nat} {known : Nat → Prop}
    {origins : List (Program Nat)} (accepted : Accepted table known origins)
    (distinct : ((origins.flatMap Program.lookUps).map LookUp.label).Nodup) {site : Site}
    {reference : Reference Nat} {value : Expr Nat}
    (visited : Visited origins site (.expression (.assign reference value))) :
    ∃ origin ∈ origins, ∃ node ∈ origin.lookUps, node.label = reference.label ∧
      node.name = reference.target.name ∧
        (∀ other ∈ origins, ∀ twin ∈ other.lookUps, twin.label = reference.label → twin = node) ∧
        site.scopes.Lists node.scopes ∧
        (site.scopes.initialising reference.target.name = true ↔
          origin.Initialises reference.target.name (.assign reference value)) := by
  have present := (visited.ready accepted).pending_eq_none
  obtain ⟨origin, listed, visits⟩ := visited
  obtain ⟨resolved, proper⟩ := accepted origin listed
  obtain ⟨way, scopes, nodes, reads⟩ := visits.exists_way resolved proper
  have here : reference.lookUp way ∈ origin.lookUps := nodes List.mem_cons_self
  have only (other : Program Nat) (present : other ∈ origins) (twin : LookUp Nat)
      (there : twin ∈ other.lookUps) (same : twin.label = reference.label) :
      twin = reference.lookUp way :=
    List.inj_on_of_nodup_map distinct (List.mem_flatMap_of_mem present there)
      (List.mem_flatMap_of_mem listed here) same
  refine ⟨origin, listed, reference.lookUp way, here, rfl, rfl, only, scopes, ?_, ?_⟩
  · intro declaring
    cases reads with
    | ordinary settled =>
      rw [settled.initialising_eq_false] at declaring
      cases declaring
    | initial visited inside around settled declared =>
      rw [declared, settled.initialising_bind] at declaring
      exact ⟨_, _, _, _, visited, declaring.1, declaring.2, inside⟩
    | parent pending => exact absurd present pending
  · rintro ⟨context, around, identifier, initial, declares, inner, named, inside⟩
    -- The assignment is found on the way through the declaration, and so this is its way.
    obtain ⟨outer, names, found, -⟩ := declares.exists_way resolved proper
    have there : reference.lookUp (.declaration identifier :: outer) ∈ origin.lookUps :=
      found (inside.lookUps_subset _ List.mem_cons_self)
    obtain rfl : .declaration identifier :: outer = way :=
      congrArg LookUp.way (only origin listed _ there rfl)
    cases reads with
    | @initial _ _ _ others _ _ _ further settled declared =>
      rw [declared, settled.initialising_bind]
      refine ⟨?_, named⟩
      have counted : others.length = around.length :=
        further.length_eq.trans names.length_eq.symm
      rintro rfl
      exact inner (List.length_eq_zero_iff.mp counted.symm)
    | parent pending => exact absurd present pending

end KoreanLox
