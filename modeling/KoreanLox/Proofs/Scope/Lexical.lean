import KoreanLox.Proofs.Grammar.Labelling
import KoreanLox.Proofs.Scope.Joining
import KoreanLox.Proofs.Tree.LookUps
import Mathlib

/-!
# Distances are lexical

While a program is resolved, the stack of scopes at a node declares the names that are found on the
way from the node outwards (`Scopes.Lists`): entering a construct adds to both what the construct
declares, and a statement leaves behind the names that it declares in its scope. So the distance
recorded for a node is the number of scopes inside the innermost one that declares the name before
the node, and nothing is recorded for a node without such a scope (`Program.resolve_lexical`).
-/

namespace KoreanLox

variable {ι : Type}

namespace LookUp

/-- How many scopes lie inside the innermost one that declares the name of a node before it. -/
def distance? (node : LookUp ι) : Option Nat :=
  node.scopes.findIdx? fun names => decide (node.name ∈ names)

/-- The entry of a node in the table of distances. -/
def entry? (node : LookUp ι) : Option (ι × Nat) :=
  node.distance?.map (Prod.mk node.label)

/-- A distance is that of the innermost scope that declares the name. -/
theorem distance?_eq_some_iff (node : LookUp ι) (distance : Nat) :
    node.distance? = some distance ↔ node.DeclaredAt distance := by
  unfold distance?
  rw [List.findIdx?_eq_some_iff_getElem]
  constructor
  · rintro ⟨inside, declared, first⟩
    refine ⟨node.scopes.take distance, node.scopes[distance], node.scopes.drop (distance + 1), ?_,
      ?_, of_decide_eq_true declared, fun others listed => ?_⟩
    · rw [List.getElem_cons_drop, List.take_append_drop]
    · rw [List.length_take]
      omega
    · obtain ⟨index, near, rfl⟩ := List.mem_take_iff_getElem.mp listed
      have closer : index < distance := by omega
      exact of_decide_eq_false (Bool.eq_false_of_not_eq_true (first index closer))
  · rintro ⟨nearer, names, outer, scopes, rfl, declared, first⟩
    rw [scopes]
    refine ⟨by simp, by simpa using declared, fun index closer => ?_⟩
    rw [List.getElem_append_left closer]
    simpa using first _ (List.getElem_mem closer)

/-- There is no distance if no scope declares the name. -/
theorem distance?_eq_none_iff (node : LookUp ι) :
    node.distance? = none ↔ ∀ names ∈ node.scopes, node.name ∉ names := by
  unfold distance?
  simp

end LookUp

/-! ## Scopes by the names they declare -/

namespace Scopes

/-- A stack of scopes declares some names, listed scope by scope. -/
def Lists (scopes : Scopes) (names : List (List String)) : Prop :=
  List.Forall₂ (fun scope declared => ∀ name, scope.binds name = true ↔ name ∈ declared) scopes
    names

namespace Lists

variable {scopes : Scopes} {names : List (List String)} {way : List (Enclosure ι)}

/-- A new scope declares nothing. -/
theorem push (listed : scopes.Lists names) : Lists ([] :: scopes) ([] :: names) :=
  .cons (fun name => by simp [Scope.binds, Scope.state?]) listed

/-- A new scope that declares one name. -/
theorem pushDefined (listed : scopes.Lists names) (name : String) :
    Lists ([(name, .defined)] :: scopes) ([name] :: names) :=
  .cons (fun other => by
    rw [Scope.binds_cons]
    simp [Scope.binds, Scope.state?, eq_comm]) listed

/-- Binding a name declares it in the innermost scope. -/
theorem bind (listed : scopes.Lists names) (name : String) (binding : Binding) :
    (scopes.bind name binding).Lists (names.modifyHead (name :: ·)) := by
  cases listed with
  | nil => exact .nil
  | cons innermost outer =>
    refine .cons (fun other => ?_) outer
    rw [Scope.binds_cons, Bool.or_eq_true, decide_eq_true_eq, innermost other, List.mem_cons,
      eq_comm]

/-- No more names leave the innermost scope as it is. -/
theorem keep (listed : scopes.Lists names) : scopes.Lists (names.modifyHead ([] ++ ·)) := by
  cases names <;> exact listed

/-- In which order and how often the innermost scope declares its names does not matter. -/
theorem congr {early late : List String → List String}
    (listed : scopes.Lists (names.modifyHead early))
    (same : ∀ declared name, name ∈ early declared ↔ name ∈ late declared) :
    scopes.Lists (names.modifyHead late) := by
  cases names with
  | nil => exact listed
  | cons declared outer =>
    cases listed with
    | cons innermost rest =>
      exact .cons (fun name => (innermost name).trans (same declared name)) rest

/-- Introducing a name declares it in the innermost scope. -/
theorem introduce (listed : scopes.Lists names) (name : String) :
    (scopes.introduce name).Lists (names.modifyHead (name :: ·)) := by
  have twice := (listed.bind name .declared).bind name .defined
  rw [List.modifyHead_modifyHead] at twice
  exact twice.congr fun declared other => by simp

/-- Introducing parameters declares them in the innermost scope. -/
theorem introduceAll (listed : scopes.Lists names) (parameters : List Identifier) :
    (scopes.introduceAll parameters).Lists
      (names.modifyHead (parameters.map Identifier.name ++ ·)) := by
  induction parameters generalizing scopes names with
  | nil => exact listed.keep
  | cons first rest ih =>
    have all := ih (listed.introduce first.name)
    rw [List.modifyHead_modifyHead] at all
    exact all.congr fun declared other => by simp [or_left_comm]

/-- What a statement leaves declares the names that the statement declares in its scope. -/
theorem resolve {scopes : Scopes} {names : List (List String)} (listed : scopes.Lists names)
    (statement : Stmt ι) (context : Context) :
    (statement.resolve context scopes).2.Lists
      (names.modifyHead (statement.introduced ++ ·)) := by
  cases statement with
  | expression | print | block | finish => exact listed.keep
  | declare name initial => exact listed.introduce name.name
  | function declaration => exact listed.introduce declaration.name.name
  | classDeclaration name parent methods => exact listed.introduce name.name
  | loop condition body => exact listed.resolve body context
  | choose condition thenBranch elseBranch =>
    have between := listed.resolve thenBranch context
    cases elseBranch with
    | none => exact between
    | some elseBranch =>
      -- The names of the other branch come on top of those of the first one.
      have after := between.resolve elseBranch context
      rw [List.modifyHead_modifyHead] at after
      exact after.congr fun declared name => by simp [Stmt.introduced, or_left_comm]

/-- A name is found in the innermost scope that declares it. -/
theorem distance?_eq (listed : scopes.Lists names) (name : String) :
    scopes.distance? name = names.findIdx? fun declared => decide (name ∈ declared) := by
  induction listed with
  | nil => rfl
  | @cons scope declared _ _ innermost _ ih =>
    have same : scope.binds name = decide (name ∈ declared) := by
      rw [Bool.eq_iff_iff, innermost name, decide_eq_true_eq]
    unfold distance? at ih ⊢
    rw [List.findIdx?_cons, List.findIdx?_cons, same, ih]

/-! ### On the way outwards -/

/-- Behind no statements, scopes declare what they declare anyway. -/
theorem behindNone (listed : scopes.Lists (Enclosure.scopes way)) :
    scopes.Lists (Enclosure.scopes (.behind [] :: way)) :=
  listed.keep

/-- Behind one more statement, scopes declare what that statement left. -/
theorem behind {earlier : List (Stmt ι)}
    (listed : scopes.Lists (Enclosure.scopes (.behind earlier :: way))) (statement : Stmt ι)
    (context : Context) :
    (statement.resolve context scopes).2.Lists
      (Enclosure.scopes (.behind (earlier ++ [statement]) :: way)) := by
  have after := listed.resolve statement context
  change Lists _ (((Enclosure.scopes way).modifyHead _).modifyHead _) at after
  rw [List.modifyHead_modifyHead] at after
  exact after.congr fun declared name => by simp [Enclosure.names, or_left_comm]

/-- The scopes in the body of a function declare its parameters. -/
theorem function (listed : scopes.Lists (Enclosure.scopes way)) (parameters : List Identifier) :
    (Scopes.introduceAll ([] :: scopes) parameters).Lists
      (Enclosure.scopes (.function parameters :: way)) := by
  have taken := listed.push.introduceAll parameters
  rwa [List.modifyHead_cons, List.append_nil] at taken

/-- The scopes around methods declare the receiver, and the superclass if there is one. -/
theorem forMethods (listed : scopes.Lists (Enclosure.scopes way)) (name : Identifier)
    (extending : Bool) :
    ((scopes.introduce name.name).forMethods extending).Lists
      (Enclosure.scopes (Enclosure.aroundMethods name extending way)) := by
  have declared := listed.introduce name.name
  cases extending with
  | false => exact declared.pushDefined receiverName
  | true => exact (declared.pushDefined parentName).pushDefined receiverName

end Lists

end Scopes

/-! ## What resolving finds -/

namespace Resolution

/-- Without errors, what was found are the entries of some nodes, in some order. -/
def Finds (found : Resolution ι) (nodes : List (LookUp ι)) : Prop :=
  found.errors = [] → found.distances.Perm (nodes.filterMap LookUp.entry?)

namespace Finds

variable {first second : Resolution ι} {early late : List (LookUp ι)} {scopes : Scopes}
  {way : List (Enclosure ι)}

/-- Nothing found is the entries of no nodes. -/
theorem empty : Finds (.empty : Resolution ι) [] :=
  fun _ => .refl []

/-- A check for an error finds no entries. -/
theorem errorIf (wrong : Bool) (cause : ScopeCause) (lexeme : String) (span : Span) :
    Finds (.errorIf wrong cause lexeme span : Resolution ι) [] := by
  intro clean
  rw [Resolution.errors_errorIf] at clean
  rw [clean]
  exact .refl []

/-- Two parts find the entries of the nodes of both. -/
theorem append (head : first.Finds early) (tail : second.Finds late) :
    (first ++ second).Finds (early ++ late) := by
  intro clean
  obtain ⟨clean, clean'⟩ := List.append_eq_nil_iff.mp clean
  rw [List.filterMap_append]
  exact (head clean).append (tail clean')

/-- The nodes of the second part may be listed first. -/
theorem appendSwapped (head : first.Finds early) (tail : second.Finds late) :
    (first ++ second).Finds (late ++ early) := by
  intro clean
  have entries := head.append tail clean
  rw [List.filterMap_append] at entries ⊢
  exact entries.trans List.perm_append_comm

/-- Looking a name up finds the entry of the node. -/
theorem lookUp (listed : scopes.Lists (Enclosure.scopes way)) (label : ι) (name : String) :
    (Resolution.lookUp scopes label name).Finds [⟨label, name, way⟩] := by
  intro clean
  have same : scopes.distance? name = (LookUp.mk label name way).distance? :=
    listed.distance?_eq name
  unfold Resolution.lookUp
  rw [same]
  cases found : (LookUp.mk label name way).distance? with
  | none => simp [LookUp.entry?, found, Resolution.empty]
  | some distance => simp [LookUp.entry?, found]

end Finds

end Resolution

/-- A variable that is read finds its entry. -/
theorem Reference.resolveRead_finds (reference : Reference ι) {scopes : Scopes}
    {way : List (Enclosure ι)} (listed : scopes.Lists (Enclosure.scopes way)) :
    (reference.resolveRead scopes).Finds [reference.lookUp way] :=
  (Resolution.Finds.errorIf _ _ _ _).append (.lookUp listed reference.label _)

/-- A superclass finds its entry. -/
theorem resolveParent_finds (name : Identifier) (parent : Option (Reference ι)) {scopes : Scopes}
    {way : List (Enclosure ι)} (listed : scopes.Lists (Enclosure.scopes way)) :
    (resolveParent name scopes parent).Finds (parent.map (Reference.lookUp way)).toList := by
  cases parent with
  | none => exact .empty
  | some parent =>
    exact (Resolution.Finds.errorIf _ _ _ _).append (parent.resolveRead_finds listed)

/-- New parameters find no entries. -/
theorem Identifier.introduceAll_finds (scopes : Scopes) (parameters : List Identifier) :
    (Identifier.introduceAll scopes parameters : Resolution ι × Scopes).1.Finds [] := by
  induction parameters generalizing scopes with
  | nil => exact .empty
  | cons first rest ih =>
    exact (Resolution.Finds.errorIf _ _ _ _).append (ih (scopes.introduce first.name))

mutual

/-- An expression finds the entries of its nodes. -/
theorem Expr.resolve_finds (expression : Expr ι) (enclosing : ClassContext) {scopes : Scopes}
    {way : List (Enclosure ι)} (listed : scopes.Lists (Enclosure.scopes way)) :
    (expression.resolve enclosing scopes).Finds (expression.lookUps way) := by
  cases expression with
  | literal value => exact .empty
  | grouping inner => exact inner.resolve_finds enclosing listed
  | unary operator span operand => exact operand.resolve_finds enclosing listed
  | binary operator span left right =>
    exact (left.resolve_finds enclosing listed).append (right.resolve_finds enclosing listed)
  | logical operator left right =>
    exact (left.resolve_finds enclosing listed).append (right.resolve_finds enclosing listed)
  | read reference => exact reference.resolveRead_finds listed
  | assign reference value =>
    -- The value is resolved first, but its nodes are listed after the variable.
    exact (value.resolve_finds enclosing listed).appendSwapped
      (.lookUp listed reference.label reference.target.name)
  | call callee arguments closing =>
    exact (callee.resolve_finds enclosing listed).append
      (Expr.resolveAll_finds arguments enclosing listed)
  | get object property => exact object.resolve_finds enclosing listed
  | set object property value =>
    exact (value.resolve_finds enclosing listed).appendSwapped
      (object.resolve_finds enclosing listed)
  | receiver keyword label =>
    have found := Resolution.Finds.lookUp listed label receiverName
    unfold Expr.resolve
    -- Outside of a class nothing is looked up, but then there is an error.
    by_cases outside : enclosing = .none
    · rw [if_pos outside]
      intro clean
      simp at clean
    · rw [if_neg outside]
      exact found
  | inherited keyword method label =>
    have found := Resolution.Finds.lookUp listed label parentName
    have checked : Resolution.Finds (ι := ι)
        (match parentCause? enclosing with
          | some cause => ⟨[], [⟨cause, parentName, keyword⟩]⟩
          | none => .empty) [] := by
      cases enclosing <;> exact fun _ => .refl []
    exact checked.append found

/-- Expressions find the entries of their nodes. -/
theorem Expr.resolveAll_finds (expressions : List (Expr ι)) (enclosing : ClassContext)
    {scopes : Scopes} {way : List (Enclosure ι)}
    (listed : scopes.Lists (Enclosure.scopes way)) :
    (Expr.resolveAll enclosing scopes expressions).Finds (Expr.lookUpsAll way expressions) := by
  cases expressions with
  | nil => exact .empty
  | cons first rest =>
    exact (first.resolve_finds enclosing listed).append
      (Expr.resolveAll_finds rest enclosing listed)

end

/-- An expression that may be missing finds the entries of its nodes. -/
theorem Expr.resolve?_finds (expression : Option (Expr ι)) (enclosing : ClassContext)
    {scopes : Scopes} {way : List (Enclosure ι)}
    (listed : scopes.Lists (Enclosure.scopes way)) :
    (Expr.resolve? enclosing scopes expression).Finds (Expr.lookUpsOf way expression) := by
  cases expression with
  | none => exact .empty
  | some expression => exact expression.resolve_finds enclosing listed

mutual

/-- A statement finds the entries of its nodes. -/
theorem Stmt.resolve_finds (statement : Stmt ι) (context : Context) {scopes : Scopes}
    {way : List (Enclosure ι)} (listed : scopes.Lists (Enclosure.scopes way)) :
    (statement.resolve context scopes).1.Finds (statement.lookUps way) := by
  cases statement with
  | expression value => exact value.resolve_finds context.enclosing listed
  | print value => exact value.resolve_finds context.enclosing listed
  | declare name initial =>
    have declared : (scopes.bind name.name .declared).Lists
        (Enclosure.scopes (.declaration name :: way)) := listed.bind name.name .declared
    exact (Resolution.Finds.errorIf _ _ _ _).append
      (Expr.resolve?_finds initial context.enclosing declared)
  | block body =>
    have opened : Scopes.Lists ([] :: scopes) (Enclosure.scopes (.block :: way)) := listed.push
    exact Stmt.resolveAll_finds body context opened.behindNone
  | choose condition thenBranch elseBranch =>
    have chosen := (condition.resolve_finds context.enclosing listed).append
      (thenBranch.resolve_finds context listed)
    cases elseBranch with
    | none => exact chosen
    | some elseBranch =>
      have between := listed.behindNone.behind thenBranch context
      exact chosen.append (elseBranch.resolve_finds context between)
  | loop condition body =>
    exact (condition.resolve_finds context.enclosing listed).append
      (body.resolve_finds context listed)
  | function declaration =>
    have declared : (scopes.introduce declaration.name.name).Lists
        (Enclosure.scopes (.declaration declaration.name :: way)) :=
      listed.introduce declaration.name.name
    exact (Resolution.Finds.errorIf _ _ _ _).append
      (Stmt.resolveFunction_finds declaration _ declared)
  | finish keyword value =>
    have checked : (checkReturn context.function keyword value.isSome : Resolution ι).Finds [] :=
      (Resolution.Finds.errorIf _ _ _ _).append (.errorIf _ _ _ _)
    exact checked.append (Expr.resolve?_finds value context.enclosing listed)
  | classDeclaration name parent methods =>
    have declared : (scopes.introduce name.name).Lists
        (Enclosure.scopes (.declaration name :: way)) := listed.introduce name.name
    have checked : (name.checkNew scopes : Resolution ι).Finds [] := .errorIf _ _ _ _
    exact (checked.append (resolveParent_finds name parent declared)).append
      (Stmt.resolveMethods_finds methods _ (listed.forMethods name parent.isSome))

/-- Statements find the entries of their nodes, behind the statements before them. -/
theorem Stmt.resolveAll_finds (statements : List (Stmt ι)) (context : Context) {scopes : Scopes}
    {way : List (Enclosure ι)} {earlier : List (Stmt ι)}
    (listed : scopes.Lists (Enclosure.scopes (.behind earlier :: way))) :
    (Stmt.resolveAll context scopes statements).1.Finds
      (Stmt.lookUpsAll way earlier statements) := by
  cases statements with
  | nil => exact .empty
  | cons first rest =>
    exact (first.resolve_finds context listed).append
      (Stmt.resolveAll_finds rest context (listed.behind first context))

/-- A function finds the entries of its nodes. -/
theorem Stmt.resolveFunction_finds (declaration : FunctionOver (Stmt ι)) (context : Context)
    {scopes : Scopes} {way : List (Enclosure ι)}
    (listed : scopes.Lists (Enclosure.scopes way)) :
    (Stmt.resolveFunction context scopes declaration).Finds
      (Stmt.functionLookUps way declaration) := by
  obtain ⟨name, parameters, body⟩ := declaration
  have taken := Identifier.introduceAll_finds (ι := ι) ([] :: scopes) parameters
  have inside := Stmt.resolveAll_finds body context (listed.function parameters).behindNone
  simp only [Stmt.resolveFunction, Identifier.introduceAll_snd]
  exact taken.append inside

/-- Methods find the entries of their nodes. -/
theorem Stmt.resolveMethods_finds (methods : List (FunctionOver (Stmt ι)))
    (enclosing : ClassContext) {scopes : Scopes} {way : List (Enclosure ι)}
    (listed : scopes.Lists (Enclosure.scopes way)) :
    (Stmt.resolveMethods enclosing scopes methods).Finds (Stmt.methodsLookUps way methods) := by
  cases methods with
  | nil => exact .empty
  | cons first rest =>
    exact (Stmt.resolveFunction_finds first _ listed).append
      (Stmt.resolveMethods_finds rest enclosing listed)

end

/-- The table of a well-scoped program has the entries of its nodes, in some order. -/
theorem Program.resolve_perm {program : Program ι} {distances : List (ι × Nat)}
    (accepted : program.resolve = .ok distances) :
    distances.Perm (program.lookUps.filterMap LookUp.entry?) := by
  obtain ⟨clean, rfl⟩ := Program.resolve_eq_ok_iff.mp accepted
  have outermost : Scopes.Lists [] (Enclosure.scopes ([] : List (Enclosure ι))) := .nil
  exact Stmt.resolveAll_finds program .topLevel outermost.behindNone clean

/-- The table of a well-scoped program, whatever its labels are, has a distance for a label exactly
if a node with this label has its innermost declaration there. -/
theorem Program.mem_distances_iff {program : Program ι} {distances : List (ι × Nat)}
    (accepted : program.resolve = .ok distances) (label : ι) (distance : Nat) :
    (label, distance) ∈ distances ↔
      ∃ node ∈ program.lookUps, node.label = label ∧ node.DeclaredAt distance := by
  rw [(Program.resolve_perm accepted).mem_iff, List.mem_filterMap]
  constructor
  · rintro ⟨node, listed, entry⟩
    obtain ⟨found, same, pair⟩ := Option.map_eq_some_iff.mp entry
    obtain ⟨rfl, rfl⟩ := Prod.mk.inj pair
    exact ⟨node, listed, rfl, (node.distance?_eq_some_iff found).mp same⟩
  · rintro ⟨node, listed, rfl, declared⟩
    have same := (node.distance?_eq_some_iff distance).mpr declared
    exact ⟨node, listed, Option.map_eq_some_iff.mpr ⟨distance, same, rfl⟩⟩

/-- The labels with an entry are labels of nodes, in the order of the nodes. -/
theorem LookUp.labels_entries_sublist (nodes : List (LookUp ι)) :
    ((nodes.filterMap LookUp.entry?).map Prod.fst).Sublist (nodes.map LookUp.label) := by
  induction nodes with
  | nil => exact .slnil
  | cons node nodes ih =>
    cases found : node.distance? with
    | none =>
      have missing : node.entry? = none := by rw [LookUp.entry?, found]; rfl
      rw [List.filterMap_cons_none missing]
      exact ih.cons node.label
    | some distance =>
      have present : node.entry? = some (node.label, distance) := by rw [LookUp.entry?, found]; rfl
      rw [List.filterMap_cons_some present]
      exact ih.cons_cons node.label

/-- No two nodes of a program that is read share a label. The nodes that look a name up are the
labelled landmarks of a program. The table of a well-scoped program, no two nodes of which share a
label, has one entry at most for every label, and entries for these nodes only. It has a distance
for a node exactly if the innermost scope around the node that declares the name before the node is
that far out, and none exactly if there is no such scope. -/
theorem Program.resolve_lexical :
    (∀ tokens next program after, Grammar.labelled tokens next = (.ok program, after) →
      (Program.labels program).Nodup) ∧
    ∀ (program : Program ι) (distances : List (ι × Nat)), program.labels.Nodup →
      program.resolve = .ok distances →
        program.lookUps.map LookUp.key = program.landmarks.filterMap Landmark.key? ∧
          (distances.map Prod.fst).Nodup ∧
          (∀ entry ∈ distances, ∃ node ∈ program.lookUps, node.label = entry.1) ∧
          ∀ node ∈ program.lookUps,
            (∀ distance, (node.label, distance) ∈ distances ↔ node.DeclaredAt distance) ∧
              ((∀ distance, (node.label, distance) ∉ distances) ↔
                ∀ names ∈ node.scopes, node.name ∉ names) := by
  refine ⟨fun tokens next program after read => ?_, fun program distances distinct accepted => ?_⟩
  · have fresh := (Grammar.labelled_fresh tokens next).2 program
    rw [read] at fresh
    exact (fresh rfl).nodup
  rw [Program.labels, ← program.map_label_lookUps] at distinct
  have table := Program.mem_distances_iff accepted
  refine ⟨Program.map_key_lookUps _, ?_, ?_, fun node listed => ?_⟩
  · have entries := ((Program.resolve_perm accepted).map Prod.fst).nodup_iff
    exact entries.mpr (distinct.sublist (LookUp.labels_entries_sublist _))
  · rintro ⟨label, distance⟩ entry
    obtain ⟨node, listed, same, -⟩ := (table label distance).mp entry
    exact ⟨node, listed, same⟩
  · -- No other node has the label, so that an entry under it is one of this node.
    have own (distance : Nat) :
        (node.label, distance) ∈ distances ↔ node.DeclaredAt distance := by
      rw [table]
      constructor
      · rintro ⟨other, present, same, declared⟩
        obtain rfl := List.inj_on_of_nodup_map distinct present listed same
        exact declared
      · intro declared
        exact ⟨node, listed, rfl, declared⟩
    refine ⟨own, ?_⟩
    rw [← node.distance?_eq_none_iff, Option.eq_none_iff_forall_ne_some]
    exact forall_congr' fun distance =>
      not_congr ((own distance).trans (node.distance?_eq_some_iff distance).symm)

set_option maxRecDepth 4000 in
/-- A later variable of a block does not hide the parameter before it is declared. -/
theorem Program.resolve_lexical_shadowed :
    ∃ program after,
      Grammar.labelled
            (Scan.ofSource "fun f(a) { { print a; var a; print a; } print b; }").tokens 0 =
          (.ok program, after) ∧
        program.labels.Nodup ∧ program.resolve = .ok [(0, 1), (1, 0)] ∧
        ∀ node ∈ program.lookUps, ∀ distance,
          (node.label, distance) ∈ [(0, 1), (1, 0)] ↔ node.DeclaredAt distance := by
  let name (text : String) (column : Nat) : Identifier := ⟨text, .point ⟨1, column⟩⟩
  let shown (text : String) (column label : Nat) : Stmt Nat :=
    .print (.read ⟨name text column, label⟩)
  let inner : Stmt Nat := .block [shown "a" 20 0, .declare (name "a" 27) none, shown "a" 36 1]
  let program : Program Nat :=
    [.function ⟨name "f" 5, [name "a" 7], [inner, shown "b" 47 2]⟩]
  have read : Grammar.labelled
      (Scan.ofSource "fun f(a) { { print a; var a; print a; } print b; }").tokens 0 =
        (.ok program, 3) := by cbv
  have resolved : program.resolve = .ok [(0, 1), (1, 0)] := by cbv
  obtain ⟨separate, finds⟩ := @Program.resolve_lexical Nat
  have distinct := separate _ 0 program 3 read
  refine ⟨program, 3, read, distinct, resolved, fun node listed => ?_⟩
  exact ((finds program _ distinct resolved).2.2.2 node listed).1

end KoreanLox
