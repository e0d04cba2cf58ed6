import KoreanLox.Proofs.Grammar.Reading

/-!
# Readers of expressions follow the grammar

A reader of a level takes exactly what is derived at that level and cannot go on with the token
after it (`Grammar.Reads`). This is shown for every level, given that the readers of what is nested
inside do so on fewer tokens. Every loop of the grammar adds links to what was read before, and
what is derived at its level is an operand of the next tighter level with some links
(`Chains.derives_iff`).
-/

namespace KoreanLox

/-- The level at which a token of some kind goes on with the expression before it. -/
def Kind.joins : Kind → Option Level
  | .mark .equal => some .assignment
  | .keyword .orWord => some .logicalOr
  | .keyword .andWord => some .logicalAnd
  | .mark .equalEqual | .mark .bangEqual => some .equality
  | .mark .less | .mark .lessEqual | .mark .greater | .mark .greaterEqual => some .comparison
  | .mark .plus | .mark .minus => some .term
  | .mark .star | .mark .slash => some .factor
  | .mark .leftParen | .mark .dot => some .call
  | _ => none

namespace Level

variable {level : Level} {token : Token} {rest : List Token}

/-- An expression of a level cannot go on with the first of some tokens. -/
def Stops (level : Level) (rest : List Token) : Prop :=
  ∀ token ∈ rest.head?, ∀ joined ∈ token.kind.joins, joined.rank < level.rank

/-- Nothing goes on inside a primary expression. -/
theorem stops_primary (rest : List Token) : Level.primary.Stops rest := by
  intro token _ joined found
  have other : joined ≠ .primary := by
    rintro rfl
    unfold Kind.joins at found
    split at found <;> simp at found
  have below := Level.rank_tighter other
  have most := joined.tighter.rank_le
  omega

/-- An expression ends before a token that goes on with nothing. -/
theorem stops_of_begins {kind : Kind} (begins : Parse.Begins kind rest) (none : kind.joins = none) :
    level.Stops rest := by
  obtain ⟨token, first, rfl⟩ := begins
  intro other found joined joins
  obtain rfl : token = other := Option.some.inj (first.symm.trans found)
  rw [none] at joins
  cases joins

/-- An expression ends before a token that goes on with nothing. -/
theorem stops_cons_of_joins_eq_none (none : token.kind.joins = none) :
    level.Stops (token :: rest) :=
  stops_of_begins ((Parse.begins_cons _ _ _).mpr rfl) none

/-- An expression ends before a token that goes on with a looser one only. -/
theorem stops_cons {joined : Level} (joins : token.kind.joins = some joined)
    (looser : joined.rank < level.rank) : level.Stops (token :: rest) := by
  intro other found level' joins'
  obtain rfl : token = other := Option.some.inj found
  obtain rfl : joined = level' := Option.some.inj (joins.symm.trans joins')
  exact looser

/-- An expression of a level ends where one of the next tighter level does and no token of the
level itself follows. -/
theorem stops_iff (loose : level ≠ .primary) :
    level.Stops rest ↔
      level.tighter.Stops rest ∧ ∀ token ∈ rest.head?, token.kind.joins ≠ some level := by
  have next := Level.rank_tighter loose
  constructor
  · intro stops
    refine ⟨fun token first joined joins => ?_, fun token first joins => ?_⟩
    · have below := stops token first joined joins
      omega
    · exact Nat.lt_irrefl _ (stops token first level joins)
  · rintro ⟨stops, others⟩ token first joined joins
    have below := stops token first joined joins
    have other : joined.rank ≠ level.rank := by
      intro same
      obtain rfl := Level.rank_injective same
      exact others token first joins
    omega

end Level

namespace Grammar

open Parse

variable {path : List Production} {tokens rest : List Token}

/-- On at most so many tokens a reader takes exactly what is derived at a level and cannot go on
with the token after it. -/
def Reads (reader : RawParse RawExpr) (level : Level) (bound : Nat) : Prop :=
  ∀ (path : List Production) (tokens rest : List Token) (value : RawExpr), tokens.length ≤ bound →
    (reader.Takes path tokens value rest ↔
      ∃ used, tokens = used ++ rest ∧ DerivesExpr level used value ∧ level.Stops rest)

/-- After an expression, the tokens behind it are read. -/
theorem Reads.takes_bind {α : Type} {reader : RawParse RawExpr} {level : Level} {bound : Nat}
    (reads : Reads reader level bound) (short : tokens.length ≤ bound) {next : RawExpr → RawParse α}
    {result : α} :
    (reader >>= next).Takes path tokens result rest ↔
      ∃ used more value, tokens = used ++ more ∧ DerivesExpr level used value ∧
        level.Stops more ∧ (next value).Takes path more result rest := by
  simp only [Parse.takes_bind, reads _ _ _ _ short]
  constructor
  · rintro ⟨value, more, ⟨used, same, derived, stops⟩, taken⟩
    exact ⟨used, more, value, same, derived, stops, taken⟩
  · rintro ⟨used, more, value, same, derived, stops, taken⟩
    exact ⟨value, more, ⟨used, same, derived, stops⟩, taken⟩

/-- An expression begins with nothing that cannot start it. -/
theorem not_begins_of_derives {level : Level} {used : List Token} {value : RawExpr} {kind : Kind}
    (derived : DerivesExpr level used value) (other : kind.starts level = false) :
    ¬ Begins kind (used ++ rest) := by
  obtain ⟨token, more, rfl, starts⟩ := derived.starts
  rw [List.cons_append, begins_cons]
  rintro rfl
  exact absurd (starts.symm.trans other) (by decide)

/-! ## Links -/

section

variable (link : List Token → (RawExpr → RawExpr) → Prop)

/-- An expression becomes another one by links that are added one by one. -/
inductive Linked : RawExpr → List Token → RawExpr → Prop where
  | done (value : RawExpr) : Linked value [] value
  | more {used others : List Token} {wrap : RawExpr → RawExpr} {left value : RawExpr}
    (first : link used wrap) (later : Linked (wrap left) others value) :
    Linked left (used ++ others) value

/-- One more link may be added at the end. -/
theorem Linked.concat {link : List Token → (RawExpr → RawExpr) → Prop} {used more : List Token}
    {left value : RawExpr} {wrap : RawExpr → RawExpr} (linked : Linked link left used value)
    (last : link more wrap) : Linked link left (used ++ more) (wrap value) := by
  induction linked with
  | done value => simpa using Linked.more last (.done (wrap value))
  | more first _ ih => simpa [List.append_assoc] using Linked.more first ih

/-- A level consists of what is derived at the next tighter one and of links. -/
structure Chains (level : Level) : Prop where
  /-- There is a tighter level. -/
  loose : level ≠ .primary
  /-- A link may be added to whatever is derived at the level. -/
  step : ∀ {used more : List Token} {left : RawExpr} {wrap : RawExpr → RawExpr},
    DerivesExpr level used left → link more wrap → DerivesExpr level (used ++ more) (wrap left)
  /-- What is derived at the level ends with a link or is derived at the tighter level. -/
  last : ∀ {used : List Token} {value : RawExpr}, DerivesExpr level used value →
    DerivesExpr level.tighter used value ∨
      ∃ before more left wrap, used = before ++ more ∧ DerivesExpr level before left ∧
        link more wrap ∧ value = wrap left
  /-- A link begins with a token of the level. -/
  begins : ∀ {used : List Token} {wrap : RawExpr → RawExpr}, link used wrap →
    ∃ token more, used = token :: more ∧ token.kind.joins = some level

end

section

variable {link : List Token → (RawExpr → RawExpr) → Prop} {level : Level}

/-- What is derived at a level is derived at the next tighter one and then linked. -/
theorem Chains.derives_iff (chains : Chains link level) {used : List Token} {value : RawExpr} :
    DerivesExpr level used value ↔
      ∃ before more first, used = before ++ more ∧ DerivesExpr level.tighter before first ∧
        Linked link first more value := by
  constructor
  · intro derived
    -- the tokens before the last link are fewer
    induction size : used.length using Nat.strongRecOn generalizing used value with
    | ind length ih =>
      obtain tight | ⟨before, more, left, wrap, rfl, earlier, linked, rfl⟩ := chains.last derived
      · exact ⟨used, [], value, by simp, tight, .done value⟩
      · obtain ⟨token, others, rfl, -⟩ := chains.begins linked
        have fewer : before.length < length := by
          rw [← size]
          simp
        obtain ⟨front, middle, first, rfl, tight, links⟩ := ih before.length fewer earlier rfl
        exact ⟨front, middle ++ token :: others, first, by simp, tight, links.concat linked⟩
  · rintro ⟨before, more, first, rfl, tight, links⟩
    have derived : DerivesExpr level before first := .tighter chains.loose tight
    clear tight
    induction links generalizing before with
    | done => simpa using derived
    | more linked _ ih => simpa [List.append_assoc] using ih _ (chains.step derived linked)

/-- Links begin with a token of the level, so that a tighter expression ends before them. -/
theorem Chains.stops (chains : Chains link level) {left value : RawExpr} {used : List Token}
    (linked : Linked link left used value) (stops : level.Stops rest) :
    level.tighter.Stops (used ++ rest) := by
  cases linked with
  | done => exact ((Level.stops_iff chains.loose).mp stops).1
  | more first _ =>
    obtain ⟨token, others, rfl, joins⟩ := chains.begins first
    have next := Level.rank_tighter chains.loose
    exact Level.stops_cons joins (by omega)

/-- A step of a loop adds one link, or ends where no token of the level follows. -/
structure Links (link : List Token → (RawExpr → RawExpr) → Prop) (level : Level)
    (step : RawExpr → RawParse (RawExpr ⊕ RawExpr)) (bound : Nat) : Prop where
  /-- A step that goes on adds a link. -/
  more : ∀ (path : List Production) (tokens rest : List Token) (left next : RawExpr),
    tokens.length ≤ bound → ((step left).Takes path tokens (.inl next) rest ↔
      ∃ used wrap, tokens = used ++ rest ∧ link used wrap ∧ next = wrap left ∧
        level.tighter.Stops rest)
  /-- A step that ends leaves everything as it is. -/
  done : ∀ (path : List Production) (tokens rest : List Token) (left value : RawExpr),
    tokens.length ≤ bound → ((step left).Takes path tokens (.inr value) rest ↔
      left = value ∧ tokens = rest ∧ ∀ token ∈ tokens.head?, token.kind.joins ≠ some level)

/-- A loop of links takes all links that there are. -/
theorem Chains.takes_iterate (chains : Chains link level) {bound : Nat}
    {step : RawExpr → RawParse (RawExpr ⊕ RawExpr)} (links : Links link level step bound)
    (rounds : Nat) {left value : RawExpr} (short : tokens.length ≤ bound)
    (enough : tokens.length < rounds) (begun : level.tighter.Stops tokens) :
    (iterate step rounds left).Takes path tokens value rest ↔
      ∃ used, tokens = used ++ rest ∧ Linked link left used value ∧ level.Stops rest := by
  induction rounds generalizing tokens left with
  | zero => exact absurd enough (Nat.not_lt_zero _)
  | succ rounds ih =>
    rw [takes_iterate_succ, links.done _ _ _ _ _ short]
    simp only [links.more _ _ _ _ _ short]
    constructor
    · rintro (⟨rfl, rfl, ended⟩ | ⟨next, middle, ⟨used, wrap, rfl, linked, rfl, stops⟩, taken⟩)
      · exact ⟨[], rfl, .done left, (Level.stops_iff chains.loose).mpr ⟨begun, ended⟩⟩
      · obtain ⟨token, others, rfl, -⟩ := chains.begins linked
        simp only [List.cons_append, List.length_cons, List.length_append] at short enough
        obtain ⟨used', rfl, later, ended⟩ := (ih (by omega) (by omega) stops).mp taken
        exact ⟨_, by simp, .more linked later, ended⟩
    · rintro ⟨used, rfl, linked, ended⟩
      cases linked with
      | done => exact .inl ⟨rfl, rfl, ((Level.stops_iff chains.loose).mp ended).2⟩
      | @more used others wrap _ _ first later =>
        obtain ⟨token, others', rfl, -⟩ := chains.begins first
        have stops := chains.stops later ended
        simp only [List.cons_append, List.length_cons, List.length_append] at short enough
        refine .inr ⟨wrap left, others ++ rest,
          ⟨token :: others', wrap, by simp, first, rfl, stops⟩,
          (ih ?_ ?_ stops).mpr ⟨others, rfl, later, ended⟩⟩
        · simp only [List.length_append]; omega
        · simp only [List.length_append]; omega

/-- A reader of operands and a loop of links read a level. -/
theorem Chains.reads (chains : Chains link level) {bound rounds : Nat}
    {step : RawExpr → RawParse (RawExpr ⊕ RawExpr)} {operand : RawParse RawExpr}
    (links : Links link level step bound) (reads : Reads operand level.tighter bound)
    (enough : bound ≤ rounds) :
    Reads (operand >>= fun first => iterate step rounds first) level bound := by
  intro path tokens rest value short
  rw [takes_bind]
  simp only [reads path tokens _ _ short]
  constructor
  · rintro ⟨first, middle, ⟨used, rfl, derived, stops⟩, taken⟩
    obtain ⟨token, others, rfl, -⟩ := derived.starts
    simp only [List.cons_append, List.length_cons, List.length_append] at short
    obtain ⟨used', rfl, linked, ended⟩ :=
      (chains.takes_iterate links rounds (by omega) (by omega) stops).mp taken
    exact ⟨_, by simp, chains.derives_iff.mpr ⟨_, used', first, rfl, derived, linked⟩, ended⟩
  · rintro ⟨used, rfl, derived, ended⟩
    obtain ⟨before, more, first, rfl, tight, linked⟩ := chains.derives_iff.mp derived
    have stops := chains.stops linked ended
    obtain ⟨token, others, rfl, -⟩ := tight.starts
    simp only [List.cons_append, List.length_cons, List.length_append] at short
    refine ⟨first, more ++ rest, ⟨token :: others, by simp, tight, stops⟩, ?_⟩
    rw [chains.takes_iterate links rounds (by simp only [List.length_append]; omega)
      (by simp only [List.length_append]; omega) stops]
    exact ⟨more, rfl, linked, ended⟩

end

/-! ## Operators between operands -/

section

variable {ω : Type} {operator? : Kind → Option ω}
  {join : ω → Span → RawExpr → RawExpr → RawExpr} {level : Level}

/-- A link of a chain: an operator and its right operand. -/
def OperatorLink (operator? : Kind → Option ω) (join : ω → Span → RawExpr → RawExpr → RawExpr)
    (level : Level) (used : List Token) (wrap : RawExpr → RawExpr) : Prop :=
  ∃ token found more right, used = token :: more ∧ operator? token.kind = some found ∧
    DerivesExpr level.tighter more right ∧ wrap = fun left => join found token.span left right

/-- The operators of a level are all that go on at it. -/
theorem chain_links (none : ∀ kind : Kind, operator? kind = none ↔ kind.joins ≠ some level)
    {bound : Nat} {operand : RawParse RawExpr} (reads : Reads operand level.tighter bound) :
    Links (OperatorLink operator? join level) level (chainLink operator? join operand) bound := by
  constructor
  · intro path tokens rest left next short
    unfold chainLink
    simp only [takes_bind, takes_operator]
    constructor
    · rintro ⟨_, middle, ⟨token, found, told, rfl, rfl⟩ | ⟨-, rfl, rfl⟩, taken⟩
      · obtain ⟨right, after, read, made⟩ := takes_bind.mp taken
        obtain ⟨same, rfl⟩ := takes_pure.mp made
        cases same
        simp only [List.length_cons] at short
        obtain ⟨used, rfl, derived, stops⟩ := (reads _ _ _ _ (by omega)).mp read
        exact ⟨token :: used, _, rfl,
          ⟨token, found, used, right, rfl, told, derived, rfl⟩, rfl, stops⟩
      · cases (takes_pure.mp taken).1
    · rintro ⟨used, wrap, rfl, ⟨token, found, more, right, rfl, told, derived, rfl⟩, rfl, stops⟩
      simp only [List.cons_append, List.length_cons] at short
      refine ⟨some (found, token.span), more ++ rest, .inl ⟨token, found, told, rfl, rfl⟩, ?_⟩
      refine takes_bind.mpr ⟨right, rest, ?_, takes_pure.mpr ⟨rfl, rfl⟩⟩
      exact (reads _ _ _ _ (by omega)).mpr ⟨more, rfl, derived, stops⟩
  · intro path tokens rest left value short
    unfold chainLink
    simp only [takes_bind, takes_operator, ← none]
    constructor
    · rintro ⟨_, middle, ⟨token, found, told, rfl, rfl⟩ | ⟨ended, rfl, rfl⟩, taken⟩
      · obtain ⟨right, after, read, made⟩ := takes_bind.mp taken
        cases (takes_pure.mp made).1
      · obtain ⟨same, rfl⟩ := takes_pure.mp taken
        exact ⟨Sum.inr.inj same, rfl, ended⟩
    · rintro ⟨rfl, rfl, ended⟩
      exact ⟨.none, tokens, .inr ⟨ended, rfl, rfl⟩, takes_pure.mpr ⟨rfl, rfl⟩⟩

/-- A chain of operands reads the level of its operators. -/
theorem chain_reads (chains : Chains (OperatorLink operator? join level) level)
    (none : ∀ kind : Kind, operator? kind = none ↔ kind.joins ≠ some level) {bound rounds : Nat}
    {operand : RawParse RawExpr} (reads : Reads operand level.tighter bound)
    (enough : bound ≤ rounds) : Reads (chain rounds operator? join operand) level bound :=
  chains.reads (chain_links none reads) reads enough

end

section

variable {operator : BinaryOperator} {operator? : Kind → Option BinaryOperator}

/-- A token goes on at the level of a binary operator if it is a binary operator of that level. -/
theorem joins_eq_binary {kind : Kind} :
    kind.joins = some operator.level ↔
      ∃ found : BinaryOperator, kind = .mark found.mark ∧ found.level = operator.level := by
  constructor
  · intro joins
    unfold Kind.joins at joins
    split at joins
    case h_4 => exact ⟨.equal, rfl, Option.some.inj joins⟩
    case h_5 => exact ⟨.notEqual, rfl, Option.some.inj joins⟩
    case h_6 => exact ⟨.less, rfl, Option.some.inj joins⟩
    case h_7 => exact ⟨.lessEqual, rfl, Option.some.inj joins⟩
    case h_8 => exact ⟨.greater, rfl, Option.some.inj joins⟩
    case h_9 => exact ⟨.greaterEqual, rfl, Option.some.inj joins⟩
    case h_10 => exact ⟨.add, rfl, Option.some.inj joins⟩
    case h_11 => exact ⟨.subtract, rfl, Option.some.inj joins⟩
    case h_12 => exact ⟨.multiply, rfl, Option.some.inj joins⟩
    case h_13 => exact ⟨.divide, rfl, Option.some.inj joins⟩
    all_goals cases operator <;> cases joins
  · rintro ⟨found, rfl, same⟩
    rw [← same]
    cases found <;> rfl

/-- What is derived at the level of a binary operator is a chain. -/
theorem binary_chains
    (told : ∀ kind found, operator? kind = some found ↔
      kind = .mark found.mark ∧ found.level = operator.level) :
    Chains (OperatorLink operator? Expr.binary operator.level) operator.level where
  loose := operator.level_ne_primary
  step := by
    rintro used _ left _ derived ⟨token, found, more, right, rfl, known, second, rfl⟩
    obtain ⟨written, own⟩ := (told _ _).mp known
    exact .binary own derived written second
  last := by
    intro used value derived
    generalize same : operator.level = level at derived
    cases derived with
    | @binary _ before more token found left right own first written second =>
      exact .inr ⟨before, token :: more, left, _, rfl, first, ⟨token, found, more, right, rfl,
        (told _ _).mpr ⟨written, own.trans same.symm⟩, second, rfl⟩, rfl⟩
    | @logical _ _ _ _ found _ _ own =>
      rw [← own] at same
      cases operator <;> cases found <;> cases same
    | tighter _ derived => exact .inl derived
    | _ => cases operator <;> cases same
  begins := by
    rintro _ _ ⟨token, found, more, right, rfl, known, -, -⟩
    obtain ⟨written, own⟩ := (told _ _).mp known
    exact ⟨token, more, rfl, joins_eq_binary.mpr ⟨found, written, own⟩⟩

/-- A chain of operands with all binary operators of a level reads that level. -/
theorem binary_reads
    (told : ∀ kind found, operator? kind = some found ↔
      kind = .mark found.mark ∧ found.level = operator.level) {bound rounds : Nat}
    {operand : RawParse RawExpr} (reads : Reads operand operator.level.tighter bound)
    (enough : bound ≤ rounds) :
    Reads (chain rounds operator? Expr.binary operand) operator.level bound := by
  refine chain_reads (binary_chains told) (fun kind => ?_) reads enough
  rw [Ne, joins_eq_binary, Option.eq_none_iff_forall_ne_some]
  simp only [Ne, told, not_exists]

end

section

variable {operator : LogicalOperator} {operator? : Kind → Option LogicalOperator}

/-- A token goes on at the level of a logical operator if it is that operator. -/
theorem joins_eq_logical {kind : Kind} :
    kind.joins = some operator.level ↔ kind = .keyword operator.keyword := by
  constructor
  · intro joins
    unfold Kind.joins at joins
    split at joins <;> cases operator <;> first | rfl | cases joins
  · rintro rfl
    cases operator <;> rfl

/-- What is derived at the level of a logical operator is a chain. -/
theorem logical_chains
    (told : ∀ kind found, operator? kind = some found ↔
      kind = .keyword found.keyword ∧ found = operator) :
    Chains (OperatorLink operator? joinLogical operator.level) operator.level where
  loose := operator.level_ne_primary
  step := by
    rintro used _ left _ derived ⟨token, found, more, right, rfl, known, second, rfl⟩
    obtain ⟨written, rfl⟩ := (told _ _).mp known
    exact .logical rfl derived written second
  last := by
    intro used value derived
    generalize same : operator.level = level at derived
    cases derived with
    | @binary _ _ _ _ found _ _ own =>
      rw [← own] at same
      cases operator <;> cases found <;> cases same
    | @logical _ before more token found left right own first written second =>
      have alone : found = operator := by
        rw [← own] at same
        cases operator <;> cases found <;> first | rfl | cases same
      exact .inr ⟨before, token :: more, left, _, rfl, first, ⟨token, found, more, right, rfl,
        (told _ _).mpr ⟨written, alone⟩, second, rfl⟩, rfl⟩
    | tighter _ derived => exact .inl derived
    | _ => cases operator <;> cases same
  begins := by
    rintro _ _ ⟨token, found, more, right, rfl, known, -, -⟩
    obtain ⟨written, rfl⟩ := (told _ _).mp known
    exact ⟨token, more, rfl, joins_eq_logical.mpr written⟩

/-- A chain of operands with a logical operator reads the level of that operator. -/
theorem logical_reads
    (told : ∀ kind found, operator? kind = some found ↔
      kind = .keyword found.keyword ∧ found = operator) {bound rounds : Nat}
    {operand : RawParse RawExpr} (reads : Reads operand operator.level.tighter bound)
    (enough : bound ≤ rounds) :
    Reads (chain rounds operator? joinLogical operand) operator.level bound := by
  refine chain_reads (logical_chains told) (fun kind => ?_) reads enough
  rw [Ne, joins_eq_logical, Option.eq_none_iff_forall_ne_some]
  simp only [Ne, told]
  grind

end

/-! ## Lists with commas -/

section

variable {α : Type}

/-- A step reads one more entry of a list with commas: it goes on after a comma, and ends before
certain tokens. -/
def ReadsEntry (step : List α → RawParse (List α ⊕ List α)) (derives : List Token → α → Prop)
    (ends : List Token → Prop) (bound : Nat) : Prop :=
  ∀ (path : List Production) (tokens rest : List Token) (before : List α)
    (result : List α ⊕ List α), tokens.length ≤ bound →
    ((step before).Takes path tokens result rest ↔
      before.length < entryLimit ∧ ∃ used more value, tokens = used ++ more ∧
        derives used value ∧
        ((∃ comma, comma.kind = .mark .comma ∧ more = comma :: rest ∧
            result = .inl (value :: before)) ∨
          (more = rest ∧ ends rest ∧ result = .inr (value :: before).reverse)))

/-- Repeated steps read all entries of a list. -/
theorem ReadsEntry.takes_iterate {step : List α → RawParse (List α ⊕ List α)}
    {derives : List Token → α → Prop} {ends : List Token → Prop} {bound : Nat}
    (reads : ReadsEntry step derives ends bound) (rounds : Nat) (short : tokens.length ≤ bound)
    (enough : tokens.length < rounds) {before values : List α} :
    (iterate step rounds before).Takes path tokens values rest ↔
      ∃ (entries : List (List Token × α)) (inner : List Token), entries ≠ [] ∧
        tokens = inner ++ rest ∧ values = before.reverse ++ entries.map Prod.snd ∧
        (∀ entry ∈ entries, derives entry.1 entry.2) ∧ Separated (entries.map Prod.fst) inner ∧
        before.length + entries.length ≤ entryLimit ∧ ends rest := by
  induction rounds generalizing tokens before with
  | zero => exact absurd enough (Nat.not_lt_zero _)
  | succ rounds ih =>
    rw [takes_iterate_succ]
    simp only [reads _ _ _ _ _ short]
    constructor
    · rintro (⟨few, used, more, value, rfl, derived, last⟩ |
        ⟨next, middle, ⟨few, used, more, value, rfl, derived, last⟩, taken⟩)
      · obtain ⟨_, _, _, same⟩ | ⟨rfl, ended, same⟩ := last
        · cases same
        · cases same
          exact ⟨[(used, value)], used, by simp, rfl, by simp, by simpa using derived, .one used,
            by simpa using Nat.succ_le_of_lt few, ended⟩
      · obtain ⟨comma, written, rfl, same⟩ | ⟨_, _, same⟩ := last
        · cases same
          simp only [List.length_append, List.length_cons] at short enough
          obtain ⟨entries, inner, some, rfl, rfl, all, listed, limited, ended⟩ :=
            (ih (by omega) (by omega)).mp taken
          obtain ⟨entry, entries, rfl⟩ := List.exists_cons_of_ne_nil some
          refine ⟨(used, value) :: entry :: entries, used ++ comma :: inner, by simp, by simp,
            by simp, ?_, .more written listed, ?_, ended⟩
          · simpa [derived] using all
          · simp only [List.length_cons] at limited ⊢
            omega
        · cases same
    · rintro ⟨entries, inner, some, rfl, rfl, all, listed, limited, ended⟩
      obtain ⟨⟨used, value⟩, entries, rfl⟩ := List.exists_cons_of_ne_nil some
      have derived := all _ List.mem_cons_self
      simp only [List.length_cons] at limited
      have few : before.length < entryLimit := by omega
      cases entries with
      | nil =>
        cases listed
        exact .inl ⟨few, used, rest, value, rfl, derived, .inr ⟨rfl, ended, by simp⟩⟩
      | cons entry entries =>
        simp only [List.map_cons] at listed
        cases listed with
        | @more _ _ others _ comma written listed =>
          simp only [List.length_append, List.length_cons] at short enough limited
          refine .inr ⟨value :: before, others ++ rest,
            ⟨few, used, comma :: (others ++ rest), value, by simp, derived,
              .inl ⟨comma, written, rfl, rfl⟩⟩, ?_⟩
          refine (ih ?_ ?_).mpr ⟨entry :: entries, others, by simp, rfl, by simp,
            fun other mem => all other (List.mem_cons_of_mem _ mem), listed, ?_, ended⟩
          · simp only [List.length_append]; omega
          · simp only [List.length_append]; omega
          · simp only [List.length_cons]; omega

end

/-! ## Calls and primary expressions -/

/-- The limits of some rules suffice, and their readers of expressions follow the grammar, on at
most so many tokens. -/
structure ReadsNested (rules : RawRules) (bound : Nat) : Prop where
  /-- Lists have as many entries as they may. -/
  limited : rules.limit = some entryLimit
  /-- There are more rounds than tokens. -/
  enough : bound < rules.rounds
  /-- Assignments are read. -/
  assignment : Reads rules.assignment .assignment bound
  /-- Unary operators are read. -/
  unary : Reads rules.unary .unary bound

section

variable {rules : RawRules} {bound : Nat}

/-- A nested expression is read. -/
theorem nested_reads (reads : ReadsNested rules bound) :
    Reads (nested rules) .assignment bound := by
  intro path tokens rest value short
  exact reads.assignment _ tokens rest value short

/-- Primary expressions are read. -/
theorem primary_reads (reads : ReadsNested rules bound) :
    Reads (primary rules) .primary (bound + 1) := by
  intro path tokens rest value short
  unfold primary
  rw [takes_inside, takes_bind]
  simp only [takes_peek]
  constructor
  · rintro ⟨_, _, ⟨rfl, rfl⟩, taken⟩
    split at taken
    case h_10 => exact absurd taken takes_stop
    all_goals
      rename_i first
      obtain ⟨more, rfl⟩ := List.head?_eq_some_iff.mp first
      rw [takes_skip_bind] at taken
    case h_6 =>
      obtain ⟨rfl, rfl⟩ := takes_pure.mp taken
      exact ⟨[_], rfl, @DerivesExpr.receiver ⟨_, _, _⟩ rfl, Level.stops_primary _⟩
    case h_7 =>
      simp only [takes_expect_bind, takes_identifier_bind, draw_bind, takes_pure] at taken
      obtain ⟨dot, _, rfl, dotted, token, _, name, rfl, named, rfl, rfl⟩ := taken
      exact ⟨[_, dot, token], rfl, @DerivesExpr.inherited ⟨_, _, _⟩ _ _ _ rfl dotted named,
        Level.stops_primary _⟩
    case h_8 lexeme span =>
      rw [(nested_reads reads).takes_bind (by simpa using short)] at taken
      simp only [takes_expect_bind, takes_pure] at taken
      obtain ⟨used, _, inner, rfl, derived, -, closing, _, rfl, closed, rfl, rfl⟩ := taken
      exact ⟨⟨_, lexeme, span⟩ :: (used ++ [closing]), by simp, .grouping rfl derived closed,
        Level.stops_primary _⟩
    case h_9 =>
      obtain ⟨rfl, rfl⟩ := takes_pure.mp taken
      exact ⟨[_], rfl, .read ⟨rfl, rfl⟩, Level.stops_primary _⟩
    all_goals
      obtain ⟨rfl, rfl⟩ := takes_pure.mp taken
      exact ⟨[_], rfl, .literal rfl, Level.stops_primary _⟩
  · rintro ⟨used, rfl, derived, -⟩
    refine ⟨_, _, ⟨rfl, rfl⟩, ?_⟩
    cases derived with
    | @literal token value written =>
      obtain ⟨kind, lexeme, span⟩ := token
      obtain rfl : kind = value.kind := written
      obtain _ | (_ | _) | _ | _ := value <;>
        exact takes_skip_bind.mpr (takes_pure.mpr ⟨rfl, rfl⟩)
    | @receiver token written =>
      obtain ⟨kind, lexeme, span⟩ := token
      obtain rfl : kind = _ := written
      exact takes_skip_bind.mpr (takes_pure.mpr ⟨rfl, rfl⟩)
    | @inherited token dot name method written dotted named =>
      obtain ⟨kind, lexeme, span⟩ := token
      obtain rfl : kind = _ := written
      refine takes_skip_bind.mpr (takes_expect_bind.mpr ⟨dot, _, rfl, dotted, ?_⟩)
      exact takes_identifier_bind.mpr ⟨name, _, method, rfl, named, takes_pure.mpr ⟨rfl, rfl⟩⟩
    | @read token name named =>
      obtain ⟨kind, lexeme, span⟩ := token
      obtain ⟨name, place⟩ := name
      obtain ⟨rfl, rfl⟩ : kind = _ ∧ span = _ := named
      exact takes_skip_bind.mpr (takes_pure.mpr ⟨rfl, rfl⟩)
    | @grouping opening closing used inner opened derived closed =>
      obtain ⟨kind, lexeme, span⟩ := opening
      obtain rfl : kind = _ := opened
      simp only [List.cons_append, List.append_assoc, List.length_cons] at short
      refine takes_skip_bind.mpr (((nested_reads reads).takes_bind ?_).mpr
        ⟨used, closing :: rest, inner, by simp, derived, ?_, ?_⟩)
      · simpa using short
      · exact Level.stops_cons_of_joins_eq_none (by rw [closed]; rfl)
      · exact takes_expect_bind.mpr ⟨closing, rest, rfl, closed, takes_pure.mpr ⟨rfl, rfl⟩⟩
    | tighter loose => exact absurd rfl loose
    | @binary _ _ _ _ operator _ _ own => cases operator <;> cases own
    | @logical _ _ _ _ operator _ _ own => cases operator <;> cases own

/-! ### Arguments -/

/-- An argument is added to those before it, and a comma tells whether there are more. -/
theorem argument_reads (reads : ReadsNested rules bound) :
    ReadsEntry (argument rules) (DerivesExpr .assignment) (Begins (.mark .rightParen)) bound := by
  intro path tokens rest before result short
  unfold argument
  rw [takes_bind]
  simp only [takes_checkLimit, reads.limited, Option.mem_def, Option.some.injEq, forall_eq']
  constructor
  · rintro ⟨_, _, ⟨few, rfl⟩, taken⟩
    rw [(nested_reads reads).takes_bind short] at taken
    obtain ⟨used, more, value, rfl, derived, -, taken⟩ := taken
    refine ⟨few, used, more, value, rfl, derived, ?_⟩
    rw [takes_ifMark] at taken
    obtain ⟨begins, taken⟩ | ⟨-, taken⟩ := taken
    · obtain ⟨comma, more, rfl, written⟩ := begins.exists_cons
      rw [takes_skip_bind, takes_pure] at taken
      obtain ⟨rfl, rfl⟩ := taken
      exact .inl ⟨comma, written, rfl, rfl⟩
    · rw [takes_ifMark] at taken
      obtain ⟨begins, taken⟩ | ⟨-, taken⟩ := taken
      · obtain ⟨rfl, rfl⟩ := takes_pure.mp taken
        exact .inr ⟨rfl, begins, rfl⟩
      · exact absurd taken takes_stop
  · rintro ⟨few, used, more, value, rfl, derived, last⟩
    refine ⟨(), _, ⟨few, rfl⟩, ((nested_reads reads).takes_bind short).mpr
      ⟨used, more, value, rfl, derived, ?_⟩⟩
    obtain ⟨comma, written, rfl, rfl⟩ | ⟨rfl, begins, rfl⟩ := last
    · refine ⟨Level.stops_cons_of_joins_eq_none (by rw [written]; rfl), takes_ifMark.mpr (.inl ?_)⟩
      exact ⟨by simpa using written, takes_skip_bind.mpr (takes_pure.mpr ⟨rfl, rfl⟩)⟩
    · refine ⟨Level.stops_of_begins begins rfl, takes_ifMark.mpr (.inr ?_)⟩
      obtain ⟨closing, rest, rfl, written⟩ := begins.exists_cons
      exact ⟨by simp [written], takes_ifMark.mpr (.inl ⟨begins, takes_pure.mpr ⟨rfl, rfl⟩⟩)⟩

/-- The arguments of a call are taken up to its closing parenthesis, if there are any. -/
theorem takes_arguments (reads : ReadsNested rules bound) (short : tokens.length ≤ bound)
    {values : List RawExpr} :
    (arguments rules).Takes path tokens values rest ↔
      ∃ (entries : List (List Token × RawExpr)) (inner : List Token),
        tokens = inner ++ rest ∧ values = entries.map Prod.snd ∧
        (∀ entry ∈ entries, DerivesExpr .assignment entry.1 entry.2) ∧
        Separated (entries.map Prod.fst) inner ∧ entries.length ≤ entryLimit ∧
        Begins (.mark .rightParen) rest := by
  have enough := reads.enough
  unfold arguments
  rw [takes_ifMark, takes_pure,
    (argument_reads reads).takes_iterate rules.rounds short (by omega)]
  constructor
  · rintro (⟨begins, rfl, rfl⟩ | ⟨-, entries, inner, -, same, rfl, all, listed, limited, begins⟩)
    · exact ⟨[], [], rfl, rfl, by simp, .none, by simp, begins⟩
    · exact ⟨entries, inner, same, by simp, all, listed, by simpa using limited, begins⟩
  · rintro ⟨entries, inner, rfl, rfl, all, listed, limited, begins⟩
    cases entries with
    | nil =>
      cases listed
      exact .inl ⟨begins, rfl, rfl⟩
    | cons entry entries =>
      refine .inr ⟨?_, entry :: entries, inner, by simp, rfl, by simp, all, listed,
        by simpa using limited, begins⟩
      obtain ⟨more, rfl⟩ := listed.exists_append
      rw [List.append_assoc]
      exact not_begins_of_derives (all entry List.mem_cons_self) rfl

/-- The closing parenthesis of a call is taken with its place. -/
theorem takes_closing {span : Span} :
    closing.Takes path tokens span rest ↔
      ∃ token, token.kind = .mark .rightParen ∧ token.span = span ∧ tokens = token :: rest := by
  unfold closing
  rw [takes_bind]
  simp only [takes_peek]
  constructor
  · rintro ⟨_, _, ⟨rfl, rfl⟩, taken⟩
    split at taken
    case h_1 => exact absurd taken takes_stop
    case h_2 token first =>
      obtain ⟨more, rfl⟩ := List.head?_eq_some_iff.mp first
      simp only [takes_expect_bind, takes_pure] at taken
      obtain ⟨_, _, same, closed, rfl, rfl⟩ := taken
      obtain ⟨rfl, rfl⟩ := List.cons.inj same
      exact ⟨token, closed, rfl, rfl⟩
  · rintro ⟨token, closed, rfl, rfl⟩
    exact ⟨_, _, ⟨rfl, rfl⟩, takes_expect_bind.mpr
      ⟨token, rest, rfl, closed, takes_pure.mpr ⟨rfl, rfl⟩⟩⟩

/-! ### Calls -/

/-- A link of a call: arguments in parentheses, or a property. -/
inductive CallLink : List Token → (RawExpr → RawExpr) → Prop where
  | arguments {opening closing : Token} {inner : List Token}
    {entries : List (List Token × RawExpr)} (opened : opening.kind = .mark .leftParen)
    (values : ∀ entry ∈ entries, DerivesExpr .assignment entry.1 entry.2)
    (listed : Separated (entries.map Prod.fst) inner) (limited : entries.length ≤ entryLimit)
    (closed : closing.kind = .mark .rightParen) :
    CallLink (opening :: (inner ++ [closing]))
      (fun callee => .call callee (entries.map Prod.snd) closing.span)
  | property {dot name : Token} {property : Identifier} (dotted : dot.kind = .mark .dot)
    (named : name.Spells property) : CallLink [dot, name] (fun object => .get object property)

/-- What is derived at the level of calls is a primary expression with links. -/
theorem call_chains : Chains CallLink .call where
  loose := by decide
  step := by
    rintro used _ left _ derived (⟨opened, values, listed, limited, closed⟩ | ⟨dotted, named⟩)
    · exact .call derived opened values listed limited closed
    · exact .get derived dotted named
  last := by
    intro used value derived
    cases derived with
    | call called opened values listed limited closed =>
      exact .inr ⟨_, _, _, _, rfl, called, .arguments opened values listed limited closed, rfl⟩
    | get owner dotted named => exact .inr ⟨_, _, _, _, rfl, owner, .property dotted named, rfl⟩
    | tighter _ derived => exact .inl derived
    | @binary _ _ _ _ operator _ _ own => cases operator <;> cases own
    | @logical _ _ _ _ operator _ _ own => cases operator <;> cases own
  begins := by
    rintro _ _ (⟨opened, -, -, -, -⟩ | ⟨dotted, -⟩)
    · exact ⟨_, _, rfl, by rw [opened]; rfl⟩
    · exact ⟨_, _, rfl, by rw [dotted]; rfl⟩

/-- Only an opening parenthesis and a dot go on with a call. -/
theorem joins_eq_call {kind : Kind} :
    kind.joins = some .call ↔ kind = .mark .leftParen ∨ kind = .mark .dot := by
  constructor
  · intro joins
    unfold Kind.joins at joins
    split at joins
    case h_14 => exact .inl rfl
    case h_15 => exact .inr rfl
    all_goals cases joins
  · rintro (rfl | rfl) <;> rfl

/-- A call ends where neither an opening parenthesis nor a dot follows. -/
theorem not_joins_call_iff :
    (∀ token ∈ tokens.head?, token.kind.joins ≠ some .call) ↔
      ¬ Begins (.mark .leftParen) tokens ∧ ¬ Begins (.mark .dot) tokens := by
  simp only [Begins, Ne, joins_eq_call]
  grind

/-- A step after a primary expression adds arguments or a property. -/
theorem call_links (reads : ReadsNested rules bound) :
    Links CallLink .call (callLink rules) (bound + 1) := by
  constructor
  · intro path tokens rest left next short
    unfold callLink
    rw [takes_ifMark, takes_ifMark]
    constructor
    · rintro (⟨begins, taken⟩ | ⟨-, ⟨begins, taken⟩ | ⟨-, taken⟩⟩)
      · obtain ⟨opening, more, rfl, opened⟩ := begins.exists_cons
        rw [takes_skip_bind, takes_bind] at taken
        obtain ⟨values, middle, listed, taken⟩ := taken
        rw [takes_arguments reads (by simpa using short)] at listed
        obtain ⟨entries, inner, rfl, rfl, all, listed, limited, -⟩ := listed
        simp only [takes_bind, takes_closing, takes_pure] at taken
        obtain ⟨span, _, ⟨closing, closed, rfl, rfl⟩, same, rfl⟩ := taken
        cases same
        exact ⟨_, _, by simp, .arguments opened all listed limited closed, rfl,
          Level.stops_primary _⟩
      · obtain ⟨dot, more, rfl, dotted⟩ := begins.exists_cons
        simp only [takes_skip_bind, takes_identifier_bind, takes_pure] at taken
        obtain ⟨token, _, property, rfl, named, same, rfl⟩ := taken
        cases same
        exact ⟨[dot, token], _, rfl, .property dotted named, rfl, Level.stops_primary _⟩
      · cases (takes_pure.mp taken).1
    · rintro ⟨_, _, rfl, link, rfl, -⟩
      cases link with
      | @arguments opening closing inner entries opened all listed limited closed =>
        simp only [List.cons_append, List.append_assoc, List.length_cons] at short
        refine .inl ⟨by simpa using opened, ?_⟩
        rw [List.cons_append, List.append_assoc, takes_skip_bind, takes_bind]
        refine ⟨entries.map Prod.snd, [closing] ++ rest, ?_, ?_⟩
        · rw [takes_arguments reads (by simpa using short)]
          exact ⟨entries, inner, rfl, rfl, all, listed, limited, by simpa using closed⟩
        · refine takes_bind.mpr ⟨closing.span, rest, ?_, takes_pure.mpr ⟨rfl, rfl⟩⟩
          exact takes_closing.mpr ⟨closing, closed, rfl, rfl⟩
      | @property dot token name dotted named =>
        refine .inr ⟨by simp [dotted], .inl ⟨by simpa using dotted, ?_⟩⟩
        rw [List.cons_append, takes_skip_bind]
        exact takes_identifier_bind.mpr ⟨token, rest, name, rfl, named, takes_pure.mpr ⟨rfl, rfl⟩⟩
  · intro path tokens rest left value short
    unfold callLink
    rw [takes_ifMark, takes_ifMark, not_joins_call_iff]
    constructor
    · rintro (⟨begins, taken⟩ | ⟨closed, ⟨begins, taken⟩ | ⟨dotless, taken⟩⟩)
      · obtain ⟨opening, more, rfl, -⟩ := begins.exists_cons
        rw [takes_skip_bind] at taken
        simp only [takes_bind, takes_pure] at taken
        obtain ⟨_, _, _, _, _, _, same, _⟩ := taken
        cases same
      · obtain ⟨dot, more, rfl, -⟩ := begins.exists_cons
        simp only [takes_skip_bind, takes_identifier_bind, takes_pure] at taken
        obtain ⟨_, _, _, _, _, same, _⟩ := taken
        cases same
      · obtain ⟨same, rfl⟩ := takes_pure.mp taken
        exact ⟨Sum.inr.inj same, rfl, closed, dotless⟩
    · rintro ⟨rfl, rfl, closed, dotless⟩
      exact .inr ⟨closed, .inr ⟨dotless, takes_pure.mpr ⟨rfl, rfl⟩⟩⟩

/-- Calls are read. -/
theorem call_reads (reads : ReadsNested rules bound) : Reads (call rules) .call (bound + 1) := by
  have inner := call_chains.reads (call_links reads) (primary_reads reads) reads.enough
  intro path tokens rest value short
  unfold call
  rw [takes_inside]
  exact inner _ tokens rest value short

/-! ## Unary operators -/

/-- The unary operators are told by their marks. -/
theorem unaryOperator?_eq_some {kind : Kind} {found : UnaryOperator} :
    unaryOperator? kind = some found ↔ kind = .mark found.mark := by
  constructor
  · intro known
    unfold unaryOperator? at known
    split at known <;> cases known <;> rfl
  · rintro rfl
    cases found <;> rfl

/-- A unary expression ends where a call does. -/
theorem stops_unary : Level.unary.Stops rest ↔ Level.call.Stops rest := by
  rw [Level.stops_iff (by decide)]
  refine and_iff_left fun token _ joins => ?_
  unfold Kind.joins at joins
  split at joins <;> cases joins

/-- Unary operators with their operands are read. -/
theorem unary_reads (reads : ReadsNested rules bound) :
    Reads (unary rules) .unary (bound + 1) := by
  intro path tokens rest value short
  unfold unary
  rw [takes_inside, takes_bind]
  simp only [takes_operator, unaryOperator?_eq_some]
  constructor
  · rintro ⟨_, _, ⟨token, found, written, rfl, rfl⟩ | ⟨none, rfl, rfl⟩, taken⟩
    · dsimp only at taken
      rw [reads.unary.takes_bind (by simpa using short)] at taken
      obtain ⟨used, _, operand, rfl, derived, stops, taken⟩ := taken
      obtain ⟨rfl, rfl⟩ := takes_pure.mp taken
      exact ⟨token :: used, rfl, .unary written derived, stops⟩
    · obtain ⟨used, same, derived, stops⟩ := (call_reads reads _ _ _ _ short).mp taken
      exact ⟨used, same, .tighter (by decide) derived, stops_unary.mpr stops⟩
  · rintro ⟨used, rfl, derived, stops⟩
    cases derived with
    | @unary token used operator operand written derived =>
      refine ⟨some (operator, token.span), used ++ rest,
        .inl ⟨token, operator, written, rfl, rfl⟩, ?_⟩
      dsimp only
      rw [reads.unary.takes_bind (by simpa using short)]
      exact ⟨used, rest, operand, rfl, derived, stops, takes_pure.mpr ⟨rfl, rfl⟩⟩
    | tighter _ derived =>
      refine ⟨none, used ++ rest, .inr ⟨?_, rfl, rfl⟩, ?_⟩
      · intro token first
        rw [Option.eq_none_iff_forall_ne_some]
        intro found known
        have other : (Kind.mark found.mark).starts .call = false := by cases found <;> rfl
        exact not_begins_of_derives derived other
          ⟨token, first, unaryOperator?_eq_some.mp known⟩
      · exact (call_reads reads _ _ _ _ short).mpr ⟨used, rfl, derived, stops_unary.mp stops⟩
    | @binary _ _ _ _ operator _ _ own => cases operator <;> cases own
    | @logical _ _ _ _ operator _ _ own => cases operator <;> cases own

/-! ## The levels of operators -/

/-- The operators of the level are told by their marks. -/
theorem factorOperator?_eq_some {kind : Kind} {found : BinaryOperator} :
    factorOperator? kind = some found ↔ kind = .mark found.mark ∧ found.level = .factor := by
  constructor
  · intro known
    unfold factorOperator? at known
    split at known <;> cases known <;> exact ⟨rfl, rfl⟩
  · rintro ⟨rfl, own⟩
    cases found <;> first | rfl | cases own

/-- Products are read. -/
theorem factor_reads (reads : ReadsNested rules bound) :
    Reads (factor rules) .factor (bound + 1) := by
  have chained := @binary_reads BinaryOperator.multiply _ (fun _ _ => factorOperator?_eq_some) _ _ _
    (unary_reads reads) reads.enough
  intro path tokens rest value short
  exact chained _ tokens rest value short

/-- The operators of the level are told by their marks. -/
theorem termOperator?_eq_some {kind : Kind} {found : BinaryOperator} :
    termOperator? kind = some found ↔ kind = .mark found.mark ∧ found.level = .term := by
  constructor
  · intro known
    unfold termOperator? at known
    split at known <;> cases known <;> exact ⟨rfl, rfl⟩
  · rintro ⟨rfl, own⟩
    cases found <;> first | rfl | cases own

/-- Sums are read. -/
theorem term_reads (reads : ReadsNested rules bound) :
    Reads (term rules) .term (bound + 1) := by
  have chained := @binary_reads BinaryOperator.add _ (fun _ _ => termOperator?_eq_some) _ _ _
    (factor_reads reads) reads.enough
  intro path tokens rest value short
  exact chained _ tokens rest value short

/-- The operators of the level are told by their marks. -/
theorem comparisonOperator?_eq_some {kind : Kind} {found : BinaryOperator} :
    comparisonOperator? kind = some found ↔
      kind = .mark found.mark ∧ found.level = .comparison := by
  constructor
  · intro known
    unfold comparisonOperator? at known
    split at known <;> cases known <;> exact ⟨rfl, rfl⟩
  · rintro ⟨rfl, own⟩
    cases found <;> first | rfl | cases own

/-- Comparisons are read. -/
theorem comparison_reads (reads : ReadsNested rules bound) :
    Reads (comparison rules) .comparison (bound + 1) := by
  have chained := @binary_reads BinaryOperator.less _ (fun _ _ => comparisonOperator?_eq_some) _ _ _
    (term_reads reads) reads.enough
  intro path tokens rest value short
  exact chained _ tokens rest value short

/-- The operators of the level are told by their marks. -/
theorem equalityOperator?_eq_some {kind : Kind} {found : BinaryOperator} :
    equalityOperator? kind = some found ↔ kind = .mark found.mark ∧ found.level = .equality := by
  constructor
  · intro known
    unfold equalityOperator? at known
    split at known <;> cases known <;> exact ⟨rfl, rfl⟩
  · rintro ⟨rfl, own⟩
    cases found <;> first | rfl | cases own

/-- Equalities are read. -/
theorem equality_reads (reads : ReadsNested rules bound) :
    Reads (equality rules) .equality (bound + 1) := by
  have chained := @binary_reads BinaryOperator.equal _ (fun _ _ => equalityOperator?_eq_some) _ _ _
    (comparison_reads reads) reads.enough
  intro path tokens rest value short
  exact chained _ tokens rest value short

/-- The keyword of the level is the only operator of it. -/
theorem andOperator?_eq_some {kind : Kind} {found : LogicalOperator} :
    andOperator? kind = some found ↔ kind = .keyword found.keyword ∧ found = .and := by
  constructor
  · intro known
    unfold andOperator? at known
    split at known <;> cases known
    exact ⟨rfl, rfl⟩
  · rintro ⟨rfl, rfl⟩
    rfl

/-- Operands of `and` are read. -/
theorem logicalAnd_reads (reads : ReadsNested rules bound) :
    Reads (logicalAnd rules) .logicalAnd (bound + 1) := by
  have chained := @logical_reads LogicalOperator.and _ (fun _ _ => andOperator?_eq_some) _ _ _
    (equality_reads reads) reads.enough
  intro path tokens rest value short
  exact chained _ tokens rest value short

/-- The keyword of the level is the only operator of it. -/
theorem orOperator?_eq_some {kind : Kind} {found : LogicalOperator} :
    orOperator? kind = some found ↔ kind = .keyword found.keyword ∧ found = .or := by
  constructor
  · intro known
    unfold orOperator? at known
    split at known <;> cases known
    exact ⟨rfl, rfl⟩
  · rintro ⟨rfl, rfl⟩
    rfl

/-- Operands of `or` are read. -/
theorem logicalOr_reads (reads : ReadsNested rules bound) :
    Reads (logicalOr rules) .logicalOr (bound + 1) := by
  have chained := @logical_reads LogicalOperator.or _ (fun _ _ => orOperator?_eq_some) _ _ _
    (logicalAnd_reads reads) reads.enough
  intro path tokens rest value short
  exact chained _ tokens rest value short

/-! ## Assignments -/

/-- A value is given to a variable or to a property, and to nothing else. -/
theorem takes_assignTo {target value result : RawExpr} {place : List Token} :
    (assignTo target place value).Takes path tokens result rest ↔
      tokens = rest ∧ ((∃ reference, target = .read reference ∧ result = .assign reference value) ∨
        ∃ object property, target = .get object property ∧
          result = .set object property value) := by
  unfold assignTo
  split
  case h_1 reference =>
    obtain ⟨target, ⟨⟩⟩ := reference
    rw [draw_bind, takes_pure]
    grind
  case h_2 object property =>
    rw [takes_pure]
    grind
  case h_3 noRead noGet =>
    simp only [takes_bind, takes_reportAt, false_and, exists_false, false_iff]
    rintro ⟨-, ⟨reference, rfl, -⟩ | ⟨object, property, rfl, -⟩⟩
    · exact noRead _ rfl
    · exact noGet _ _ rfl

/-- Only an equals sign goes on with an assignment. -/
theorem joins_eq_assignment {kind : Kind} :
    kind.joins = some .assignment ↔ kind = .mark .equal := by
  constructor
  · intro joins
    unfold Kind.joins at joins
    split at joins
    case h_1 => rfl
    all_goals cases joins
  · rintro rfl
    rfl

/-- Assignments are read. -/
theorem assignment_reads (reads : ReadsNested rules bound) :
    Reads (assignment rules) .assignment (bound + 1) := by
  intro path tokens rest value short
  unfold assignment
  rw [takes_inside, (logicalOr_reads reads).takes_bind short]
  simp only [takes_remaining_bind, takes_ifMark, takes_pure]
  constructor
  · rintro ⟨used, more, target, rfl, derived, stops, ⟨begins, taken⟩ | ⟨other, rfl, rfl⟩⟩
    · obtain ⟨equals, more, rfl, written⟩ := begins.exists_cons
      simp only [List.length_append, List.length_cons] at short
      rw [takes_skip_bind, reads.assignment.takes_bind (by omega)] at taken
      obtain ⟨used', _, value, rfl, given, ended, taken⟩ := taken
      obtain ⟨rfl, ⟨⟨target, _⟩, rfl, rfl⟩ | ⟨object, property, rfl, rfl⟩⟩ :=
        takes_assignTo.mp taken
      · obtain ⟨token, named, rfl⟩ := derived.of_read
        exact ⟨token :: equals :: used', rfl, .assign named written given, ended⟩
      · obtain ⟨before, dot, name, owner, dotted, named, rfl⟩ := derived.of_get
        exact ⟨before ++ dot :: name :: equals :: used', by simp,
          .set owner dotted named written given, ended⟩
    · refine ⟨used, rfl, .tighter (by decide) derived,
        (Level.stops_iff (by decide)).mpr ⟨stops, ?_⟩⟩
      intro token first joins
      exact other ⟨token, first, joins_eq_assignment.mp joins⟩
  · rintro ⟨used, rfl, derived, ended⟩
    cases derived with
    | @assign token equals more name value named written given =>
      simp only [List.cons_append, List.length_cons] at short
      refine ⟨[token], equals :: (more ++ rest), _, by simp,
        (DerivesExpr.read named).loosen (by decide),
        Level.stops_cons (by rw [written]; rfl) (by decide),
        .inl ⟨by simpa using written, ?_⟩⟩
      rw [takes_skip_bind, reads.assignment.takes_bind (by omega)]
      exact ⟨more, rest, value, rfl, given, ended, takes_assignTo.mpr ⟨rfl, .inl ⟨_, rfl, rfl⟩⟩⟩
    | @set before more dot name equals object value property owner dotted named written given =>
      simp only [List.append_assoc, List.cons_append, List.length_append, List.length_cons] at short
      refine ⟨before ++ [dot, name], equals :: (more ++ rest), _, by simp,
        (DerivesExpr.get owner dotted named).loosen (by decide),
        Level.stops_cons (by rw [written]; rfl) (by decide), .inl ⟨by simpa using written, ?_⟩⟩
      rw [takes_skip_bind, reads.assignment.takes_bind (by simp only [List.length_append]; omega)]
      exact ⟨more, rest, value, rfl, given, ended, takes_assignTo.mpr ⟨rfl, .inr ⟨_, _, rfl, rfl⟩⟩⟩
    | tighter _ derived =>
      obtain ⟨stops, others⟩ := (Level.stops_iff (by decide)).mp ended
      refine ⟨used, rest, value, rfl, derived, stops, .inr ⟨?_, rfl, rfl⟩⟩
      rintro ⟨token, first, written⟩
      exact others token first (joins_eq_assignment.mpr written)
    | @binary _ _ _ _ operator _ _ own => cases operator <;> cases own
    | @logical _ _ _ _ operator _ _ own => cases operator <;> cases own

/-- Expressions are read. -/
theorem expression_reads (reads : ReadsNested rules bound) :
    Reads (expression rules) .assignment (bound + 1) := by
  intro path tokens rest value short
  exact assignment_reads reads _ tokens rest value short

end

end Grammar

end KoreanLox
