import KoreanLox.Grammar.Statement

/-!
# Reading without labels

Tokens alone supply no labels. A reader of tokens alone goes from tokens to tokens, and drawing a
label does nothing to them (`Parse.draw_bind`).
-/

namespace KoreanLox

/-- A reader of tokens alone. -/
abbrev RawParse (α : Type) : Type := Parse (List Token) α

/-- What reading of tokens alone came to. -/
abbrev RawStep (α : Type) : Type := Step (List Token) α

/-- The readers of what is nested in a construct, without labels. -/
abbrev RawRules : Type := Rules (List Token) Unit

/-- An expression that is read without labels. -/
abbrev RawExpr : Type := Expr Unit

/-- A statement that is read without labels. -/
abbrev RawStmt : Type := Stmt Unit

namespace Supply

/-- The tokens left of some tokens are those. -/
@[simp]
theorem tokens_list (tokens : List Token) : Supply.tokens tokens = tokens := rfl

/-- What is left instead of some tokens are the other ones. -/
@[simp]
theorem leave_list (tokens rest : List Token) : Supply.leave tokens rest = rest := rfl

end Supply

namespace Parse

variable {α : Type}

/-- Without labels, drawing one is no matter. -/
@[simp]
theorem draw_bind (next : Unit → RawParse α) : (draw >>= next) = next () := rfl

/-- Without labels, a node is given the only one there is. -/
@[simp]
theorem map_draw (next : Unit → α) : next <$> (draw : RawParse Unit) = pure (next ()) := rfl

/-- The last ones of some tokens are found by their number. -/
theorem lastOnes_of_suffix {rest tokens : List Token} (left : rest <:+ tokens) :
    lastOnes rest.length tokens = rest := (List.suffix_iff_eq_drop.mp left).symm

end Parse

end KoreanLox
