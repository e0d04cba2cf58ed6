import KoreanLox.Number.Text
import KoreanLox.Tree.Basic

/-!
# The text of a tree

A tree is written with every node in parentheses, its operator or keyword first, and with a
newline after every statement of the program. Strings stand between quotes as they are.
-/

namespace KoreanLox

/-- The text of a constant. -/
def Literal.text : Literal → String
  | .nil => "nil"
  | .boolean value => toString value
  | .number value => Number.plain value
  | .string text => "\"" ++ text ++ "\""

/-- The sign of an operator. -/
def UnaryOperator.text : UnaryOperator → String
  | .negate => "-"
  | .not => "!"

/-- The sign of an operator. -/
def BinaryOperator.text : BinaryOperator → String
  | .equal => "=="
  | .notEqual => "!="
  | .less => "<"
  | .lessEqual => "<="
  | .greater => ">"
  | .greaterEqual => ">="
  | .add => "+"
  | .subtract => "-"
  | .multiply => "*"
  | .divide => "/"

/-- The word of an operator. -/
def LogicalOperator.text : LogicalOperator → String
  | .and => "and"
  | .or => "or"

section

variable {ι : Type}

mutual

/-- The text of an expression. -/
def Expr.text : Expr ι → String
  | .literal value => value.text
  | .grouping inner => "(group " ++ inner.text ++ ")"
  | .unary operator _ operand => "(" ++ operator.text ++ " " ++ operand.text ++ ")"
  | .binary operator _ left right =>
    "(" ++ operator.text ++ " " ++ left.text ++ " " ++ right.text ++ ")"
  | .logical operator left right =>
    "(" ++ operator.text ++ " " ++ left.text ++ " " ++ right.text ++ ")"
  | .read reference => reference.target.name
  | .assign reference value => "(= " ++ reference.target.name ++ " " ++ value.text ++ ")"
  | .call callee arguments _ => "(call " ++ callee.text ++ Expr.textAll arguments ++ ")"
  | .get object property => "(. " ++ object.text ++ " " ++ property.name ++ ")"
  | .set object property value =>
    "(= (. " ++ object.text ++ " " ++ property.name ++ ") " ++ value.text ++ ")"
  | .receiver _ _ => "this"
  | .inherited _ method _ => "(super " ++ method.name ++ ")"

/-- The texts of some expressions, a space before each. -/
def Expr.textAll : List (Expr ι) → String
  | [] => ""
  | first :: rest => " " ++ first.text ++ Expr.textAll rest

end

mutual

/-- The text of a statement. -/
def Stmt.text : Stmt ι → String
  | .expression value => "(; " ++ value.text ++ ")"
  | .print value => "(print " ++ value.text ++ ")"
  | .declare name none => "(var " ++ name.name ++ ")"
  | .declare name (some initial) => "(var " ++ name.name ++ " = " ++ initial.text ++ ")"
  | .block body => "(block" ++ Stmt.textAll body ++ ")"
  | .choose condition thenBranch none =>
    "(if " ++ condition.text ++ " " ++ thenBranch.text ++ ")"
  | .choose condition thenBranch (some elseBranch) =>
    "(if " ++ condition.text ++ " " ++ thenBranch.text ++ " " ++ elseBranch.text ++ ")"
  | .loop condition body => "(while " ++ condition.text ++ " " ++ body.text ++ ")"
  | .function declaration => "(fun " ++ Stmt.functionText declaration ++ ")"
  | .finish _ none => "(return)"
  | .finish _ (some value) => "(return " ++ value.text ++ ")"
  | .classDeclaration name none methods => "(class " ++ name.name ++ Stmt.methodsText methods ++ ")"
  | .classDeclaration name (some parent) methods =>
    "(class " ++ name.name ++ " < " ++ parent.target.name ++ Stmt.methodsText methods ++ ")"

/-- The texts of some statements, a space before each. -/
def Stmt.textAll : List (Stmt ι) → String
  | [] => ""
  | first :: rest => " " ++ first.text ++ Stmt.textAll rest

/-- The text of a function: its name, its parameters and its body. -/
def Stmt.functionText : FunctionOver (Stmt ι) → String
  | ⟨name, parameters, body⟩ =>
    name.name ++ "(" ++ " ".intercalate (parameters.map Identifier.name) ++ ") (block" ++
      Stmt.textAll body ++ ")"

/-- The texts of some methods, a space before each. -/
def Stmt.methodsText : List (FunctionOver (Stmt ι)) → String
  | [] => ""
  | first :: rest => " " ++ Stmt.functionText first ++ Stmt.methodsText rest

end

/-- The text of a program, a statement to a line. -/
def Program.text (program : Program ι) : String :=
  String.join (program.map fun statement => statement.text ++ "\n")

end

end KoreanLox
