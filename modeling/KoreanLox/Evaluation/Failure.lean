import KoreanLox.Console
import KoreanLox.Store.Text
import KoreanLox.Text.Integer
import KoreanLox.Tree.Printer

/-!
# Failures of a running program

A failure has a cause and usually a place. The wording of a cause shows the values it is about,
and so depends on the store.
-/

namespace KoreanLox

/-- What a native function wanted of an argument. -/
inductive Expectation where
  | string
  | number
  | array
  deriving DecidableEq, Repr

/-- The wording of an expectation. -/
def Expectation.text : Expectation → String
  | .string => "a string"
  | .number => "a number"
  | .array => "an array"

/-- What is wrong with the arguments of a native function. -/
inductive NativeProblem where
  /-- An argument is of the wrong type. -/
  | unexpected (wanted : Expectation) (found : Value)
  /-- A range does not lie in a text of some length; its ends have no fraction. -/
  | outOfBounds (start finish : Float) (length : Nat)
  /-- A text is no integer. -/
  | notAnInteger (text : String) (error : Text.IntegerError)
  /-- The clock stands before the beginning of the epoch. -/
  | beforeEpoch

/-- Why a program fails. -/
inductive RuntimeCause where
  /-- The console fails. -/
  | console (error : ConsoleError)
  /-- An operator is not defined on its operands. -/
  | operands (operator : BinaryOperator) (left right : Value)
  /-- A value cannot be negated. -/
  | operand (value : Value)
  /-- A variable has no value. -/
  | undefinedVariable (name : String)
  /-- An instance has neither a field nor a method of a name. -/
  | undefinedProperty (name : String)
  /-- A value cannot be called. -/
  | notCallable (value : Value)
  /-- A call has the wrong number of arguments. -/
  | arity (callee : String) (expected found : Nat)
  /-- A value has no properties to read. -/
  | getOnNonInstance (value : Value)
  /-- A value has no fields to set. -/
  | setOnNonInstance (value : Value)
  /-- A class extends a value that is no class. -/
  | notAClass (value : Value)
  /-- An index stands for no element. -/
  | indexOutOfRange (index : Float) (length : Nat)
  /-- A native function refuses its arguments. -/
  | native (function : Native) (problem : NativeProblem)
  /-- Too many calls are in progress. -/
  | stackOverflow

/-- The wording of a problem. -/
def NativeProblem.message (store : Store) : NativeProblem → String
  | .unexpected wanted found => "expected " ++ wanted.text ++ " but got " ++ store.text found
  | .outOfBounds start finish length =>
    "range " ++ Number.plain start ++ ".." ++ Number.plain finish ++
      " is out of bounds for length " ++ toString length
  | .notAnInteger text error => "cannot parse '" ++ text ++ "': " ++ error.message
  | .beforeEpoch => "second time provided was later than self"

/-- What an operator wants of its operands. -/
def BinaryOperator.requirement : BinaryOperator → String
  | .add => "Operands must be two numbers or two strings: "
  | _ => "Operands must be numbers: "

/-- The wording of a cause. -/
def RuntimeCause.message (store : Store) : RuntimeCause → String
  | .console error => "IO error: " ++ error.message
  | .operands operator left right =>
    operator.requirement ++ store.text left ++ " " ++ operator.text ++ " " ++ store.text right
  | .operand value => "Operand must be a number: -" ++ store.text value
  | .undefinedVariable name => "Undefined variable '" ++ name ++ "'."
  | .undefinedProperty name => "Undefined property '" ++ name ++ "'."
  | .notCallable value => "Can only call functions and classes, not " ++ store.text value ++ "."
  | .arity callee expected found =>
    callee ++ " expected " ++ toString expected ++ " arguments but got " ++ toString found ++ "."
  | .getOnNonInstance value => "Only instances have properties, not " ++ store.text value ++ "."
  | .setOnNonInstance value => "Only instances have fields, not " ++ store.text value ++ "."
  | .notAClass value => "Superclass must be a class, not " ++ store.text value ++ "."
  | .indexOutOfRange index length =>
    "Array index " ++ Number.plain index ++ " is out of range for size " ++ toString length ++ "."
  | .native function problem => function.name ++ "(): " ++ problem.message store
  | .stackOverflow => "Stack overflow."

/-- A failure: why, and where if that is known. -/
structure RuntimeError where
  /-- Why the program fails. -/
  cause : RuntimeCause
  /-- Where it fails. -/
  span : Option Span

/-- The report of a failure: its cause, and its line if that is known. -/
def RuntimeError.message (store : Store) (error : RuntimeError) : String :=
  match error.span with
  | none => error.cause.message store
  | some span => error.cause.message store ++ "\n[line " ++ toString span.line ++ "]"

end KoreanLox
