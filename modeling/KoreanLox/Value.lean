import KoreanLox.Tree.Basic

/-!
# Values

Numbers, strings, booleans and nil are values by themselves. Arrays, functions, classes and
instances live in a store, and a value refers to them; two such values are equal only if they
refer to the same object. Native functions are told apart by what they do.
-/

namespace KoreanLox

/-- The kinds of objects in a store. -/
inductive ObjectKind where
  | frame
  | array
  | function
  | classObject
  | instanceObject
  deriving DecidableEq, Repr

/-- A reference to an object of one kind. -/
structure Ref (kind : ObjectKind) where
  /-- The place of the object among those of its kind. -/
  index : Nat
  deriving DecidableEq, Repr

/-- A reference to a frame of bindings. -/
abbrev FrameRef : Type := Ref .frame

/-- A reference to an array. -/
abbrev ArrayRef : Type := Ref .array

/-- A reference to a function. -/
abbrev FunctionRef : Type := Ref .function

/-- A reference to a class. -/
abbrev ClassRef : Type := Ref .classObject

/-- A reference to an instance. -/
abbrev InstanceRef : Type := Ref .instanceObject

/-- The native functions. -/
inductive Native where
  | clock
  | readInput
  | split
  | length
  | substring
  | contains
  | parseInt
  | array
  | arraySize
  | arrayPush
  | arrayGet
  | arraySet
  deriving DecidableEq, Repr

namespace Native

/-- All native functions. -/
def all : List Native :=
  [.clock, .readInput, .split, .length, .substring, .contains, .parseInt, .array, .arraySize,
    .arrayPush, .arrayGet, .arraySet]

/-- The English name, which is also how a native function is shown. -/
def name : Native → String
  | .clock => "clock"
  | .readInput => "read_input"
  | .split => "split"
  | .length => "length"
  | .substring => "substring"
  | .contains => "contains"
  | .parseInt => "parse_int"
  | .array => "array"
  | .arraySize => "array_size"
  | .arrayPush => "array_push"
  | .arrayGet => "array_get"
  | .arraySet => "array_set"

/-- The Korean name. -/
def koreanName : Native → String
  | .clock => "시간"
  | .readInput => "읽기"
  | .split => "분리"
  | .length => "길이"
  | .substring => "부분문자열"
  | .contains => "포함"
  | .parseInt => "정수파싱"
  | .array => "배열"
  | .arraySize => "배열크기"
  | .arrayPush => "배열추가"
  | .arrayGet => "배열읽기"
  | .arraySet => "배열쓰기"

/-- The number of arguments. -/
def arity : Native → Nat
  | .clock | .readInput | .array => 0
  | .length | .parseInt | .arraySize => 1
  | .split | .contains | .arrayPush | .arrayGet => 2
  | .substring | .arraySet => 3

end Native

/-- A value. -/
inductive Value where
  | nil
  | boolean (value : Bool)
  | number (value : Float)
  | string (text : String)
  | array (ref : ArrayRef)
  | function (ref : FunctionRef)
  | native (function : Native)
  | classObject (ref : ClassRef)
  | instanceObject (ref : InstanceRef)

namespace Value

/-- The value of a constant. -/
def ofLiteral : Literal → Value
  | .nil => .nil
  | .boolean value => .boolean value
  | .number value => .number value
  | .string text => .string text

/-- Everything but nil and false counts as true. -/
def isTruthy : Value → Bool
  | .nil => false
  | .boolean value => value
  | _ => true

/-- Equality of numbers, in which an undefined number equals itself. -/
def sameNumber (first second : Float) : Bool :=
  first == second || (first.isNaN && second.isNaN)

/-- Equality of values: of primitive ones by what they are, of others by the object. -/
def same : Value → Value → Bool
  | .nil, .nil => true
  | .boolean first, .boolean second => first == second
  | .number first, .number second => sameNumber first second
  | .string first, .string second => first == second
  | .array first, .array second => first == second
  | .function first, .function second => first == second
  | .native first, .native second => first == second
  | .classObject first, .classObject second => first == second
  | .instanceObject first, .instanceObject second => first == second
  | _, _ => false

end Value

end KoreanLox
