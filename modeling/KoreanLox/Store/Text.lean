import KoreanLox.Number.Text
import KoreanLox.Store.Array
import KoreanLox.Store.Object
import KoreanLox.Text.Quoted

/-!
# The text of a value

An array is written with all its elements, however they contain each other: an array inside
itself is written as `[...]`, and every other occurrence in full. The arrays being written form a
path, on which no array stands twice.
-/

namespace KoreanLox.Store

/-- The text of a value inside the arrays of a path, written down to a depth. -/
def textWithin (store : Store) : Nat → List ArrayRef → Value → String
  | _, _, .nil => "nil"
  | _, _, .boolean value => toString value
  | _, _, .number value => Number.printed value
  | _, _, .string text => text
  | _, _, .function ref => "<fn " ++ store.functionName ref ++ ">"
  | _, _, .native function => "<native fn " ++ function.name ++ ">"
  | _, _, .classObject ref => store.className ref
  | _, _, .instanceObject ref => store.instanceClassName ref ++ " instance"
  | 0, _, .array _ => "[...]"
  | depth + 1, path, .array ref =>
    if path.contains ref then "[...]"
    else
      "[" ++ ", ".intercalate ((store.elements ref).toList.map
        (store.textWithin depth (ref :: path))) ++ "]"

/-- The text of a value. A path holds each array once, so one level for every array is enough,
and one more for what the last of them holds. -/
def text (store : Store) (value : Value) : String :=
  store.textWithin (store.arrays.size + 1) [] value

/-- The description of an outermost frame: its names in order. -/
def description (store : Store) (ref : FrameRef) : String :=
  let names := ((store.frame? ref).map fun frame => frame.names.keys).getD []
  "Environment \x7b names: [" ++ ", ".intercalate (names.map Text.quoted) ++
    "], enclosing: None \x7d"

end KoreanLox.Store
