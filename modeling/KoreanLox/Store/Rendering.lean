import KoreanLox.Store.Text

/-!
# Rendering a value

A value is rendered piece by piece, and a piece that cannot be written ends the rendering. The
arrays being rendered stand on a stack that outlives every rendering: an array is put on it before
its first bracket is written, and the topmost array is taken off it after the elements, however
their rendering ended. An array that already stands on the stack is written as `[...]`.
-/

namespace KoreanLox

/-- The arrays being rendered, the innermost one first, and what the pieces are written to. -/
structure Rendering (σ : Type) where
  /-- The stack of arrays. -/
  active : List ArrayRef
  /-- What the pieces are written to. -/
  sink : σ

/-- A part of a rendering. It is done or fails; it has no result if its bound is used up. -/
def Render (ε σ : Type) : Type := Rendering σ → Option (Except ε Unit × Rendering σ)

namespace Render

variable {ε σ : Type}

/-- Writes nothing. -/
def nothing : Render ε σ := fun rendering => some (.ok (), rendering)

/-- One part, and then another unless the first one failed. -/
def andThen (first next : Render ε σ) : Render ε σ := fun rendering =>
  match first rendering with
  | some (.ok (), rendering) => next rendering
  | stopped => stopped

/-- Renders with an array on the stack, and takes the topmost one off however that ends. -/
def within (ref : ArrayRef) (inner : Render ε σ) : Render ε σ := fun rendering =>
  match inner { rendering with active := ref :: rendering.active } with
  | none => none
  | some (result, rendering) => some (result, { rendering with active := rendering.active.tail })

/-- Goes one way for an array on the stack, and another way for every other one. -/
def ifActive (ref : ArrayRef) (again fresh : Render ε σ) : Render ε σ := fun rendering =>
  if rendering.active.contains ref then again rendering else fresh rendering

section

variable (write : String → σ → Except ε Unit × σ)

/-- Writes a piece. -/
def piece (text : String) : Render ε σ := fun rendering =>
  let (result, sink) := write text rendering.sink
  some (result, { rendering with sink })

/-- Writes pieces in order. -/
def pieces : List String → Render ε σ
  | [] => nothing
  | text :: rest => (piece write text).andThen (pieces rest)

/-- Renders values in order, the first one at a position, with a comma before each one that is not
at the first position. -/
def separated (inner : Value → Render ε σ) : Nat → List Value → Render ε σ
  | _, [] => nothing
  | position, value :: rest =>
    (if position ≠ 0 then piece write ", " else nothing).andThen
      ((inner value).andThen (separated inner (position + 1) rest))

end

end Render

namespace Store

variable {ε σ : Type}

/-- The pieces of a value that is no array. -/
def leafPieces (store : Store) : Value → List String
  | .function ref => ["<fn ", store.functionName ref, ">"]
  | .native function => ["<native fn ", function.name, ">"]
  | .instanceObject ref => [store.instanceClassName ref, " instance"]
  | value => [store.text value]

/-- Renders a value, within a bound on how deep arrays contain each other. -/
def render (store : Store) (write : String → σ → Except ε Unit × σ) : Nat → Value → Render ε σ
  | 0, _ => fun _ => none
  | bound + 1, .array ref =>
    .ifActive ref (.piece write "[...]")
      (.within ref ((Render.piece write "[").andThen
        ((Render.separated write (store.render write bound) 0 (store.elements ref).toList).andThen
          (.piece write "]"))))
  | _ + 1, value => .pieces write (store.leafPieces value)

end Store

end KoreanLox
