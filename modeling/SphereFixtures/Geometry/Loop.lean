import SphereFixtures.Geometry.Vector

/-!
# Loops

A closed polygonal line on the sphere.  The last vertex is joined to the first
one, so the sequence of vertices does not repeat its first point.
-/

namespace SphereFixtures

/-!
## Nested rows of numbers
-/

/-- A number, or a row whose entries all have one shape. -/
inductive Grid (α : Type) where
  | number (value : α)
  | row (entries : List (Grid α))

namespace Grid

variable {α : Type}

/-- The lengths of the rows from the outside in, read along the first
entries. -/
def shape : Grid α -> List Nat
  | .number _ => []
  | .row [] => [0]
  | .row (first :: rest) => (rest.length + 1) :: first.shape

def number? : Grid α -> Option α
  | .number value => some value
  | .row _ => none

/-- The point whose coordinates are the entries of a row of three numbers. -/
def point? : Grid α -> Option (Vec3 α)
  | .row [x, y, z] => do
      return { x := ← x.number?, y := ← y.number?, z := ← z.number? }
  | _ => none

def entries : Grid α -> List (Grid α)
  | .number _ => []
  | .row entries => entries

end Grid

/-- A shape as a bracketed list; a single length keeps its comma. -/
def shapeText : List Nat -> String
  | [] => "()"
  | [n] => s!"({n},)"
  | n :: rest => "(" ++ ", ".intercalate ((n :: rest).map toString) ++ ")"

/-!
## Loops of at least three vertices
-/

/-- Rows are nested at most this deep. -/
def maxNesting : Nat := 64

inductive LoopError where
  | tooDeep
  | shape (found : List Nat)
  | tooFewVertices (found : Nat)
deriving DecidableEq, Repr

namespace LoopError

def message : LoopError -> String
  | .tooDeep => "setting an array element with a sequence. The requested array "
      ++ s!"would exceed the maximum number of dimension of {maxNesting}."
  | .shape found => s!"Loop vertices must have shape (n, 3), got {shapeText found}."
  | .tooFewVertices found => s!"A loop needs at least 3 vertices, got {found}."

end LoopError

structure Loop (α : Type) where
  vertices : Array (Vec3 α)
  three_le : 3 ≤ vertices.size

namespace Loop

variable {α : Type}

def ofVertices (vertices : Array (Vec3 α)) : Except LoopError (Loop α) :=
  if h : 3 ≤ vertices.size then .ok { vertices := vertices, three_le := h }
  else .error (.tooFewVertices vertices.size)

/-- The loop whose vertices are the rows of a grid with three columns. -/
def ofGrid (grid : Grid α) : Except LoopError (Loop α) :=
  match grid.shape with
  | [_, 3] => ofVertices (grid.entries.filterMap Grid.point?).toArray
  | found =>
      .error (if maxNesting < found.length then .tooDeep else .shape found)

def size (loop : Loop α) : Nat :=
  loop.vertices.size

theorem size_pos (loop : Loop α) : 0 < loop.size :=
  Nat.lt_of_lt_of_le (by decide) loop.three_le

/-- The position of vertex `i`, counted around the loop in either direction. -/
def position (loop : Loop α) (i : Int) : Nat :=
  (i % loop.size).toNat

theorem position_lt (loop : Loop α) (i : Int) :
    loop.position i < loop.vertices.size := by
  have h : (0 : Int) < loop.size := Int.natCast_pos.mpr loop.size_pos
  have hlt := Int.emod_lt_of_pos i h
  have hsize : loop.vertices.size = loop.size := rfl
  unfold position
  omega

/-- Vertex `i`, where vertex `size` is vertex zero again. -/
def vertex (loop : Loop α) (i : Int) : Vec3 α :=
  have := loop.position_lt i
  loop.vertices[loop.position i]

/-- The start and the end of every edge, the closing edge included. -/
def edges (loop : Loop α) : List (Vec3 α × Vec3 α) :=
  (List.range loop.size).map fun (i : Nat) =>
    (loop.vertex i, loop.vertex (i + 1))

def appendTo (loop : Loop α) (points : List (Vec3 α)) : List (Vec3 α) :=
  points ++ loop.vertices.toList

def text (loop : Loop α) : String :=
  s!"Loop(num_vertices={loop.size})"

end Loop

end SphereFixtures
