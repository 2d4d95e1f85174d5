import ChipEight.Terminal.Cell

/-!
Where pixels lie on the canvas. In canvas units the picture is 64 by 32 squares, its top left corner at the
origin and y growing upwards; on the screen it is a grid of cells. Coordinates have 53 significant bits.
-/

namespace ChipEight

def side (scale : Nat) : Nat := max scale 1

def canvasWidth (scale : Nat) : Nat := 64 * side scale

def canvasHeight (scale : Nat) : Nat := 32 * side scale

/-- How far from the edge the line between pixels `n - 1` and `n` lies. -/
def lineAt (scale n : Nat) : Nat := Rounded.nearest (Rounded.nearest n * side scale)

theorem lineAt_of_lt {scale n : Nat} (h : n * side scale < 1 <<< 53) : lineAt scale n = n * side scale := by
  have : n ≤ n * side scale := Nat.le_mul_of_pos_right n (Nat.le_max_right scale 1)
  rw [lineAt, Rounded.nearest_of_lt (Nat.lt_of_le_of_lt this h), Rounded.nearest_of_lt h]

structure Square where
  left : Int
  bottom : Int
  size : Nat
  fill : Colour
  outline : Colour
  deriving DecidableEq

def Square.ofPixel (scale x y : Nat) (lit : Bool) : Square where
  left := lineAt scale x
  bottom := -lineAt scale (y + 1)
  size := side scale
  fill := if lit then .white else .black
  outline := .darkGrey

/-- A grid of screen cells, and the scale of the canvas shown on it. -/
structure Grid extends Size where
  scale : Nat
  deriving DecidableEq

/-- The cell that shows a point; points beyond the edges have none. The edges themselves lie inside. -/
def Grid.cell? (g : Grid) (x y : Int) : Option (Nat × Nat) :=
  if 0 ≤ x ∧ x ≤ canvasWidth g.scale ∧ -canvasHeight g.scale ≤ y ∧ y ≤ 0 then
    some (x.toNat * (g.width - 1) / canvasWidth g.scale, (-y).toNat * (g.height - 1) / canvasHeight g.scale)
  else none

/-- Cells from `left` to `right` of the rows from `top` to `bottom`, all included. -/
structure Rect where
  left : Nat
  top : Nat
  right : Nat
  bottom : Nat
  deriving DecidableEq, Repr

/-- The last cell of a span from `first` to the one where the next span begins: that one is its neighbour's,
unless the span has no other. -/
def spanEnd (first next : Nat) : Nat := if first < next then next - 1 else first

/-- The cells that a square covers; a square that is partly off the canvas covers none. -/
def Grid.rect? (g : Grid) (s : Square) : Option Rect :=
  match g.cell? s.left (s.bottom + s.size), g.cell? (s.left + s.size) s.bottom with
  | some (x0, y0), some (x1, y1) => some ⟨x0, y0, spanEnd x0 x1, spanEnd y0 y1⟩
  | _, _ => none

namespace Rect

def columns (r : Rect) : List Nat := List.range' r.left (r.right + 1 - r.left)

def rows (r : Rect) : List Nat := List.range' r.top (r.bottom + 1 - r.top)

def cells (r : Rect) : List (Nat × Nat) := r.rows.flatMap fun y => r.columns.map fun x => (x, y)

/-- There is room for an outline around at least one cell. -/
def isRoomy (r : Rect) : Bool := r.left + 2 ≤ r.right && r.top + 2 ≤ r.bottom

def onEdge (r : Rect) (x y : Nat) : Bool := x == r.left || x == r.right || y == r.top || y == r.bottom

end Rect

end ChipEight
