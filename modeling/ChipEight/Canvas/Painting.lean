import ChipEight.Canvas.Geometry
import ChipEight.Frame

/-!
A frame as a terminal shows it: a border with a title, and inside it a canvas with every pixel as a square.
Unlit pixels go down first, so that a lit one shows however small the terminal is.
-/

namespace ChipEight

structure Dab where
  x : Nat
  y : Nat
  colour : Colour
  deriving DecidableEq, Repr

namespace Grid

/-- What drawing a square does to the grid, in order. -/
def dabs (g : Grid) (s : Square) : List Dab :=
  match g.rect? s with
  | none => []
  | some r => r.cells.map fun (x, y) => ⟨x, y, if r.isRoomy && r.onEdge x y then s.outline else s.fill⟩

def unpainted (g : Grid) : Array (Option Colour) := Array.replicate (g.width * g.height) none

/-- Later dabs cover earlier ones; one past the end of the grid is lost. -/
def paint (g : Grid) (dabs : List Dab) : Array (Option Colour) :=
  dabs.foldl (fun a d => a.setIfInBounds (d.y * g.width + d.x) (some d.colour)) g.unpainted

/-- The squares of a frame in the order that they are drawn. -/
def frameSquares (g : Grid) (f : Frame) : List Square :=
  [false, true].flatMap fun plane =>
    (f.pixels.filter (·.lit == plane)).map fun p => .ofPixel g.scale p.x p.y p.lit

end Grid

def Colour.cell (c : Colour) : Cell := ⟨'▄', c, .reset⟩

def paintedCell (g : Grid) (painted : Array (Option Colour)) (ground : Cell) (x y : Nat) : Cell :=
  match painted[y * g.width + x]? with
  | some (some c) => c.cell
  | _ => ground

def squaresOn (g : Grid) (squares : List Square) : Picture :=
  let painted := g.paint (squares.flatMap g.dabs)
  Picture.of g.toSize (paintedCell g painted .blank)

def paintSquares (terminal : Size) (scale : Nat) (squares : List Square) : Picture :=
  squaresOn ⟨terminal.drawn, scale⟩ squares

/-! ## A framed canvas -/

def windowGround (symbol : Char) : Cell := ⟨symbol, .reset, .black⟩

/-- The symbol at a place of the border, if it is one; the title starts beside the top left corner and is cut
before the right one. -/
def border? (area : Size) (title : List Char) (x y : Nat) : Option Char :=
  if y = 0 then
    if x = 0 then some '┌'
    else if x = area.width - 1 then some '┐'
    else some (title[x - 1]?.getD '─')
  else if y = area.height - 1 then
    if x = 0 then some '└' else if x = area.width - 1 then some '┘' else some '─'
  else if x = 0 ∨ x = area.width - 1 then some '│'
  else none

def frameOn (area : Size) (scale : Nat) (title : String) (f : Frame) : Picture :=
  let g : Grid := ⟨⟨area.width - 2, area.height - 2⟩, scale⟩
  let painted := g.paint ((g.frameSquares f).flatMap g.dabs)
  let letters := title.toList
  Picture.of area fun x y =>
    match border? area letters x y with
    | some symbol => windowGround symbol
    | none => paintedCell g painted (windowGround ' ') (x - 1) (y - 1)

def paintFrame (terminal : Size) (scale : Nat) (title : String) (f : Frame) : Picture :=
  frameOn terminal.drawn scale title f

end ChipEight
