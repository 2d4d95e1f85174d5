import ChipEight.Terminal.Size

/-! What a terminal shows: rows of cells, each a character in two colours. -/

namespace ChipEight

inductive Colour where
  | reset
  | black | white | darkGrey
  deriving DecidableEq, Repr

structure Cell where
  symbol : Char := ' '
  foreground : Colour := .reset
  background : Colour := .reset
  deriving DecidableEq, Repr

/-- A cell that nothing was ever drawn on. -/
def Cell.blank : Cell := {}

abbrev Picture := List (List Cell)

namespace Picture

/-- The picture of a size whose cell at column `x` of row `y` is `f x y`. -/
def of (s : Size) (f : Nat → Nat → Cell) : Picture :=
  (List.range s.height).map fun y => (List.range s.width).map fun x => f x y

/-- A picture in the top left corner of a blank terminal that it fits in. -/
def within (p : Picture) (s : Size) : Picture :=
  p.map (fun row => row ++ List.replicate (s.width - row.length) .blank) ++
    List.replicate (s.height - p.length) (List.replicate s.width .blank)

end Picture

end ChipEight
