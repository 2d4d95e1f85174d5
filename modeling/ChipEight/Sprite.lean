/-! Sprites: rows of eight pixels, the most significant bit leftmost. -/

namespace ChipEight

/-- Columns of the set bits of a row, from the left. -/
def rowColumns (row : UInt8) : List Nat := (List.range 8).filter row.toBitVec.getMsbD

/-- Column and row of every set bit, row by row from the left. -/
def spriteCells (rows : List UInt8) : List (Nat × Nat) :=
  rows.zipIdx.flatMap fun (row, r) => (rowColumns row).map fun c => (c, r)

/-- Where the set bits fall when the top left corner is at `x`, `y`. -/
def spriteTargets (x y : UInt8) (rows : List UInt8) : List (UInt16 × UInt16) :=
  (spriteCells rows).map fun (c, r) => (x.toUInt16 + c.toUInt16, y.toUInt16 + r.toUInt16)

end ChipEight
