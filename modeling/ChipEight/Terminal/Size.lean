import ChipEight.Rounded

/-! The size of a terminal, and the part of it that is drawn on. -/

namespace ChipEight

structure Size where
  width : Nat
  height : Nat
  deriving DecidableEq, Repr

/-- No more cells than these are drawn on. -/
def mostCells : Nat := 65535

/-- The part of a terminal that is drawn on: all of it, or of one with too many cells a part in its top left
corner that has the same proportions. -/
def Size.drawn (s : Size) : Size :=
  if s.width * s.height ≤ mostCells then s
  else
    let ratio := Rounded.div (.ofNat s.width) (.ofNat s.height)
    let height := (Rounded.div (.ofNat mostCells) ratio).sqrt
    ⟨(height.mul ratio).floor, height.floor⟩

end ChipEight
