/-! Where machines of this kind disagree, and which way one of them goes. -/

namespace ChipEight

/-- What becomes of sprite pixels beyond the right or bottom edge. -/
inductive EdgeRule where
  /-- They go to the screen as they are, which refuses them. -/
  | keep
  /-- They come back in at the opposite edge. -/
  | wrap
  deriving DecidableEq, Repr

/-- What VF tells about a sprite. -/
inductive FlagRule where
  /-- Whether the last flip put a pixel out; with no flips VF stays. -/
  | last
  /-- Whether any flip put a pixel out. -/
  | any
  deriving DecidableEq, Repr

structure Rules where
  edge : EdgeRule := .keep
  flag : FlagRule := .last
  deriving DecidableEq, Repr

def EdgeRule.place : EdgeRule → UInt16 × UInt16 → UInt16 × UInt16
  | keep, p => p
  | wrap, (x, y) => (x % 64, y % 32)

/-- The new VF after flips with these answers, if there is one. -/
def FlagRule.value? : FlagRule → List Bool → Option Bool
  | last, erased => erased.getLast?
  | any, erased => some (erased.any id)

end ChipEight
