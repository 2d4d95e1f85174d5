import ChipEight.Event
import ChipEight.Frame

/-! What a machine asks of the screen that it draws on, and the screen that shows nothing. -/

namespace ChipEight

structure Shown (σ : Type) where
  result : Except ScreenFault Unit
  events : List Event
  screen : σ

/-- A screen keeps a picture of its own. A machine flips its pixels, never reads them, and learns from a flip
only whether it put a pixel out. -/
class Screen (σ : Type) where
  clear : σ → σ
  /-- Flips one pixel; true if that put it out. -/
  toggle : σ → UInt16 → UInt16 → Except ScreenFault Bool × σ
  render : σ → Shown σ
  /-- Whether whoever looked at the picture has gone. -/
  isClosed : σ → Bool × σ

/-- Keeps the picture and counts how often it would have been shown. -/
structure Headless where
  frame : Frame := .blank
  renders : Nat := 0
  deriving DecidableEq

instance : Screen Headless where
  clear s := { s with frame := .blank }
  toggle s x y := let (r, f) := s.frame.toggle x y; (r, { s with frame := f })
  render s := ⟨.ok (), [], { s with renders := s.renders + 1 }⟩
  isClosed s := (false, s)

end ChipEight
