import ChipEight.Screen

/-! A headless screen that fails and closes at appointed calls. -/

namespace ChipEight

/-- The appointments: calls count from 1, failed ones too. -/
structure Script where
  failPixelAt : Option Nat := none
  failRenderAt : Option Nat := none
  fault : ScreenFault := .crashed
  closeAfterPolls : Option Nat := none
  closeAfterRenders : Option Nat := none
  deriving DecidableEq

structure Scripted where
  script : Script
  inner : Headless := {}
  pixels : Nat := 0
  renders : Nat := 0
  polls : Nat := 0
  deriving DecidableEq

namespace Scripted

def toggle (s : Scripted) (x y : UInt16) : Except ScreenFault Bool × Scripted :=
  let s := { s with pixels := s.pixels + 1 }
  if s.script.failPixelAt = some s.pixels then (.error s.script.fault, s)
  else let (r, inner) := Screen.toggle s.inner x y; (r, { s with inner })

def render (s : Scripted) : Shown Scripted :=
  let s := { s with renders := s.renders + 1 }
  if s.script.failRenderAt = some s.renders then ⟨.error s.script.fault, [], s⟩
  else let shown := Screen.render s.inner; ⟨shown.result, shown.events, { s with inner := shown.screen }⟩

def isClosed (s : Scripted) : Bool × Scripted :=
  let s := { s with polls := s.polls + 1 }
  (s.script.closeAfterPolls.any (· < s.polls) || s.script.closeAfterRenders.any (· ≤ s.renders), s)

end Scripted

instance : Screen Scripted where
  clear s := { s with inner := Screen.clear s.inner }
  toggle := Scripted.toggle
  render := Scripted.render
  isClosed := Scripted.isClosed

end ChipEight
