import ChipEight.Screen
import ChipEight.Window.Link

/-! The screen in a window: it keeps the picture and sends a copy down the link each time it is to be shown. -/

namespace ChipEight

structure Window where
  frame : Frame := .blank
  link : Link := {}
  /-- The end of the viewer has been logged. -/
  warned : Bool := false
  /-- The viewer has been waited for. -/
  joined : Bool := false
  deriving DecidableEq

structure Parting where
  result : Except ScreenFault Unit
  events : List Event
  window : Window

namespace Window

def openingEvents : List Event := [.canvasStarted]

def isClosed (w : Window) : Bool := w.joined || w.link.isFinished

/-- Takes up the picture as it stands, unless the window has hung up. The first time after the viewer ended it
says so. -/
def beginRender (w : Window) : List Event × Window :=
  (if w.isClosed && !w.warned then [.canvasClosed] else [],
    { w with
      warned := w.warned || w.isClosed
      link := if w.link.hungUp then w.link else w.link.offer w.frame })

/-- Shows the picture: never waits and never fails. -/
def render (w : Window) : Shown Window :=
  let (begun, w) := w.beginRender
  let (sent, link) := w.link.settle
  ⟨.ok (), begun ++ sent, { w with link }⟩

/-! ## The end of a window -/

/-- Hangs up and waits for the viewer, once. There is no answer while the viewer goes on. -/
def stop? (w : Window) : Option Parting :=
  let w := { w with link := w.link.hangUp }
  if w.joined then some ⟨.ok (), [], w⟩
  else w.link.finish?.map fun f =>
    ⟨f.result, if f = .crashed then [] else [.canvasJoined], { w with joined := true }⟩

/-- Lets go of a window, which stops it; a bad end is only logged. -/
def drop? (w : Window) : Option (List Event) :=
  w.stop?.map fun p => p.events ++ match p.result with
    | .ok () => []
    | .error cause => [.canvasEndedBadly cause]

def shutdown? (w : Window) : Option (Except ScreenFault Unit × List Event) := do
  let p ← w.stop?
  return (p.result, p.events ++ (← p.window.drop?))

end Window

instance : Screen Window where
  clear w := { w with frame := .blank }
  toggle w x y := let (r, f) := w.frame.toggle x y; (r, { w with frame := f })
  render := Window.render
  isClosed w := (w.isClosed, w)

end ChipEight
