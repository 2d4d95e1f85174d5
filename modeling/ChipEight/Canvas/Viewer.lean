import ChipEight.Terminal.Key
import ChipEight.Window.Basic

/-!
The viewer at the far end of the link. Turn by turn it takes what frame there is, paints it, and then looks for
one event of the terminal. It ends when the producer has hung up and no frame is left, or at a quit key.
-/

namespace ChipEight

inductive TerminalEvent where
  | key (k : Key)
  | resize
  deriving DecidableEq, Repr

structure Viewer where
  shown : Frame := .blank
  isOpen : Bool := true
  deriving DecidableEq

namespace Viewer

def receive (v : Viewer) : Received → List Frame × Viewer
  | .frame f => ([f], { v with shown := f })
  | .empty => ([], v)
  | .hungUp => ([], { v with isOpen := false })

def handle (v : Viewer) : Option TerminalEvent → List Frame × Viewer
  | some (.key k) => ([], if k.isQuit then { v with isOpen := false } else v)
  | some .resize => ([v.shown], v)
  | none => ([], v)

end Viewer

structure Showing where
  window : Window := {}
  viewer : Viewer := {}
  deriving DecidableEq

namespace Showing

/-- The viewer leaves the link when it has ended. -/
def leave (s : Showing) : Showing :=
  if s.viewer.isOpen then s else { s with window := { s.window with link := s.window.link.finish .ok } }

def look (s : Showing) : List Frame × Showing :=
  if s.viewer.isOpen then
    let (received, link) := s.window.link.receive
    let (painted, viewer) := s.viewer.receive received
    (painted, leave { window := { s.window with link }, viewer })
  else ([], s)

/-- The viewer looks for an event of the terminal. Also gives the frames painted. -/
def respond (s : Showing) (event : Option TerminalEvent) : List Frame × Showing :=
  if s.viewer.isOpen then
    let (painted, viewer) := s.viewer.handle event
    (painted, leave { s with viewer })
  else ([], s)

/-- One turn of the viewer. Nothing happens once it has ended. -/
def turn (s : Showing) (event : Option TerminalEvent) : List Frame × Showing :=
  let (first, s) := s.look
  let (second, s) := s.respond event
  (first ++ second, s)

def turns (s : Showing) : List (Option TerminalEvent) → List Frame × Showing
  | [] => ([], s)
  | e :: es =>
      let (first, s) := s.turn e
      let (rest, s) := s.turns es
      (first ++ rest, s)

def hangUp (s : Showing) : Showing := { s with window := { s.window with link := s.window.link.hangUp } }

/-- Hangs up and lets the viewer end: one turn for a frame that is left, one to see the hang-up. -/
def close (s : Showing) : List Frame × Showing := s.hangUp.turns [none, none]

end Showing

end ChipEight
