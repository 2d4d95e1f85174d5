import ChipEight.Screen

/-!
The screen that prints: after every draw the console is wiped and the whole picture written as zeros and ones.
-/

namespace ChipEight

/-- Where text goes. It may be set to refuse writes after some flushes, and to fail at one flush. -/
structure Sink where
  text : String := ""
  flushes : Nat := 0
  refuseAfter : Option Nat := none
  failFlushAt : Option Nat := none
  deriving DecidableEq

namespace Sink

def refuses (s : Sink) : Bool := s.refuseAfter.any (· ≤ s.flushes)

/-- A refused write keeps nothing. -/
def write (s : Sink) (t : String) : Except ScreenFault Sink :=
  if s.refuses then .error (.io "sink is full") else .ok { s with text := s.text ++ t }

/-- A failed flush counts, and what was written stays. -/
def flush (s : Sink) : Except ScreenFault Unit × Sink :=
  let s := { s with flushes := s.flushes + 1 }
  (if s.failFlushAt = some s.flushes then .error (.io "flush failed") else .ok (), s)

end Sink

structure Printed where
  sink : Sink
  frame : Frame := .blank
  deriving DecidableEq

namespace Printed

def wipe : String := "\x1b[2J"

def home : String := "\x1b[1;1H"

def screenful (f : Frame) : String := wipe ++ home ++ f.text

def render (s : Printed) : Shown Printed :=
  match s.sink.write (screenful s.frame) with
  | .error e => ⟨.error e, [], s⟩
  | .ok sink => let (r, sink) := sink.flush; ⟨r, [], { s with sink }⟩

end Printed

instance : Screen Printed where
  clear s := { s with frame := .blank }
  toggle s x y := let (r, f) := s.frame.toggle x y; (r, { s with frame := f })
  render := Printed.render
  isClosed s := (false, s)

end ChipEight
