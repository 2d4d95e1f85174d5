import ChipEight.Canvas.Painting
import ChipEight.Canvas.Viewer
import ChipEight.CommandLine.Options
import ChipEight.Machine.Session
import ChipEight.Screen.Printed

/-! The whole program: one run as the options ask, and how its end is told. -/

namespace ChipEight

/-- A run that ended badly, with the machine as it was then. -/
structure Stopped where
  cause : Fault
  state : String
  deriving DecidableEq, Repr

namespace Program

variable {σ : Type}

def outcome (s : Session σ) : Ending → Except Stopped Unit
  | .closed => .ok ()
  | .failed cause => .error ⟨cause, s.machine.datum.line⟩

def ready (o : Options) (screen : σ) : Session σ :=
  let s := Session.start screen o.rules
  { s with machine := s.machine.setSpeed (some o.hz) }

/-- Runs a program for the number of steps that was asked for, or else until the screen is closed. -/
def run [Screen σ] (budget : Nat) (o : Options) (screen : σ) (program : Array UInt8) :
    Option (Except Stopped Unit) × Session σ :=
  let s := ready o screen
  match o.cycles with
  | none =>
      let (ending, s) := s.run budget program
      (ending.map (outcome s), s)
  | some n =>
      match s.loadProgram program with
      | (.error e, s) => (some (outcome s (.failed e)), s)
      | (.ok (), s) =>
          match s.steps n with
          | (.error e, s) => (some (outcome s (.failed e)), s)
          | (.ok (), s) => (some (.ok ()), s)

def report : Except Stopped Unit → Except Failure Unit × List Event
  | .ok () => (.ok (), [])
  | .error stopped => (.error (.fault stopped.cause), [.stopped stopped.cause, .stateAtStop stopped.state])

/-- Tells how a run in a window ended once the window is closed. The run's own fault comes first; a window that
closed badly is then only logged. -/
def conclude (ran : Except Stopped Unit) (closed : Except Failure Unit) : Except Failure Unit × List Event :=
  match report ran, closed with
  | (.ok (), events), closed => (closed, events)
  | (.error e, events), .ok () => (.error e, events)
  | (.error e, events), .error c => (.error e, events ++ [.closedBadly c])

/-- Closes the window of a run and tells how both ended; `blame` says what a bad end of the window is to the
program. There is no answer while the viewer goes on. -/
def closeWindow? (blame : ScreenFault → Failure) (ran : Except Stopped Unit) (w : Window) :
    Option (Except Failure Unit × List Event) :=
  w.shutdown?.map fun (closed, closing) =>
    let (result, told) := conclude ran (closed.mapError blame)
    (result, closing ++ told)

/-- What a program leaves behind when it ends. -/
structure Exit where
  result : Except Failure Unit
  log : List Event
  output : String := ""
  /-- What the terminal showed when the window closed. -/
  picture : Option Picture := none

namespace Exit

def code (e : Exit) : Nat :=
  match e.result with
  | .ok () => 0
  | .error _ => 1

def complaint (e : Exit) : String :=
  match e.result with
  | .ok () => ""
  | .error f => "Error: " ++ f.datum.line ++ "\n"

def ofRun {σ : Type} (ran : Except Stopped Unit) (s : Session σ) : Exit :=
  let (result, told) := report ran
  { result, log := s.log.toList ++ told }

def ofWindow? (blame : ScreenFault → Failure) (ran : Except Stopped Unit) (s : Session Window) (w : Window) :
    Option Exit :=
  (closeWindow? blame ran w).map fun (result, told) =>
    { result, log := Window.openingEvents ++ s.log.toList ++ told }

end Exit

def windowless? (budget : Nat) (o : Options) (program : Array UInt8) : Option Exit :=
  match o.display with
  | .window => none
  | .text =>
      let (ran, s) := run budget o ({ sink := {} } : Printed) program
      ran.map fun ran => { Exit.ofRun ran s with output := s.machine.screen.sink.text }
  | .headless =>
      let (ran, s) := run budget o ({} : Headless) program
      ran.map fun ran => Exit.ofRun ran s

/-- Runs where there is no terminal: the viewer of a window ends at once. -/
def withoutTerminal (budget : Nat) (o : Options) (program : Array UInt8) : Option Exit :=
  match o.display with
  | .window =>
      let refusal := OsError.noSuchDevice
      let window : Window := { link := ({} : Link).finish (.io refusal.message) }
      let (ran, s) := run budget o window program
      ran.bind fun ran => Exit.ofWindow? (fun _ => .noTerminal refusal) ran s s.machine.screen
  | _ => windowless? budget o program

/-- Lets a run in a window come to its end: the viewer looks at the keys, and the run goes on. -/
def settle (budget : Nat) (keys : List Key) (s : Session Window) :
    Option (Except Stopped Unit) × Session Window × Viewer :=
  let (_, showing) := Showing.turns ⟨s.machine.screen, {}⟩ (keys.map fun k => some (.key k))
  let (ending, s) := { s with machine := { s.machine with screen := showing.window } }.untilClosed budget
  (ending.map (outcome s), s, showing.viewer)

/-- Runs in a window on a terminal. The keys arrive once the program has gone on for `budget` steps; a program
that ends before gets none of them. -/
def onTerminal (budget : Nat) (o : Options) (terminal : Size) (keys : List Key) (program : Array UInt8) :
    Option Exit :=
  match o.display with
  | .window => do
      let (ended, s) := run budget o ({} : Window) program
      let (ran, s, viewer) := if ended.isSome then (ended, s, {}) else settle budget keys s
      let (_, showing) := Showing.close ⟨s.machine.screen, viewer⟩
      let exit ← Exit.ofWindow? .screen (← ran) s showing.window
      let picture := paintFrame terminal o.scale Options.title showing.viewer.shown
      return { exit with picture := some (picture.within terminal) }
  | _ => windowless? budget o program

end Program

end ChipEight
