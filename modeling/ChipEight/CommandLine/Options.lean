import ChipEight.Canvas.Geometry
import ChipEight.Rules

/-! What a command line asks for, and what can be wrong with it. -/

namespace ChipEight

inductive DisplayChoice where
  | window | text | headless
  deriving DecidableEq, Repr

structure Options where
  rom : String
  display : DisplayChoice := .window
  scale : Nat := 20
  /-- How often the canvas looks for a frame. -/
  pollMs : Nat := 1
  /-- Steps a second; 0 runs flat out. -/
  hz : Nat := 700
  cycles : Option Nat := none
  wrap : Bool := false
  collision : FlagRule := .last
  deriving DecidableEq, Repr

namespace Options

def rules (o : Options) : Rules := ⟨if o.wrap then .wrap else .keep, o.collision⟩

/-- The canvas looks once a millisecond at most. -/
def pollInterval (o : Options) : Nat := max o.pollMs 1

def title : String := "CHIP-8"

def canvasSize (o : Options) : Nat × Nat := (canvasWidth o.scale, canvasHeight o.scale)

end Options

inductive Setting where
  | display | scale | pollMs | hz | cycles | collision
  deriving DecidableEq, Repr

namespace Setting

def name : Setting → String
  | display => "display"
  | scale => "scale"
  | pollMs => "poll-ms"
  | hz => "hz"
  | cycles => "cycles"
  | collision => "collision"

def all : List Setting := [display, scale, pollMs, hz, cycles, collision]

def ofName? (n : String) : Option Setting := all.find? (·.name == n)

end Setting

inductive UsageError where
  | help
  | unknownArgument (argument : String)
  | noValue (setting : Setting)
  | notAChoice (setting : Setting) (value : String)
  | notANumber (setting : Setting) (value : String)
  | repeated (name : String)
  | unwantedValue (name : String)
  | emptyRom
  | noRom
  deriving DecidableEq, Repr

/-- Asking for help is no failure. -/
def UsageError.exitCode : UsageError → Nat
  | help => 0
  | _ => 2

end ChipEight
