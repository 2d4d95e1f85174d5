import ChipEight.Machine

/-! A machine at work: runs of many steps, and the log that they leave. -/

namespace ChipEight

structure Session (σ : Type) where
  machine : Machine σ
  log : Array Event := #[]

inductive Ending where
  | closed
  | failed (cause : Fault)
  deriving DecidableEq, Repr

namespace Session

variable {σ : Type}

def start (screen : σ) (rules : Rules) : Session σ := ⟨.start screen rules, #[]⟩

def note (s : Session σ) (e : Event) : Session σ := { s with log := s.log.push e }

def load (s : Session σ) (data : Array UInt8) (address : UInt16) : Except Fault Unit × Session σ :=
  let (r, machine) := s.machine.load data address; (r, { s with machine })

def loadProgram (s : Session σ) (program : Array UInt8) : Except Fault Unit × Session σ :=
  let (r, machine) := s.machine.loadProgram program; (r, { s with machine })

variable [Screen σ]

def step (s : Session σ) : Except Fault Unit × Session σ :=
  let t := s.machine.step; (t.result, ⟨t.machine, s.log ++ t.events⟩)

/-- `n` steps, or as many as succeed and the one that fails. -/
def steps : Nat → Session σ → Except Fault Unit × Session σ
  | 0, s => (.ok (), s)
  | n + 1, s =>
      match s.step with
      | (.ok (), s) => s.steps n
      | (.error e, s) => (.error e, s)

def poll (s : Session σ) : Bool × Session σ :=
  let (closed, screen) := Screen.isClosed s.machine.screen
  (closed, { s with machine := { s.machine with screen } })

/-- Steps until the screen is closed or a step fails, asking before each step. There is no ending if it is
still going after asking `budget` times. -/
def untilClosed : Nat → Session σ → Option Ending × Session σ
  | 0, s => (none, s)
  | budget + 1, s =>
      match s.poll with
      | (true, s) => (some .closed, s.note .screenGone)
      | (false, s) =>
          match s.step with
          | (.ok (), s) => s.untilClosed budget
          | (.error e, s) => (some (.failed e), s)

def run (budget : Nat) (program : Array UInt8) (s : Session σ) : Option Ending × Session σ :=
  match s.loadProgram program with
  | (.error e, s) => (some (.failed e), s)
  | (.ok (), s) => (s.note (.programLoaded program.size)).untilClosed budget

end Session

end ChipEight
