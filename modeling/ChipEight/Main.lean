import ChipEight.CommandLine.Parse
import ChipEight.Program

/-!
The command line: runs a program from a file. The window needs a terminal that can hand over single keys, and
none is offered here, so it ends as it does without a terminal.
-/

namespace ChipEight.Main

open Program

def usage : String :=
  "Run a CHIP-8 program.\n\nUsage: chip8-vm [OPTIONS] <ROM>\n\nOptions:\n" ++
  "  --display <window|text|headless>\n  --scale <N>\n  --poll-ms <N>\n  --hz <N>\n  --cycles <N>\n" ++
  "  --wrap\n  --collision <last|any>\n  -h, --help\n"

def explain : UsageError → String
  | .help => usage
  | .unknownArgument a => "error: unexpected argument: " ++ a ++ "\n"
  | .noValue s => "error: a value is required for --" ++ s.name ++ "\n"
  | .notAChoice s v | .notANumber s v => "error: invalid value for --" ++ s.name ++ ": " ++ v ++ "\n"
  | .repeated n => "error: --" ++ n ++ " cannot be used multiple times\n"
  | .unwantedValue n => "error: --" ++ n ++ " takes no value\n"
  | .emptyRom => "error: the ROM path is empty\n"
  | .noRom => "error: a ROM is required\n"

def refusal : IO.Error → OsError
  | .noFileOrDirectory .. => .noSuchFile
  | .permissionDenied _ code text => ⟨code.toNat, .permissionDenied, text⟩
  | e => ⟨0, .uncategorized, e.toString⟩

/-- Errors and warnings are shown; the rest of the log is not. -/
def showLog (events : List Event) : IO Unit := do
  for e in events do
    if e.level = .warn ∨ e.level = .error then IO.eprintln e.line

def finish (e : Exit) : IO UInt32 := do
  showLog e.log
  IO.print e.output
  IO.eprint e.complaint
  return e.code.toUInt32

/-- Waits until `next` unless that is past, and gives the time from which to count on. -/
def pace (next : Nat) : IO Nat := do
  let now ← IO.monoNanosNow
  if now < next then
    IO.sleep ((next - now) / 1000000).toUInt32
    return next
  else return now

def emit (s : Session Printed) : IO (Session Printed) := do
  IO.print s.machine.screen.sink.text
  (← IO.getStdout).flush
  let sink := { s.machine.screen.sink with text := "" }
  return { machine := { s.machine with screen := { s.machine.screen with sink } } }

/-- Steps one by one, `left` times or for ever, calling `after` each time. -/
partial def drive {σ : Type} [Screen σ] (after : Session σ → IO (Session σ)) (left : Option Nat) (next : Nat)
    (s : Session σ) : IO (Except Stopped Unit × Session σ) := do
  if left = some 0 then return (.ok (), s)
  let (r, s) := s.step
  let s ← after s
  match r with
  | .error e => return (outcome s (.failed e), s)
  | .ok () =>
      let next ← match s.machine.period with
        | none => pure next
        | some period => if left.isSome then pure next else pace (next + period)
      drive after (left.map (· - 1)) next s

def runOn {σ : Type} [Screen σ] (after : Session σ → IO (Session σ)) (o : Options) (screen : σ)
    (program : Array UInt8) : IO UInt32 := do
  let (loaded, s) := (ready o screen).loadProgram program
  let (ran, s) ← match loaded with
    | .error e => pure (outcome s (.failed e), s)
    | .ok () => do drive after o.cycles (← IO.monoNanosNow) s
  finish (Exit.ofRun ran s)

def start (arguments : List String) : IO UInt32 := do
  match Options.parse arguments with
  | .error e =>
      if e.exitCode = 0 then IO.print (explain e) else IO.eprint (explain e)
      return e.exitCode.toUInt32
  | .ok o =>
      match ← (IO.FS.readBinFile o.rom).toBaseIO with
      | .error e => finish { result := .error (.noProgram (refusal e)), log := [] }
      | .ok file =>
          let program := file.data
          showLog [.romRead o.rom program.size]
          match o.display with
          | .text => runOn emit o ({ sink := {} } : Printed) program
          | .headless => runOn (fun s => pure { s with log := #[] }) o ({} : Headless) program
          | .window =>
              match withoutTerminal 1 o program with
              | some e => finish e
              | none => return 1

end ChipEight.Main

def main (arguments : List String) : IO UInt32 := ChipEight.Main.start arguments
