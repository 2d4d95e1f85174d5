import ChipEight.Instr
import ChipEight.Fault

/-! What is worth a line in the log, and how the line reads. -/

namespace ChipEight

inductive Level where
  | trace | debug | info | warn | error
  deriving DecidableEq, Repr

def Level.name : Level → String
  | trace => "TRACE"
  | debug => "DEBUG"
  | info => "INFO"
  | warn => "WARN"
  | error => "ERROR"

inductive Event where
  /-- A word was fetched from `pc` and is about to be executed. -/
  | fetched (pc word : UInt16)
  | programLoaded (bytes : Nat)
  | screenGone
  | canvasStarted
  | canvasJoined
  | canvasClosed
  | frameReplaced (dropped : Nat)
  | canvasEndedBadly (cause : ScreenFault)
  | stopped (cause : Fault)
  | stateAtStop (state : String)
  | closedBadly (cause : Failure)
  | romRead (path : String) (bytes : Nat)
  deriving DecidableEq, Repr

namespace Event

def level : Event → Level
  | fetched _ _ => .trace
  | programLoaded _ | screenGone | canvasStarted | canvasJoined | frameReplaced _ => .debug
  | stateAtStop _ | romRead _ _ => .info
  | canvasClosed | canvasEndedBadly _ => .warn
  | stopped _ | closedBadly _ => .error

def message : Event → String
  | fetched pc word =>
      hex 3 pc.toNat ++ ": " ++ hexPlain 4 word.toNat ++ "  " ++ (Instr.decode word).text
  | programLoaded _ => "program loaded, running"
  | screenGone => "display closed, stopping"
  | canvasStarted => "canvas thread started"
  | canvasJoined => "canvas thread joined"
  | canvasClosed => "canvas has closed; frames are no longer shown"
  | frameReplaced _ => "canvas behind, replaced stale frame"
  | canvasEndedBadly cause => "canvas thread ended badly: " ++ cause.message
  | stopped cause =>
      (if cause.isScreenFailure then "display failed: " else "program stopped: ") ++ cause.message
  | stateAtStop state => "machine state at failure: " ++ state
  | closedBadly cause => "display failed to close: " ++ cause.message
  | romRead _ _ => "loaded rom"

def fields : Event → List (String × String)
  | programLoaded bytes => [("bytes", toString bytes)]
  | frameReplaced dropped => [("dropped", toString dropped)]
  | romRead path bytes => [("rom", path), ("bytes", toString bytes)]
  | _ => []

/-- Level, sentence, then each field as ` name=value`. -/
def line (e : Event) : String :=
  e.level.name ++ " " ++ e.message ++
    String.join (e.fields.map fun (name, value) => " " ++ name ++ "=" ++ value)

end Event

end ChipEight
