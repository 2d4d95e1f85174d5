import ChipEight.CommandLine.Options

/-!
Reading a command line, argument by argument from the left; the first thing wrong is the one reported. A value
that stands apart from its setting is judged only when the next argument is known to be one of ours, or at the
end.
-/

namespace ChipEight

/-- A number in decimal below `limit`; a plus sign may lead it, and if `signed` a minus sign. -/
def number? (signed : Bool) (limit : Nat) (s : String) : Option Nat :=
  let (negative, digits) := match s.toList with
    | '+' :: ds => (false, ds)
    | '-' :: ds => if signed then (true, ds) else (false, '-' :: ds)
    | ds => (false, ds)
  if digits.isEmpty || !digits.all Char.isDigit then none
  else
    let n := digits.foldl (fun n d => n * 10 + (d.toNat - '0'.toNat)) 0
    if n < limit && (!negative || n == 0) then some n else none

structure Draft where
  rom : Option String := none
  display : Option DisplayChoice := none
  scale : Option Nat := none
  pollMs : Option Nat := none
  hz : Option Nat := none
  cycles : Option Nat := none
  wrap : Bool := false
  collision : Option FlagRule := none

namespace Draft

def has (d : Draft) : Setting → Bool
  | .display => d.display.isSome
  | .scale => d.scale.isSome
  | .pollMs => d.pollMs.isSome
  | .hz => d.hz.isSome
  | .cycles => d.cycles.isSome
  | .collision => d.collision.isSome

def put (d : Draft) (s : Setting) (value : String) : Except UsageError Draft :=
  let number signed limit := match number? signed limit value with
    | some n => .ok (some n)
    | none => .error (.notANumber s value)
  match s with
  | .display => match value with
    | "window" => .ok { d with display := some .window }
    | "text" => .ok { d with display := some .text }
    | "headless" => .ok { d with display := some .headless }
    | _ => .error (.notAChoice s value)
  | .collision => match value with
    | "last" => .ok { d with collision := some .last }
    | "any" => .ok { d with collision := some .any }
    | _ => .error (.notAChoice s value)
  | .scale => do return { d with scale := ← number true UInt16.size }
  | .hz => do return { d with hz := ← number true UInt32.size }
  | .pollMs => do return { d with pollMs := ← number false UInt64.size }
  | .cycles => do return { d with cycles := ← number false UInt64.size }

def settle (d : Draft) (s : Setting) : Option String → Except UsageError Draft
  | none => .error (.noValue s)
  | some value => if d.has s then .error (.repeated s.name) else d.put s value

def options (d : Draft) : Except UsageError Options :=
  match d.rom with
  | none => .error .noRom
  | some rom =>
      let o : Options := { rom }
      .ok { o with
        display := d.display.getD o.display
        scale := d.scale.getD o.scale
        pollMs := d.pollMs.getD o.pollMs
        hz := d.hz.getD o.hz
        cycles := d.cycles
        wrap := d.wrap
        collision := d.collision.getD o.collision }

end Draft

/-- What was read but not judged yet. -/
inductive Pending where
  | setting (s : Setting) (value : Option String)
  | rom (path : String)

structure Reader where
  draft : Draft := {}
  pending : Option Pending := none
  romGiven : Bool := false
  /-- After `--` every argument is a program. -/
  literally : Bool := false

namespace Reader

def resolve (r : Reader) : Except UsageError Reader :=
  match r.pending with
  | none => .ok r
  | some (.setting s value) => do return { r with draft := ← r.draft.settle s value, pending := none }
  | some (.rom "") => .error .emptyRom
  | some (.rom path) => .ok { r with draft := { r.draft with rom := some path }, pending := none }

/-- An argument that is neither option nor value names the program. There is one at most. -/
def takeRom (r : Reader) (path : String) : Except UsageError Reader :=
  if r.romGiven then .error (.unknownArgument path)
  else do return { ← r.resolve with pending := some (.rom path), romGiven := true }

/-- An argument that begins with two dashes, split at its first equals sign. -/
def takeLong (r : Reader) (name : String) (value : Option String) : Except UsageError Reader :=
  match name, Setting.ofName? name, value with
  | _, some s, none => do return { ← r.resolve with pending := some (.setting s none) }
  | _, some s, some v => do
      let r ← r.resolve
      return { r with draft := ← r.draft.settle s (some v) }
  | "wrap", none, none => do
      let r ← r.resolve
      if r.draft.wrap then .error (.repeated name)
      else return { r with draft := { r.draft with wrap := true } }
  | "help", none, none => do
      let _ ← r.resolve
      .error .help
  | "wrap", none, some _ | "help", none, some _ => .error (.unwantedValue name)
  | _, none, _ => .error (.unknownArgument ("--" ++ name))

def take (r : Reader) (argument : String) : Except UsageError Reader :=
  let plain := match r.pending with
    | some (.setting s none) => .ok { r with pending := some (.setting s (some argument)) }
    | _ => r.takeRom argument
  if r.literally then r.takeRom argument
  else match argument.toList with
    | ['-', '-'] => .ok { r with literally := true }
    | '-' :: '-' :: rest =>
        let name := String.ofList (rest.takeWhile (· != '='))
        match rest.dropWhile (· != '=') with
        | [] => r.takeLong name none
        | _ :: value => r.takeLong name (some (String.ofList value))
    | ['-'] => plain
    | '-' :: 'h' :: _ => do
        let _ ← r.resolve
        .error .help
    | '-' :: _ => .error (.unknownArgument argument)
    | _ => plain

end Reader

def Options.parse (arguments : List String) : Except UsageError Options := do
  let r ← arguments.foldlM Reader.take {}
  (← r.resolve).draft.options

end ChipEight
