import ChipEight.Ram
import ChipEight.Rules
import ChipEight.Screen
import ChipEight.Sprite

/-!
The machine: memory, registers and a screen. One step fetches the word at PC, moves PC past it, decodes it and
executes it.
-/

namespace ChipEight

structure Machine (σ : Type) where
  ram : Ram
  screen : σ
  rules : Rules
  v : Vector UInt8 16
  index : UInt16
  pc : UInt16
  stack : List UInt16
  delay : UInt8
  sound : UInt8
  /-- Nanoseconds from one step to the next, if the machine keeps a pace. -/
  period : Option Nat

structure Step (σ : Type) where
  result : Except Fault Unit
  events : List Event
  machine : Machine σ

namespace Machine

variable {σ : Type}

/-- A machine at rest, its PC where programs are loaded. -/
def start (screen : σ) (rules : Rules) : Machine σ where
  ram := .fresh
  screen := screen
  rules := rules
  v := Vector.replicate 16 0
  index := 0
  pc := Ram.fresh.origin
  stack := []
  delay := 0
  sound := 0
  period := none

/-- Paces the machine at `hz` steps a second; without a speed, or at 0, it runs flat out. -/
def setSpeed (m : Machine σ) (hz : Option Nat) : Machine σ :=
  { m with period := (hz.filter (0 < ·)).map (1000000000 / ·) }

/-- Copies bytes into memory; a refusal changes nothing. -/
def load (m : Machine σ) (data : Array UInt8) (address : UInt16) : Except Fault Unit × Machine σ :=
  match m.ram.write data address with
  | .ok ram => (.ok (), { m with ram })
  | .error e => (.error e, m)

def loadProgram (m : Machine σ) (program : Array UInt8) : Except Fault Unit × Machine σ :=
  m.load program m.ram.origin

/-- The value of V`x`; only the low four bits of `x` count. -/
def register (m : Machine σ) (x : Nat) : UInt8 := m.v.get ⟨x % 16, Nat.mod_lt _ (by decide)⟩

/-! ## One step -/

/-- Flips the targets in turn up to the first refusal. The answers tell which flips put a pixel out. -/
def flipAll [Screen σ] (s : σ) : List (UInt16 × UInt16) → Except ScreenFault (List Bool) × σ
  | [] => (.ok [], s)
  | (x, y) :: rest =>
      match Screen.toggle s x y with
      | (.error e, s) => (.error e, s)
      | (.ok erased, s) =>
          match flipAll s rest with
          | (.error e, s) => (.error e, s)
          | (.ok more, s) => (.ok (erased :: more), s)

/-- Draws `rows` rows of the sprite at I with its corner at V`x`, V`y`, then shows the picture. `pc` and `word`
name the instruction in a fault. -/
def draw [Screen σ] (m : Machine σ) (x y : Register) (rows : Fin 16) (pc word : UInt16) : Step σ :=
  match m.ram.slice? m.index rows with
  | none => ⟨.error (.spriteOutside pc word m.index (UInt8.ofNat rows)), [], m⟩
  | some sprite =>
      match flipAll m.screen ((spriteTargets m.v[x] m.v[y] sprite).map m.rules.edge.place) with
      | (.error e, screen) => ⟨.error (.screen pc word e), [], { m with screen }⟩
      | (.ok erased, screen) =>
          let v := match m.rules.flag.value? erased with
            | some flag => m.v.set 0xF flag.toUInt8
            | none => m.v
          let shown := Screen.render screen
          ⟨shown.result.mapError (.screen pc word), shown.events, { m with v, screen := shown.screen }⟩

def execute [Screen σ] (m : Machine σ) (pc word : UInt16) : Instr → Step σ
  | .cls => ⟨.ok (), [], { m with screen := Screen.clear m.screen }⟩
  | .jp target => ⟨.ok (), [], { m with pc := UInt16.ofNat target }⟩
  | .ld x byte => ⟨.ok (), [], { m with v := m.v.set x byte }⟩
  | .add x byte => ⟨.ok (), [], { m with v := m.v.set x (m.v[x] + byte) }⟩
  | .ldI target => ⟨.ok (), [], { m with index := UInt16.ofNat target }⟩
  | .drw x y rows => m.draw x y rows pc word
  | .unknown word => ⟨.error (.unknownWord pc word), [], m⟩

/-- The word at PC, high byte first. Neither byte may lie past the end. -/
def fetch (m : Machine σ) : Except Fault UInt16 :=
  match m.ram.read m.pc, m.ram.read (m.pc + 1) with
  | .ok high, .ok low => .ok (high.toUInt16 * 256 + low.toUInt16)
  | _, _ => .error (.ranOff m.pc)

def step [Screen σ] (m : Machine σ) : Step σ :=
  match m.fetch with
  | .error e => ⟨.error e, [], m⟩
  | .ok word =>
      let s := { m with pc := m.pc + 2 }.execute m.pc word (Instr.decode word)
      { s with events := .fetched m.pc word :: s.events }

/-- The registers as a record; the rest of the machine is not shown. -/
def datum (m : Machine σ) : Datum :=
  .record "Chip8Interpreter"
    [("pc", .atom (hex 3 m.pc.toNat)), ("i", .atom (hex 3 m.index.toNat)),
     ("v", .list (m.v.toList.map fun b => .nat b.toNat)), ("stack", .list (m.stack.map fun a => .nat a.toNat))]
    true

end Machine

end ChipEight
