import ChipEight.Machine.Session

/-! What may be asked of a machine from outside, and what it answers, call after call. -/

namespace ChipEight

inductive Request where
  | load (data : Array UInt8) (address : UInt16)
  | loadProgram (program : Array UInt8)
  | step

inductive Call where
  | ask (r : Request)
  /-- Run for `n` steps. -/
  | steps (n : Nat)
  | toggle (x y : UInt16)
  | clear
  | render

namespace Session

variable {σ : Type}

def withScreen (s : Session σ) (screen : σ) : Session σ := { s with machine := { s.machine with screen } }

variable [Screen σ]

def ask (s : Session σ) : Request → Except Fault Unit × Session σ
  | .load data address => s.load data address
  | .loadProgram program => s.loadProgram program
  | .step => s.step

/-- Every answer, with the session after it. -/
def answers (s : Session σ) : List Request → List (Except Fault Unit × Session σ)
  | [] => []
  | r :: requests => s.ask r :: (s.ask r).2.answers requests

/-- Only a flip answers with more than that it was done. -/
def call (s : Session σ) : Call → Except Failure (Option Bool) × Session σ
  | .ask r => ((s.ask r).1.map (fun _ => none) |>.mapError .fault, (s.ask r).2)
  | .steps n => ((s.steps n).1.map (fun _ => none) |>.mapError .fault, (s.steps n).2)
  | .toggle x y =>
      let (erased, screen) := Screen.toggle s.machine.screen x y
      (erased.map some |>.mapError .screen, s.withScreen screen)
  | .clear => (.ok none, s.withScreen (Screen.clear s.machine.screen))
  | .render =>
      let shown := Screen.render s.machine.screen
      (shown.result.map (fun _ => none) |>.mapError .screen,
        { s.withScreen shown.screen with log := s.log ++ shown.events })

end Session

/-! ## Rules stay what they are -/

namespace Machine

variable {σ : Type}

/-- Loading changes nothing but memory. -/
theorem exists_ram_of_load (m : Machine σ) (data : Array UInt8) (address : UInt16) :
    ∃ ram, (m.load data address).2 = { m with ram } := by
  unfold load
  split
  · exact ⟨_, rfl⟩
  · exact ⟨m.ram, rfl⟩

@[simp] theorem load_rules (m : Machine σ) (data : Array UInt8) (address : UInt16) :
    (m.load data address).2.rules = m.rules := by
  obtain ⟨ram, hram⟩ := m.exists_ram_of_load data address
  rw [hram]

variable [Screen σ]

@[simp] theorem draw_rules (m : Machine σ) (x y : Register) (rows : Fin 16) (pc word : UInt16) :
    (m.draw x y rows pc word).machine.rules = m.rules := by
  unfold draw
  split
  · rfl
  · split
    · rfl
    · rfl

@[simp] theorem execute_rules (m : Machine σ) (pc word : UInt16) (i : Instr) :
    (m.execute pc word i).machine.rules = m.rules := by
  cases i with
  | drw x y rows => exact m.draw_rules x y rows pc word
  | _ => rfl

@[simp] theorem step_rules (m : Machine σ) : m.step.machine.rules = m.rules := by
  unfold step
  split
  · rfl
  · exact execute_rules _ _ _ _

end Machine

namespace Session

variable {σ : Type} [Screen σ]

@[simp] theorem ask_rules (s : Session σ) (r : Request) : (s.ask r).2.machine.rules = s.machine.rules := by
  cases r with
  | load data address => exact s.machine.load_rules data address
  | loadProgram program => exact s.machine.load_rules program s.machine.ram.origin
  | step => exact s.machine.step_rules

end Session

end ChipEight
