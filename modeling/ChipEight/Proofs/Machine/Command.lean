import ChipEight.Proofs.Machine.Call

/-!
All that may be done to a machine, in any order and whatever it answers. What every single act keeps, any number of
them keeps.
-/

namespace ChipEight

inductive Command where
  | call (c : Call)
  | poll
  /-- Load and run a program, given up once the screen has been asked `budget` times. -/
  | run (program : Array UInt8) (budget : Nat)
  | setSpeed (hz : Option Nat)

namespace Session

variable {σ : Type}

def setSpeed (s : Session σ) (hz : Option Nat) : Session σ := { s with machine := s.machine.setSpeed hz }

variable [Screen σ]

def obey (s : Session σ) : Command → Session σ
  | .call c => (s.call c).2
  | .poll => s.poll.2
  | .run program budget => (s.run budget program).2
  | .setSpeed hz => s.setSpeed hz

def after (s : Session σ) (commands : List Command) : Session σ := commands.foldl obey s

/-! ## How a run goes on -/

section

variable {s s' polled : Session σ} {e : Fault}

theorem steps_of_ok (h : s.step = (.ok (), s')) (n : Nat) : s.steps (n + 1) = s'.steps n := by
  rw [steps, h]

theorem steps_of_error (h : s.step = (.error e, s')) (n : Nat) : s.steps (n + 1) = (.error e, s') := by
  rw [steps, h]

theorem untilClosed_of_closed (h : s.poll = (true, polled)) (budget : Nat) :
    s.untilClosed (budget + 1) = (some .closed, polled.note .screenGone) := by
  rw [untilClosed, h]

theorem untilClosed_of_ok (h : s.poll = (false, polled)) (hstep : polled.step = (.ok (), s')) (budget : Nat) :
    s.untilClosed (budget + 1) = s'.untilClosed budget := by
  rw [untilClosed, h]
  simp only [hstep]

theorem untilClosed_of_error (h : s.poll = (false, polled)) (hstep : polled.step = (.error e, s')) (budget : Nat) :
    s.untilClosed (budget + 1) = (some (.failed e), s') := by
  rw [untilClosed, h]
  simp only [hstep]

theorem run_of_ok {program : Array UInt8} (h : s.loadProgram program = (.ok (), s')) (budget : Nat) :
    s.run budget program = (s'.note (.programLoaded program.size)).untilClosed budget := by
  rw [run, h]

theorem run_of_error {program : Array UInt8} (h : s.loadProgram program = (.error e, s')) (budget : Nat) :
    s.run budget program = (some (.failed e), s') := by
  rw [run, h]

end

end Session

/-- A property of sessions that nothing takes away that happens in a run. -/
structure Session.Kept {σ : Type} [Screen σ] (P : Session σ → Prop) : Prop where
  load : ∀ {s} program, P s → P (s.loadProgram program).2
  loaded : ∀ {s} bytes, P s → P (s.note (.programLoaded bytes))
  poll : ∀ {s}, P s → P s.poll.2
  step : ∀ {s}, P s → P s.step.2
  gone : ∀ {s}, P s → P (s.note .screenGone)

namespace Session.Kept

variable {σ : Type} [Screen σ] {P : Session σ → Prop} {s : Session σ}

theorem steps (h : Kept P) (n : Nat) (hs : P s) : P (s.steps n).2 := by
  induction n generalizing s with
  | zero => exact hs
  | succ n ih =>
      have hnext := h.step hs
      rcases hstep : s.step with ⟨e | _, s'⟩ <;> rw [hstep] at hnext
      · rw [steps_of_error hstep]
        exact hnext
      · rw [steps_of_ok hstep]
        exact ih hnext

theorem untilClosed (h : Kept P) (budget : Nat) (hs : P s) : P (s.untilClosed budget).2 := by
  induction budget generalizing s with
  | zero => exact hs
  | succ budget ih =>
      have hpolled := h.poll hs
      rcases hpoll : s.poll with ⟨_ | _, polled⟩ <;> rw [hpoll] at hpolled
      · have hnext := h.step hpolled
        rcases hstep : polled.step with ⟨e | _, s'⟩ <;> rw [hstep] at hnext
        · rw [untilClosed_of_error hpoll hstep]
          exact hnext
        · rw [untilClosed_of_ok hpoll hstep]
          exact ih hnext
      · rw [untilClosed_of_closed hpoll]
        exact h.gone hpolled

theorem run (h : Kept P) (program : Array UInt8) (budget : Nat) (hs : P s) : P (s.run budget program).2 := by
  have hloaded := h.load program hs
  rcases hload : s.loadProgram program with ⟨e | _, loaded⟩ <;> rw [hload] at hloaded
  · rw [run_of_error hload]
    exact hloaded
  · rw [run_of_ok hload]
    exact h.untilClosed budget (h.loaded program.size hloaded)

end Session.Kept

/-- A property of machines that nothing done to a machine takes away. -/
structure Machine.Kept {σ : Type} [Screen σ] (P : Machine σ → Prop) : Prop where
  load : ∀ {m} data address, P m → P (m.load data address).2
  step : ∀ {m}, P m → P m.step.machine
  screen : ∀ {m} screen, P m → P { m with screen }
  setSpeed : ∀ {m} hz, P m → P (m.setSpeed hz)

namespace Machine.Kept

variable {σ : Type} [Screen σ] {P : Machine σ → Prop} {s : Session σ}

theorem ask (h : Kept P) (r : Request) (hs : P s.machine) : P (s.ask r).2.machine := by
  cases r with
  | load data address => exact h.load data address hs
  | loadProgram program => exact h.load program s.machine.ram.origin hs
  | step => exact h.step hs

theorem session (h : Kept P) : Session.Kept fun s : Session σ => P s.machine where
  load {s} program hs := h.load program s.machine.ram.origin hs
  loaded _ hs := hs
  poll hs := h.screen _ hs
  step hs := h.step hs
  gone hs := hs

theorem steps (h : Kept P) (n : Nat) (hs : P s.machine) : P (s.steps n).2.machine := h.session.steps n hs

theorem obey (h : Kept P) (c : Command) (hs : P s.machine) : P (s.obey c).machine := by
  cases c with
  | call c =>
      cases c with
      | ask r => exact h.ask r hs
      | steps n => exact h.steps n hs
      | toggle x y => exact h.screen _ hs
      | clear => exact h.screen _ hs
      | render => exact h.screen _ hs
  | poll => exact h.screen _ hs
  | run program budget => exact h.session.run program budget hs
  | setSpeed hz => exact h.setSpeed hz hs

theorem after (h : Kept P) (commands : List Command) (hs : P s.machine) : P (s.after commands).machine := by
  induction commands generalizing s with
  | nil => exact hs
  | cons c commands ih => exact ih (h.obey c hs)

end Machine.Kept

end ChipEight
