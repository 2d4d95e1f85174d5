import ChipEight.Proofs.Machine.Command
import ChipEight.Proofs.Machine.Step
import ChipEight.Proofs.Screen.Agreement
import ChipEight.Proofs.Screen.Recorded

/-!
Sessions that cannot be told apart while they run. A record of what the screen is asked makes no difference, nor does
the pace.
-/

namespace ChipEight

namespace Session

variable {σ τ : Type}

/-- Sessions so related give the same answers and stay so related. -/
structure Lockstep [Screen σ] [Screen τ] (R : Session σ → Session τ → Prop) : Prop where
  load : ∀ {s t} program, R s t → (t.loadProgram program).1 = (s.loadProgram program).1 ∧
    R (s.loadProgram program).2 (t.loadProgram program).2
  poll : ∀ {s t}, R s t → t.poll.1 = s.poll.1 ∧ R s.poll.2 t.poll.2
  step : ∀ {s t}, R s t → t.step.1 = s.step.1 ∧ R s.step.2 t.step.2
  note : ∀ {s t} e, R s t → R (s.note e) (t.note e)

namespace Lockstep

variable [Screen σ] [Screen τ] {R : Session σ → Session τ → Prop} {s : Session σ} {t : Session τ}

theorem steps (h : Lockstep R) (n : Nat) (hst : R s t) : (t.steps n).1 = (s.steps n).1 ∧ R (s.steps n).2 (t.steps n).2 := by
  induction n generalizing s t with
  | zero => exact ⟨rfl, hst⟩
  | succ n ih =>
      obtain ⟨hstep, hnext⟩ := h.step hst
      rcases hs : s.step with ⟨e | _, s'⟩ <;> rcases ht : t.step with ⟨e' | _, t'⟩ <;> rw [hs, ht] at hstep hnext <;>
        cases hstep
      · rw [steps_of_error hs, steps_of_error ht]
        exact ⟨rfl, hnext⟩
      · rw [steps_of_ok hs, steps_of_ok ht]
        exact ih hnext

theorem untilClosed (h : Lockstep R) (budget : Nat) (hst : R s t) :
    (t.untilClosed budget).1 = (s.untilClosed budget).1 ∧ R (s.untilClosed budget).2 (t.untilClosed budget).2 := by
  induction budget generalizing s t with
  | zero => exact ⟨rfl, hst⟩
  | succ budget ih =>
      obtain ⟨hpoll, hpolled⟩ := h.poll hst
      rcases hs : s.poll with ⟨_ | _, s'⟩ <;> rcases ht : t.poll with ⟨_ | _, t'⟩ <;> rw [hs, ht] at hpoll hpolled <;>
        cases hpoll
      · obtain ⟨hstep, hnext⟩ := h.step hpolled
        rcases hs' : s'.step with ⟨e | _, s''⟩ <;> rcases ht' : t'.step with ⟨e' | _, t''⟩ <;>
          rw [hs', ht'] at hstep hnext <;> cases hstep
        · rw [untilClosed_of_error hs hs', untilClosed_of_error ht ht']
          exact ⟨rfl, hnext⟩
        · rw [untilClosed_of_ok hs hs', untilClosed_of_ok ht ht']
          exact ih hnext
      · rw [untilClosed_of_closed hs, untilClosed_of_closed ht]
        exact ⟨rfl, h.note _ hpolled⟩

theorem run (h : Lockstep R) (budget : Nat) (program : Array UInt8) (hst : R s t) :
    (t.run budget program).1 = (s.run budget program).1 ∧ R (s.run budget program).2 (t.run budget program).2 := by
  obtain ⟨hload, hloaded⟩ := h.load program hst
  rcases hs : s.loadProgram program with ⟨e | _, s'⟩ <;> rcases ht : t.loadProgram program with ⟨e' | _, t'⟩ <;>
    rw [hs, ht] at hload hloaded <;> cases hload
  · rw [run_of_error hs, run_of_error ht]
    exact ⟨rfl, hloaded⟩
  · rw [run_of_ok hs, run_of_ok ht]
    exact h.untilClosed budget (h.note _ hloaded)

end Lockstep

end Session

/-! ## Pace -/

namespace Machine

variable {σ : Type}

theorem load_setSpeed (m : Machine σ) (hz : Option Nat) (data : Array UInt8) (address : UInt16) :
    (m.setSpeed hz).load data address = ((m.load data address).1, (m.load data address).2.setSpeed hz) := by
  have hram : (m.setSpeed hz).ram = m.ram := rfl
  unfold load
  rw [hram]
  cases m.ram.write data address with
  | ok ram => rfl
  | error e => rfl

variable [Screen σ]

theorem draw_setSpeed (m : Machine σ) (hz : Option Nat) (x y : Register) (rows : Fin 16) (pc word : UInt16) :
    (m.setSpeed hz).draw x y rows pc word =
      { m.draw x y rows pc word with machine := (m.draw x y rows pc word).machine.setSpeed hz } := by
  cases hs : m.ram.slice? m.index rows with
  | none =>
      have hs' : (m.setSpeed hz).ram.slice? (m.setSpeed hz).index rows = none := hs
      rw [draw_of_outside hs, draw_of_outside hs']
      rfl
  | some sprite =>
      have hs' : (m.setSpeed hz).ram.slice? (m.setSpeed hz).index rows = some sprite := hs
      rcases hf : flipAll m.screen (m.targets x y sprite) with ⟨_ | erased, screen⟩
      · rw [draw_of_refused hs hf, draw_of_refused hs' hf]
        rfl
      · rw [draw_of_flipped hs hf, draw_of_flipped hs' hf]
        rfl

theorem execute_setSpeed (m : Machine σ) (hz : Option Nat) (pc word : UInt16) (i : Instr) :
    (m.setSpeed hz).execute pc word i =
      { m.execute pc word i with machine := (m.execute pc word i).machine.setSpeed hz } := by
  cases i with
  | drw x y rows => exact m.draw_setSpeed hz x y rows pc word
  | _ => rfl

theorem step_setSpeed (m : Machine σ) (hz : Option Nat) :
    (m.setSpeed hz).step = { m.step with machine := m.step.machine.setSpeed hz } := by
  cases hf : m.fetch with
  | error e =>
      have hf' : (m.setSpeed hz).fetch = .error e := hf
      rw [step_of_error hf, step_of_error hf']
  | ok word =>
      have hf' : (m.setSpeed hz).fetch = .ok word := hf
      have he := { m with pc := m.pc + 2 }.execute_setSpeed hz m.pc word (Instr.decode word)
      rw [step_of_ok hf, step_of_ok hf']
      exact congrArg (fun s : Step σ => { s with events := .fetched m.pc word :: s.events }) he

end Machine

namespace Session.Lockstep

variable {σ : Type} [Screen σ]

theorem setSpeed (hz : Option Nat) : Lockstep fun s t : Session σ => t = s.setSpeed hz where
  load {s t} program hst := by
    subst hst
    have hload : (s.setSpeed hz).machine.loadProgram program =
        ((s.machine.loadProgram program).1, (s.machine.loadProgram program).2.setSpeed hz) :=
      s.machine.load_setSpeed hz program s.machine.ram.origin
    simp only [Session.loadProgram, hload]
    exact ⟨trivial, rfl⟩
  poll hst := by
    subst hst
    exact ⟨rfl, rfl⟩
  step {s t} hst := by
    subst hst
    have hstep : (s.setSpeed hz).machine.step = { s.machine.step with machine := s.machine.step.machine.setSpeed hz } :=
      s.machine.step_setSpeed hz
    simp only [Session.step, hstep]
    exact ⟨trivial, rfl⟩
  note e hst := by
    subst hst
    rfl

theorem recorded : Lockstep (Mirrors (fun _ : Recorded σ => True) Recorded.screen) where
  load program hst := hst.ask Recorded.mirrors (.loadProgram program)
  poll {s t} hst := by
    have hscreen : t.machine.screen = s.machine.screen.screen := by rw [hst.machine]; rfl
    refine ⟨congrArg (fun u => (Screen.isClosed u).1) hscreen, ?_, trivial⟩
    simp only [Session.poll, hst.machine]
    rfl
  step hst := hst.step Recorded.mirrors
  note _ hst := ⟨hst.machine, trivial⟩

end Session.Lockstep

namespace Session.Mirrors

variable {σ : Type} [Screen σ] {s : Session (Recorded σ)} {t : Session σ}

theorem obey_recorded (h : Mirrors (fun _ => True) Recorded.screen s t) (c : Command) :
    Mirrors (fun _ => True) Recorded.screen (s.obey c) (t.obey c) := by
  cases c with
  | call c => exact (h.call Recorded.mirrors c).2
  | poll => exact (Lockstep.recorded.poll h).2
  | run program budget => exact (Lockstep.recorded.run budget program h).2
  | setSpeed hz => exact ⟨congrArg (·.setSpeed hz) h.machine, trivial⟩

theorem after_recorded (h : Mirrors (fun _ => True) Recorded.screen s t) (commands : List Command) :
    Mirrors (fun _ => True) Recorded.screen (s.after commands) (t.after commands) := by
  induction commands generalizing s t with
  | nil => exact h
  | cons c commands ih => exact ih (h.obey_recorded c)

end Session.Mirrors

end ChipEight
