import ChipEight.Proofs.Machine.Flips
import ChipEight.Screen.Printed
import ChipEight.Screen.Scripted
import Mathlib.Control.Monad.Basic

/-!
What a failed step leaves behind. It has changed nothing that the program can see but VF, and VF only if the whole
sprite was drawn and its picture could not be shown.
-/

namespace ChipEight

namespace Machine

variable {σ : Type} [Screen σ] {m : Machine σ} {e : Fault}

theorem index_of_failed (h : m.step.result = .error e) : m.step.machine.index = m.index := by
  rw [m.step_effect.index]
  cases hf : m.fetch with
  | error cause =>
      rw [current?_of_error hf]
      rfl
  | ok word =>
      rw [step_of_ok hf] at h
      rw [current?_of_ok hf]
      generalize Instr.decode word = i at h
      cases i with
      | ldI target => cases h
      | _ => rfl

theorem v_of_failed (h : m.step.result = .error e) (hflips : m.flipped? = none) : m.step.machine.v = m.v := by
  cases hf : m.fetch with
  | error cause => rw [step_of_error hf]
  | ok word =>
      obtain ⟨-, hok | hv⟩ := step_of_unflipped hf hflips
      · rw [hok] at h
        cases h
      · exact hv

theorem failed_of_flipped {erased : List Bool} {screen : σ} (h : m.step.result = .error e)
    (hflips : m.flipped? = some (erased, screen)) :
    m.step.machine.v = m.rules.flag.update erased m.v ∧
      ∃ word cause, (Screen.render screen).result = .error cause ∧ e = .screen m.pc word cause := by
  cases hf : m.fetch with
  | error cause =>
      rw [flipped?, current?_of_error hf] at hflips
      cases hflips
  | ok word =>
      rw [step_of_flipped hf hflips] at h ⊢
      refine ⟨rfl, word, ?_⟩
      cases hr : (Screen.render screen).result with
      | ok =>
          rw [hr] at h
          cases h
      | error cause =>
          rw [hr] at h
          cases h
          exact ⟨cause, rfl, rfl⟩

/-- A step that fails leaves memory, I, the stack, the timers and V0 to VE as they were. VF too, unless all the flips of
a sprite were done and it was the screen that failed, in showing the picture: then VF already tells of the sprite. -/
theorem step_failed (h : m.step.result = .error e) :
    let m' := m.step.machine
    (m'.ram = m.ram ∧ m'.index = m.index ∧ m'.stack = m.stack ∧ m'.delay = m.delay ∧ m'.sound = m.sound) ∧
    (∀ r, r ≠ Register.flag → m'.v.get r = m.v.get r) ∧
    (m.flipped? = none → m'.v = m.v) ∧
    ∀ erased screen, m.flipped? = some (erased, screen) → m'.v = m.rules.flag.update erased m.v ∧
      ∃ word cause, (Screen.render screen).result = .error cause ∧ e = .screen m.pc word cause := by
  intro m'
  have he : Effect m.current? m m' := m.step_effect
  refine ⟨⟨he.ram, index_of_failed h, he.stack, he.delay, he.sound⟩, ?_, v_of_failed h, fun _ _ => failed_of_flipped h⟩
  intro r hr
  cases hflips : m.flipped? with
  | none => exact congrArg (·.get r) (v_of_failed h hflips)
  | some p =>
      obtain ⟨hv, -⟩ := failed_of_flipped h hflips
      exact (congrArg (·.get r) hv).trans (FlagRule.get_update _ _ _ hr)

/-- The third pixel of a zero is refused, with a count in VF. -/
theorem step_failed_at_pixel :
    let program := #[0x6F, 0x07, 0xD0, 0x05]
    let m := ((start ({ script := { failPixelAt := some 3 } } : Scripted) {}).loadProgram program).2.after 1
    m.step.result = .error (.screen 0x202 0xD005 .crashed) ∧ m.flipped? = none ∧ m.step.machine.v = m.v ∧
      m.step.machine.register 0xF = 7 := by
  intro program m
  have h : m.step.result = .error (.screen 0x202 0xD005 .crashed) := by decide
  have hflips : m.flipped? = none := by
    have hnone : m.flipped?.isNone = true := by decide
    exact Option.isNone_iff_eq_none.mp hnone
  obtain ⟨-, -, hv, -⟩ := step_failed h
  exact ⟨h, hflips, hv hflips, by decide⟩

/-- VF is not as it was when a printer that is full could not show a zero. -/
theorem flag_lost_in_showing :
    let m := ((start ({ sink := { refuseAfter := some 0 } } : Printed) {}).loadProgram #[0x6F, 0x01, 0xD0, 0x05]).2.after 1
    m.step.result = .error (.screen 0x202 0xD005 (.io "sink is full")) ∧ m.register 0xF = 1 ∧
      m.step.machine.register 0xF = 0 := by
  decide

end Machine

end ChipEight
