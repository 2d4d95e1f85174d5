import ChipEight.Proofs.Machine.Step
import Mathlib.Control.Monad.Basic

/-!
VF keeps to itself. Machines that differ in VF and in what a draw tells with it go through the same states, as long as
no sprite is placed by VF.
-/

namespace ChipEight

/-- A draw that takes a coordinate from VF. -/
def Instr.placesByFlag : Instr → Bool
  | .drw x y _ => x = Register.flag ∨ y = Register.flag
  | _ => false

namespace Machine

variable {σ : Type} {m m' : Machine σ}

/-- Machines that are the same but for VF and the rule for it. -/
structure SameButFlag (m m' : Machine σ) : Prop where
  ram : m'.ram = m.ram
  screen : m'.screen = m.screen
  edge : m'.rules.edge = m.rules.edge
  v : ∀ r, r ≠ Register.flag → m'.v.get r = m.v.get r
  index : m'.index = m.index
  pc : m'.pc = m.pc
  stack : m'.stack = m.stack
  delay : m'.delay = m.delay
  sound : m'.sound = m.sound
  period : m'.period = m.period

end Machine

/-- Steps that tell the same and lead to the same but for VF. -/
structure Step.SameButFlag {σ : Type} (s s' : Step σ) : Prop where
  result : s'.result = s.result
  events : s'.events = s.events
  machine : s.machine.SameButFlag s'.machine

namespace Machine.SameButFlag

variable {σ : Type} {m m' : Machine σ}

theorem fetch (h : m.SameButFlag m') : m'.fetch = m.fetch := by
  unfold Machine.fetch
  rw [h.ram, h.pc]

theorem targets (h : m.SameButFlag m') {x y : Register} (hx : x ≠ Register.flag) (hy : y ≠ Register.flag)
    (sprite : List UInt8) : m'.targets x y sprite = m.targets x y sprite := by
  unfold Machine.targets
  rw [h.v x hx, h.v y hy, h.edge]

variable [Screen σ]

theorem draw (h : m.SameButFlag m') {x y : Register} (hx : x ≠ Register.flag) (hy : y ≠ Register.flag) (rows : Fin 16)
    (pc word : UInt16) : Step.SameButFlag (m.draw x y rows pc word) (m'.draw x y rows pc word) := by
  cases hs : m.ram.slice? m.index rows with
  | none =>
      have hs' : m'.ram.slice? m'.index rows = none := by rw [h.ram, h.index, hs]
      rw [draw_of_outside hs, draw_of_outside hs', h.index]
      exact ⟨rfl, rfl, h⟩
  | some sprite =>
      have hs' : m'.ram.slice? m'.index rows = some sprite := by rw [h.ram, h.index, hs]
      have hflip : flipAll m'.screen (m'.targets x y sprite) = flipAll m.screen (m.targets x y sprite) := by
        rw [h.screen, h.targets hx hy]
      rcases hf : flipAll m.screen (m.targets x y sprite) with ⟨_ | erased, screen⟩
      · rw [draw_of_refused hs hf, draw_of_refused hs' (hflip.trans hf)]
        exact ⟨rfl, rfl, { h with screen := rfl }⟩
      · rw [draw_of_flipped hs hf, draw_of_flipped hs' (hflip.trans hf)]
        -- the rules for VF may differ, and only here do they matter
        refine ⟨rfl, rfl, { h with screen := rfl, v := ?_ }⟩
        intro r hr
        simp only [FlagRule.get_update _ _ _ hr]
        exact h.v r hr

theorem execute (h : m.SameButFlag m') {i : Instr} (hi : i.placesByFlag = false) (pc word : UInt16) :
    Step.SameButFlag (m.execute pc word i) (m'.execute pc word i) := by
  cases i with
  | cls => exact ⟨rfl, rfl, { h with screen := congrArg Screen.clear h.screen }⟩
  | jp target => exact ⟨rfl, rfl, { h with pc := rfl }⟩
  | ld x byte =>
      refine ⟨rfl, rfl, { h with v := ?_ }⟩
      intro r hr
      refine (get_set m'.v x r _ x.isLt).trans (Eq.trans ?_ (get_set m.v x r _ x.isLt).symm)
      rw [h.v r hr]
  | add x byte =>
      refine ⟨rfl, rfl, { h with v := ?_ }⟩
      intro r hr
      refine (get_set m'.v x r _ x.isLt).trans (Eq.trans ?_ (get_set m.v x r _ x.isLt).symm)
      by_cases hx : x = r
      · subst hx
        rw [if_pos rfl, if_pos rfl]
        exact congrArg (· + byte) (h.v x hr)
      · rw [if_neg hx, if_neg hx, h.v r hr]
  | ldI target => exact ⟨rfl, rfl, { h with index := rfl }⟩
  | drw x y rows =>
      obtain ⟨hx, hy⟩ : x ≠ Register.flag ∧ y ≠ Register.flag := by simpa [Instr.placesByFlag] using hi
      exact h.draw hx hy rows pc word
  | unknown word' => exact ⟨rfl, rfl, h⟩

theorem step (h : m.SameButFlag m') (hi : ∀ i ∈ m.current?, i.placesByFlag = false) :
    Step.SameButFlag m.step m'.step := by
  cases hf : m.fetch with
  | error e =>
      rw [step_of_error hf, step_of_error (h.fetch.trans hf)]
      exact ⟨rfl, rfl, h⟩
  | ok word =>
      have hfetched : SameButFlag { m with pc := m.pc + 2 } { m' with pc := m'.pc + 2 } :=
        { h with pc := congrArg (· + 2) h.pc }
      have he := hfetched.execute (hi _ (current?_of_ok hf)) m.pc word
      have hs' := step_of_ok (h.fetch.trans hf)
      rw [h.pc] at he hs'
      rw [step_of_ok hf, hs']
      exact ⟨he.result, congrArg (_ :: ·) he.events, he.machine⟩

theorem after (h : m.SameButFlag m') (n : Nat)
    (hplaced : ∀ k < n, ∀ i ∈ (m.after k).current?, i.placesByFlag = false) : (m.after n).SameButFlag (m'.after n) := by
  induction n with
  | zero => exact h
  | succ n ih =>
      have hn := ih fun k hk => hplaced k (Nat.lt_succ_of_lt hk)
      exact (hn.step (hplaced n (Nat.lt_succ_self n))).machine

end Machine.SameButFlag

namespace Machine

theorem sameButFlag_of_v {σ : Type} (m : Machine σ) (rule : FlagRule) {v : Vector UInt8 16}
    (hv : ∀ r, r ≠ Register.flag → v.get r = m.v.get r) :
    m.SameButFlag { m with rules := { m.rules with flag := rule }, v } :=
  ⟨rfl, rfl, rfl, hv, rfl, rfl, rfl, rfl, rfl, rfl⟩

/-- VF and the rule for it do not leak: machines that differ in nothing else answer alike step after step, log the same
and never come to differ in anything else, as long as no draw that is executed takes a coordinate from VF. -/
theorem flag_confined {σ : Type} [Screen σ] {m m' : Machine σ} (h : m.SameButFlag m') (n : Nat)
    (hplaced : ∀ k < n, ∀ i ∈ (m.after k).current?, i.placesByFlag = false) :
    ∀ k < n, (m'.after k).step.result = (m.after k).step.result ∧
      (m'.after k).step.events = (m.after k).step.events ∧ (m.after (k + 1)).SameButFlag (m'.after (k + 1)) := by
  intro k hk
  have hbefore := h.after k fun j hj => hplaced j (Nat.lt_trans hj hk)
  have hstep := hbefore.step (hplaced k hk)
  exact ⟨hstep.result, hstep.events, hstep.machine⟩

/-- A zero, the upper half of a one on top of it, a count in VF, and a one that is cut short at the right edge. -/
theorem flag_confined_cut_short :
    let program := #[0xD0, 0x05, 0xA0, 0x05, 0xD0, 0x02, 0x7F, 0x01, 0x61, 0x3D, 0xD1, 0x05]
    let m := ((start ({} : Headless) {}).loadProgram program).2
    let m' := { m with rules := { m.rules with flag := .any }, v := (Vector.replicate 15 0).push 7 }
    m.SameButFlag m' ∧ (∀ k < 6, ∀ i ∈ (m.after k).current?, i.placesByFlag = false) ∧
      (m'.after 5).step.result = .error (.screen 0x20A 0xD105 (.offGrid 64 4)) ∧
      (m.after 6).SameButFlag (m'.after 6) ∧ ((m.after 6).register 0xF, (m'.after 6).register 0xF) = (1, 2) := by
  intro program m m'
  have h : m.SameButFlag m' := m.sameButFlag_of_v .any (by decide)
  have hplaced : ∀ k < 6, ∀ i ∈ (m.after k).current?, i.placesByFlag = false := by decide
  have hresult : (m.after 5).step.result = .error (.screen 0x20A 0xD105 (.offGrid 64 4)) := by decide
  obtain ⟨hr, -, hm⟩ := flag_confined h 6 hplaced 5 (by decide)
  exact ⟨h, hplaced, hr.trans hresult, hm, by decide⟩

end Machine

end ChipEight
