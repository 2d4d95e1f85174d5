import ChipEight.Proofs.Machine.Command
import ChipEight.Proofs.Machine.Step

/-!
What holds of a machine for as long as it lives. Its PC stays in memory or just past the end, what nothing uses stays as
it was, and a step leaves alone what its instruction does not name.
-/

namespace ChipEight

theorem Instr.toNat_nextPc_le (i : Instr) {pc : UInt16} (hpc : pc.toNat + 1 < 4096) : (i.nextPc pc).toNat ≤ 0x1000 := by
  have hnext : (pc + 2).toNat = pc.toNat + 2 := Machine.toNat_add_two hpc
  have hle : (pc + 2).toNat ≤ 0x1000 := by omega
  cases i with
  | jp target =>
      have htarget := target.isLt
      simp only [nextPc, UInt16.toNat_ofNat']
      omega
  | _ => exact hle

theorem Instr.toNat_nextIndex_le (i : Instr) {index : UInt16} (hindex : index.toNat ≤ 0xFFF) :
    (i.nextIndex index).toNat ≤ 0xFFF := by
  cases i with
  | ldI target =>
      have htarget := target.isLt
      simp only [nextIndex, UInt16.toNat_ofNat']
      omega
  | _ => exact hindex

namespace Machine

variable {σ : Type} {m : Machine σ}

structure WellFormed (m : Machine σ) : Prop where
  origin : m.ram.origin = 0x200
  /-- 0x1000 is where PC stands after the last word of memory. -/
  pc : m.pc.toNat ≤ 0x1000
  index : m.index.toNat ≤ 0xFFF
  stack : m.stack = []
  delay : m.delay = 0
  sound : m.sound = 0

namespace WellFormed

theorem start (screen : σ) (rules : Rules) : (start screen rules).WellFormed where
  origin := rfl
  pc := show (0x200 : UInt16).toNat ≤ 0x1000 by decide
  index := Nat.zero_le _
  stack := rfl
  delay := rfl
  sound := rfl

theorem load (data : Array UInt8) (address : UInt16) (h : m.WellFormed) : (m.load data address).2.WellFormed := by
  unfold Machine.load Ram.write
  cases hedit : m.ram.edit? address data.size (fun i b => data[i]?.getD b) with
  | none => exact h
  | some ram => exact { h with origin := (Ram.origin_edit hedit).trans h.origin }

variable [Screen σ]

theorem step (h : m.WellFormed) : m.step.machine.WellFormed := by
  have he := m.step_effect
  refine ⟨he.ram ▸ h.origin, ?_, ?_, he.stack.trans h.stack, he.delay.trans h.delay, he.sound.trans h.sound⟩
  · rw [he.pc]
    cases hf : m.fetch with
    | error e =>
        rw [current?_of_error hf]
        exact h.pc
    | ok word =>
        rw [current?_of_ok hf]
        exact Instr.toNat_nextPc_le _ (pc_lt_of_fetch hf)
  · rw [he.index]
    cases m.current? with
    | none => exact h.index
    | some i => exact i.toNat_nextIndex_le h.index

theorem kept : Kept (σ := σ) WellFormed where
  load := load
  step := step
  screen _ h := { h with }
  setSpeed _ h := { h with }

theorem after (screen : σ) (rules : Rules) (commands : List Command) :
    ((Session.start screen rules).after commands).machine.WellFormed :=
  kept.after commands (start screen rules)

end WellFormed

theorem toNat_pc_add (h : m.WellFormed) {k : UInt16} (hk : k.toNat ≤ 2) : (m.pc + k).toNat = m.pc.toNat + k.toNat := by
  have hpc := h.pc
  rw [UInt16.toNat_add]
  omega

end Machine

namespace Session

/-- Whatever has been done to a machine since its start, and whatever went wrong with it: PC is in memory or just past
the end, where counting it up does not wrap; I is an address; the stack and the timers are not in use. One more step,
good or bad, leaves memory alone, changes no register but the one that its instruction names and I only on its own
instruction. -/
theorem step_after_commands {σ : Type} [Screen σ] (screen : σ) (rules : Rules) (commands : List Command) :
    let m := ((start screen rules).after commands).machine
    let m' := m.step.machine
    (m.pc.toNat ≤ 0x1000 ∧ m.index.toNat ≤ 0xFFF ∧ m.ram.toList.length = 4096 ∧ m.stack = [] ∧ m.delay = 0 ∧
      m.sound = 0) ∧
    ((m.pc + 1).toNat = m.pc.toNat + 1 ∧ (m.pc + 2).toNat = m.pc.toNat + 2) ∧
    m'.ram = m.ram ∧
    (∀ r, m'.v.get r ≠ m.v.get r → m.current?.bind Instr.written? = some r) ∧
    (∀ x byte, m.current? = some (.ld x byte) → m'.v.get x = byte) ∧
    (∀ x byte, m.current? = some (.add x byte) → (m'.v.get x).toNat = ((m.v.get x).toNat + byte.toNat) % 256) ∧
    (m'.index ≠ m.index → ∃ target, m.current? = some (.ldI target)) := by
  intro m m'
  have hm : m.WellFormed := .after screen rules commands
  have he : Machine.Effect m.current? m m' := m.step_effect
  refine ⟨⟨hm.pc, hm.index, List.length_ofFn, hm.stack, hm.delay, hm.sound⟩,
    ⟨Machine.toNat_pc_add hm (by decide), Machine.toNat_pc_add hm (by decide)⟩, he.ram, fun r hr => he.get_of_written hr,
    he.ld, ?_, ?_⟩
  · intro x byte hi
    rw [he.add x byte hi, UInt8.toNat_add]
  · intro hindex
    rw [he.index] at hindex
    cases hi : m.current? with
    | none =>
        rw [hi] at hindex
        exact absurd rfl hindex
    | some i =>
        rw [hi] at hindex
        cases i with
        | ldI target => exact ⟨target, rfl⟩
        | _ => exact absurd rfl hindex

end Session

end ChipEight
