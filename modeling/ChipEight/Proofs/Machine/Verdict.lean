import ChipEight.Proofs.Machine.Protocol

/-!
How a step ends, told by the place and the bits of the word at PC and by the answers of the screen.
-/

namespace ChipEight

namespace Instr

/-- The high nibble of a word. -/
def family (w : UInt16) : Nat := w.toNat / 0x1000

/-- The bits of a word that decodes to an instruction, as far as they say how a step with it ends. -/
def Tells (w : UInt16) : Instr → Prop
  | cls => w = 0x00E0
  | jp target => family w = 0x1 ∧ target.val = w.toNat % 0x1000
  | ld .. => family w = 0x6
  | add .. => family w = 0x7
  | ldI _ => family w = 0xA
  | drw _ _ rows => family w = 0xD ∧ rows.val = w.toNat % 0x10
  | unknown word => word = w ∧ w ≠ 0x00E0 ∧ family w ∉ [0x1, 0x6, 0x7, 0xA, 0xD]

theorem tells_decode (w : UInt16) : (decode w).Tells w := by
  unfold decode
  split
  · rename_i hfamily
    split
    · assumption
    · rename_i hne
      exact ⟨rfl, hne, by simp [family, hfamily]⟩
  · rename_i hfamily
    exact ⟨hfamily, rfl⟩
  · assumption
  · assumption
  · assumption
  · rename_i hfamily
    exact ⟨hfamily, rfl⟩
  · rename_i h0 h1 h6 h7 hA hD
    refine ⟨rfl, ?_, ?_⟩
    · rintro rfl
      exact h0 rfl
    · simp_all [family]

theorem Tells.toNat_nextPc {w : UInt16} {i : Instr} (h : i.Tells w) {pc : UInt16} (hpc : pc.toNat < 0xFFF) :
    (i.nextPc pc).toNat = if family w = 0x1 then w.toNat % 0x1000 else pc.toNat + 2 := by
  have hnext : (pc + 2).toNat = pc.toNat + 2 := Machine.toNat_add_two (Nat.succ_lt_succ hpc)
  cases i with
  | jp target =>
      obtain ⟨hfamily, htarget⟩ := h
      have hlt := target.isLt
      rw [if_pos hfamily, nextPc, UInt16.toNat_ofNat', htarget]
      omega
  | cls =>
      obtain rfl : w = 0x00E0 := h
      exact hnext
  | unknown word =>
      obtain ⟨-, -, hfamily⟩ := h
      have hne : family w ≠ 0x1 := fun h1 => hfamily (h1 ▸ List.mem_cons_self)
      rw [if_neg hne]
      exact hnext
  | ld | add | ldI =>
      have hfamily : family w = _ := h
      rw [hfamily]
      exact hnext
  | drw x y rows =>
      rw [h.1]
      exact hnext

end Instr

namespace Machine

variable {σ : Type} {m : Machine σ}

theorem word?_eq_none_iff : m.word? = none ↔ 0xFFF ≤ m.pc.toNat := by
  unfold word?
  split
  · exact iff_of_false nofun (by omega)
  · exact iff_of_true rfl (by omega)

theorem fetch_of_word {word : UInt16} (h : m.word? = some word) : m.fetch = .ok word := by
  rw [fetch_eq, h]
  rfl

theorem fetch_of_no_word (h : m.word? = none) : m.fetch = .error (.ranOff m.pc) := by
  rw [fetch_eq, h]
  rfl

section

variable {word : UInt16} {i : Instr}

theorem verdictFor_of_draw (m : Machine σ) (pc : UInt16) (calls : List ScreenCall) (h : i.Tells word)
    (hfamily : Instr.family word = 0xD) :
    let rows := word.toNat % 0x10
    if m.index.toNat + rows ≤ 4096 then
      m.verdictFor pc word calls i = (firstFailure? calls).elim (.ok ()) fun e => .error (.screen pc word e)
    else
      m.verdictFor pc word calls i = .error (.spriteOutside pc word m.index (UInt8.ofNat rows)) ∧ m.planFor i = [] := by
  intro rows
  cases i with
  | drw x y n =>
      obtain ⟨-, hrows⟩ := h
      have hrows : n.val = rows := hrows
      rw [verdictFor, planFor, hrows]
      split
      · rfl
      · exact ⟨rfl, rfl⟩
  | cls =>
      obtain rfl : word = 0x00E0 := h
      cases hfamily
  | jp target => cases h.1.symm.trans hfamily
  | unknown w => exact absurd (by simp [hfamily]) h.2.2
  | ld | add | ldI =>
      have h' : Instr.family word = _ := h
      cases h'.symm.trans hfamily

theorem verdictFor_of_not_draw (m : Machine σ) (pc : UInt16) (calls : List ScreenCall) (h : i.Tells word)
    (hfamily : Instr.family word ≠ 0xD) :
    m.verdictFor pc word calls i =
      if word ≠ 0x00E0 ∧ Instr.family word ∉ [0x1, 0x6, 0x7, 0xA, 0xD] then .error (.unknownWord pc word) else .ok () := by
  cases i with
  | unknown w =>
      obtain ⟨rfl, hword⟩ := h
      rw [if_pos hword]
      rfl
  | drw x y rows => exact absurd h.1 hfamily
  | cls => rw [if_neg fun h' => h'.1 h]; rfl
  | jp target => rw [if_neg fun h' => h'.2 (by simp [h.1])]; rfl
  | ld | add | ldI =>
      have h' : Instr.family word = _ := h
      rw [if_neg fun hnot => hnot.2 (by simp [h'])]
      rfl

end

variable [Screen σ] {word : UInt16}

theorem toNat_pc_step (h : m.word? = some word) :
    m.step.machine.pc.toNat = if Instr.family word = 0x1 then word.toNat % 0x1000 else m.pc.toNat + 2 := by
  have hpc : m.pc.toNat < 0xFFF := by
    refine Nat.lt_of_not_le fun hle => ?_
    rw [word?_eq_none_iff.mpr hle] at h
    cases h
  rw [m.step_effect.pc, current?_of_ok (fetch_of_word h)]
  exact (Instr.tells_decode word).toNat_nextPc hpc

theorem result_step (h : m.word? = some word) :
    let rows := word.toNat % 0x10
    m.step.result =
      if Instr.family word = 0xD then
        if m.index.toNat + rows ≤ 4096 then
          (firstFailure? m.calls).elim (.ok ()) fun e => .error (.screen m.pc word e)
        else .error (.spriteOutside m.pc word m.index (UInt8.ofNat rows))
      else if word ≠ 0x00E0 ∧ Instr.family word ∉ [0x1, 0x6, 0x7, 0xA, 0xD] then .error (.unknownWord m.pc word)
      else .ok () := by
  intro rows
  rw [(step_follows (fetch_of_word h)).2]
  have htells : (Instr.decode word).Tells word := Instr.tells_decode word
  split
  · rename_i hfamily
    have hdraw := m.verdictFor_of_draw m.pc m.calls htells hfamily
    split
    · rename_i hfits
      rwa [if_pos hfits] at hdraw
    · rename_i hfits
      rw [if_neg hfits] at hdraw
      exact hdraw.1
  · rename_i hfamily
    exact m.verdictFor_of_not_draw m.pc m.calls htells hfamily

theorem calls_of_sprite_outside (h : m.word? = some word) (hfamily : Instr.family word = 0xD)
    (houtside : 4096 < m.index.toNat + word.toNat % 0x10) : m.calls = [] := by
  have hdraw := m.verdictFor_of_draw m.pc m.calls (Instr.tells_decode word) hfamily
  rw [if_neg (Nat.not_le.mpr houtside)] at hdraw
  have hfollows := (step_follows (fetch_of_word h)).1
  rw [hdraw.2] at hfollows
  exact hfollows.eq_nil

/-- How a step ends is told by where the machine is and what it reads there, and for a draw by what the screen answers
in that draw. There is no word at PC just if PC is 0xFFF or above, and then nothing happens at all. Otherwise PC moves
on; a word of no family that is understood is reported as such, a sprite that runs past memory as that, and a draw in
which the screen fails with the first failure; any other step succeeds. A report names the place and the word. -/
theorem step_blames (m : Machine σ) :
    let s := m.step
    (m.word? = none ↔ 0xFFF ≤ m.pc.toNat) ∧
    (s.result = .error (.ranOff m.pc) ↔ 0xFFF ≤ m.pc.toNat) ∧
    (0xFFF ≤ m.pc.toNat → s.machine = m ∧ m.calls = []) ∧
    ∀ word, m.word? = some word →
      let family := Instr.family word
      let rows := word.toNat % 0x10
      s.machine.pc.toNat = (if family = 0x1 then word.toNat % 0x1000 else m.pc.toNat + 2) ∧
      (s.result = .error (.unknownWord m.pc word) ↔ word ≠ 0x00E0 ∧ family ∉ [0x1, 0x6, 0x7, 0xA, 0xD]) ∧
      (s.result = .error (.spriteOutside m.pc word m.index (UInt8.ofNat rows)) ↔
        family = 0xD ∧ 4096 < m.index.toNat + rows) ∧
      (family = 0xD → 4096 < m.index.toNat + rows → m.calls = []) ∧
      (∀ cause, s.result = .error (.screen m.pc word cause) ↔
        family = 0xD ∧ m.index.toNat + rows ≤ 4096 ∧ firstFailure? m.calls = some cause) ∧
      ∀ e, s.result = .error e → e = .unknownWord m.pc word ∨
        e = .spriteOutside m.pc word m.index (UInt8.ofNat rows) ∨ ∃ cause, e = .screen m.pc word cause := by
  intro s
  refine ⟨word?_eq_none_iff, ?_⟩
  cases hword : m.word? with
  | none =>
      have hpc := word?_eq_none_iff.mp hword
      have hf := fetch_of_no_word hword
      have hs : s = ⟨.error (.ranOff m.pc), [], m⟩ := step_of_error hf
      exact ⟨iff_of_true (congrArg Step.result hs) hpc, fun _ => ⟨congrArg Step.machine hs, calls_of_error hf⟩, nofun⟩
  | some word =>
      have hpc : ¬ 0xFFF ≤ m.pc.toNat := fun hle => nomatch hword.symm.trans (word?_eq_none_iff.mpr hle)
      have hresult : s.result = _ := result_step hword
      refine ⟨iff_of_false ?_ hpc, fun hle => absurd hle hpc, ?_⟩
      · rw [hresult]
        split_ifs
        · cases firstFailure? m.calls <;> simp
        · simp
        · simp
        · simp
      rintro _ ⟨⟩ family rows
      refine ⟨toNat_pc_step hword, ?_⟩
      by_cases hdraw : family = 0xD
      · rw [if_pos hdraw] at hresult
        by_cases hfits : m.index.toNat + rows ≤ 4096
        · have hin : ¬ 4096 < m.index.toNat + rows := Nat.not_lt.mpr hfits
          rw [if_pos hfits] at hresult
          cases hfailure : firstFailure? m.calls with
          | none =>
              rw [hfailure, Option.elim_none] at hresult
              simp [hresult, hdraw, hin]
          | some cause =>
              rw [hfailure, Option.elim_some] at hresult
              simp [hresult, hdraw, hin, hfits]
        · have hcalls : m.calls = [] := calls_of_sprite_outside hword hdraw (Nat.lt_of_not_le hfits)
          rw [if_neg hfits] at hresult
          simp [hresult, hdraw, hcalls, Nat.lt_of_not_le hfits, hfits, rows]
      · rw [if_neg hdraw] at hresult
        by_cases hunknown : word ≠ 0x00E0 ∧ family ∉ [0x1, 0x6, 0x7, 0xA, 0xD]
        · rw [if_pos hunknown] at hresult
          simp [hresult, hdraw, hunknown]
        · rw [if_neg hunknown] at hresult
          simpa [hresult, hdraw] using hunknown

/-- Five rows at 0xFFB end with memory, six run past it; and the screen breaks at the third pixel of a zero. -/
theorem step_blames_last_rows :
    let m := ((start ({} : Headless) {}).loadProgram #[0xAF, 0xFB, 0xD0, 0x15, 0xD0, 0x16]).2
    let z := ((start ({ script := { failPixelAt := some 3 } } : Scripted) {}).loadProgram #[0xD0, 0x15]).2
    (m.after 1).step.result = .ok () ∧ (m.after 2).word? = some 0xD016 ∧
      (m.after 2).step.result = .error (.spriteOutside 0x204 0xD016 0xFFB 6) ∧ (m.after 2).calls = [] ∧
      z.word? = some 0xD015 ∧ firstFailure? z.calls = some .crashed ∧
      z.step.result = .error (.screen 0x200 0xD015 .crashed) := by
  intro m z
  have hm : (m.after 2).word? = some 0xD016 := by decide
  have hz : z.word? = some 0xD015 := by decide
  have hfailure : firstFailure? z.calls = some .crashed := by decide
  obtain ⟨-, -, -, hword⟩ := step_blames (m.after 2)
  obtain ⟨-, -, houtside, hcalls, -, -⟩ := hword 0xD016 hm
  have hplace : ((m.after 2).pc, (m.after 2).index) = (0x204, 0xFFB) := by decide
  obtain ⟨hpc, hindex⟩ := Prod.mk.inj hplace
  rw [hpc, hindex] at houtside
  obtain ⟨-, -, -, hword⟩ := step_blames z
  obtain ⟨-, -, -, -, hscreen, -⟩ := hword 0xD015 hz
  refine ⟨by decide, hm, houtside.mpr (by decide), hcalls (by decide) (by decide), hz, hfailure, ?_⟩
  exact (hscreen .crashed).mpr ⟨by decide, by decide, hfailure⟩

end Machine

end ChipEight
