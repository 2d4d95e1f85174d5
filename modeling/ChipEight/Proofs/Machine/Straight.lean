import ChipEight.Proofs.Machine.Faults
import ChipEight.Proofs.Machine.WellFormed
import ChipEight.Proofs.Program.Tracing

/-!
Runs without jumps. Each step that succeeds moves PC on by one word, and there is memory for only so many words.
-/

namespace ChipEight

namespace Machine

variable {σ : Type}

/-- The instruction at PC is a jump. -/
def atJump (m : Machine σ) : Bool :=
  match m.current? with
  | some (.jp _) => true
  | _ => false

variable [Screen σ]

theorem toNat_pc_step_of_ok {m : Machine σ} (h : m.step.result = .ok ()) (hjump : m.atJump = false) :
    m.step.machine.pc.toNat = m.pc.toNat + 2 ∧ m.step.machine.pc.toNat ≤ 0x1000 := by
  rcases hf : m.fetch with e | word
  · rw [step_of_error hf] at h
    cases h
  · have hpc := pc_lt_of_fetch hf
    have hi := current?_of_ok hf
    rw [m.step_effect.pc, hi, Option.elim_some]
    rw [atJump, hi] at hjump
    have hnext : (m.pc + 2).toNat = m.pc.toNat + 2 := toNat_add_two hpc
    refine ⟨?_, Instr.toNat_nextPc_le _ hpc⟩
    generalize Instr.decode word = i at hjump
    cases i with
    | jp target => cases hjump
    | _ => exact hnext

end Machine

namespace Session

variable {σ : Type} [Screen σ] {s s' t : Session σ} {n : Nat}

theorem toNat_pc_of_step (h : s.step = (.ok (), s')) (hjump : s.machine.atJump = false) :
    s'.machine.pc.toNat = s.machine.pc.toNat + 2 ∧ s'.machine.pc.toNat ≤ 0x1000 := by
  have hresult : s.machine.step.result = .ok () := congrArg Prod.fst h
  have hmachine : s.machine.step.machine = s'.machine := congrArg (·.2.machine) h
  rw [← hmachine]
  exact Machine.toNat_pc_step_of_ok hresult hjump

/-- By induction on the number of steps: PC counts them, and has not left memory. -/
theorem toNat_pc_steps (hpc : s.machine.pc.toNat ≤ 0x1000) (h : s.steps n = (.ok (), t))
    (hjump : ∀ m ∈ s.course n, m.atJump = false) :
    t.machine.pc.toNat = s.machine.pc.toNat + 2 * n ∧ t.machine.pc.toNat ≤ 0x1000 := by
  induction n generalizing t with
  | zero =>
      cases h
      exact ⟨rfl, hpc⟩
  | succ n ih =>
      rcases hs : s.steps n with ⟨e | _, reached⟩
      · rw [steps_succ_of_error hs] at h
        cases h
      · rw [steps_succ_of_ok hs] at h
        rw [course_succ_of_ok hs] at hjump
        obtain ⟨hbefore, -⟩ := ih hs fun m hm => hjump m (List.mem_append_left _ hm)
        obtain ⟨hstep, hle⟩ := toNat_pc_of_step h (hjump _ (List.mem_append_right _ (List.mem_singleton_self _)))
        exact ⟨by omega, hle⟩

/-- So it does where the screen is asked before each step. -/
theorem Rounds.toNat_pc (hr : Rounds n s t) (hpc : s.machine.pc.toNat ≤ 0x1000)
    (hjump : ∀ k u reached, Rounds k s u → u.poll = (false, reached) → reached.machine.atJump = false) :
    t.machine.pc.toNat = s.machine.pc.toNat + 2 * n ∧ t.machine.pc.toNat ≤ 0x1000 := by
  induction hr with
  | zero s => exact ⟨rfl, hpc⟩
  | @succ n s polled s' t hpoll hstep _ ih =>
      have hpolled : s.machine.pc = polled.machine.pc := congrArg (·.2.machine.pc) hpoll
      obtain ⟨hfirst, hle⟩ := toNat_pc_of_step hstep (hjump 0 s polled (.zero s) hpoll)
      rw [← hpolled] at hfirst
      obtain ⟨hrest, hle⟩ := ih hle fun k u reached hr hp => hjump (k + 1) u reached (.succ hpoll hstep hr) hp
      exact ⟨by omega, hle⟩

theorem untilClosed_fails {P : σ → Prop} (hP : Screen.Keeps P) (hopen : ∀ u, P u → (Screen.isClosed u).1 = false)
    (hs : P s.machine.screen) (hpc : s.machine.pc.toNat ≤ 0x1000) {budget : Nat} (hbudget : 2049 ≤ budget)
    (hjump : ∀ k u reached, Rounds k s u → u.poll = (false, reached) → reached.machine.atJump = false) :
    ∃ e, (s.untilClosed budget).1 = some (.failed e) := by
  have hcourse := s.untilClosed_course budget
  generalize s.untilClosed budget = ran at hcourse ⊢
  obtain ⟨ending, last⟩ := ran
  cases hcourse with
  | @closed k u polled hr hpoll =>
      have hpolled : (Screen.isClosed u.machine.screen).1 = true := congrArg Prod.fst hpoll
      rw [hopen _ (hr.kept hP.kept hs)] at hpolled
      cases hpolled
  | failed => exact ⟨_, rfl⟩
  | going hr =>
      -- So many rounds would have taken PC further than past the end of memory.
      obtain ⟨hcount, hle⟩ := hr.toNat_pc hpc hjump
      omega

/-- Whatever has been done to a machine since its start: `k` steps in a row that all succeed, and of which none is a jump,
take 2 * `k` bytes, and there are no more than that from PC to the end of memory. So a fresh machine, whatever is loaded,
makes at most 1792 steps before it jumps or fails, no machine makes 2049 steps in a row without a jump, and a run in
which the screen is never closed and no word read is a jump fails. -/
theorem ends_without_jump (screen : σ) (rules : Rules) (commands : List Command) :
    let s := (start screen rules).after commands
    let p := s.machine.pc.toNat
    (∀ k, (s.steps k).1 = .ok () → (∀ m ∈ s.course k, m.atJump = false) → p ≤ 4096 ∧ 2 * k ≤ 4096 - p) ∧
    (∀ ram k, let fresh := (start screen rules).withRam ram
      (fresh.steps k).1 = .ok () → (∀ m ∈ fresh.course k, m.atJump = false) → k ≤ 1792) ∧
    (∀ k ≥ 2049, (s.steps k).1 = .ok () → ∃ m ∈ s.course k, m.atJump = true) ∧
    ∀ P : σ → Prop, Screen.Keeps P → (∀ u, P u → (Screen.isClosed u).1 = false) → P s.machine.screen →
      ∀ program budget, 2049 ≤ budget →
        (∀ reached, s.Passes (.run program budget) reached → reached.machine.atJump = false) →
        ∃ e, (s.run budget program).1 = some (.failed e) := by
  intro s p
  have hs : s.machine.WellFormed := .after screen rules commands
  refine ⟨?_, ?_, ?_, ?_⟩
  · intro k hk hjump
    obtain ⟨hcount, hle⟩ := toNat_pc_steps hs.pc (Prod.ext hk rfl) hjump
    omega
  · intro ram k fresh hk hjump
    have hpc : fresh.machine.pc.toNat = 0x200 := rfl
    obtain ⟨hcount, hle⟩ := toNat_pc_steps (by omega) (Prod.ext hk rfl) hjump
    omega
  · intro k hk hok
    by_contra hnone
    have hjump : ∀ m ∈ s.course k, m.atJump = false := fun m hm =>
      Bool.eq_false_iff.mpr fun hm' => hnone ⟨m, hm, hm'⟩
    obtain ⟨hcount, hle⟩ := toNat_pc_steps hs.pc (Prod.ext hok rfl) hjump
    omega
  · intro P hP hopen hscreen program budget hbudget hjump
    rcases hload : s.loadProgram program with ⟨e | _, loaded⟩
    · exact ⟨e, congrArg Prod.fst (run_of_error hload budget)⟩
    · have hloaded := hP.kept.load program hscreen
      have hpc : (s.loadProgram program).2.machine.WellFormed := Machine.WellFormed.load _ _ hs
      rw [hload] at hloaded hpc
      rw [run_of_ok hload]
      exact untilClosed_fails (s := loaded.note _) hP hopen hloaded hpc.pc hbudget fun k u reached hr hp =>
        hjump reached (.run hload hr hp)

/-- A jump to the last three words of memory, none of which is a jump: there is room for just three steps. The run loads
a jump as well, but never reads it. -/
theorem ends_without_jump_last_words :
    let commands : List Command :=
      [.call (.ask (.load #[0x60, 0x38, 0x70, 0x01, 0xA0, 0x05] 0xFFA)), .call (.ask (.loadProgram #[0x1F, 0xFA])),
        .call (.steps 1)]
    let s := (start ({} : Headless) {}).after commands
    let program := #[0x12, 0x00]
    ((s.steps 3).1 = .ok () ∧ (∀ m ∈ s.course 3, m.atJump = false) ∧ 2 * 3 ≤ 4096 - s.machine.pc.toNat) ∧
      s.machine.pc = 0xFFA ∧
      (∀ reached, s.Passes (.run program 2049) reached → reached.machine.atJump = false) ∧
      ∃ e, (s.run 2049 program).1 = some (.failed e) := by
  intro commands s program
  let loaded := (s.loadProgram program).2.note (.programLoaded 2)
  have hsteps : (s.steps 3).1 = .ok () := by decide
  have hcourse : ∀ m ∈ s.course 3, m.atJump = false := by decide
  have hjump : ∀ reached, s.Passes (.run program 2049) reached → reached.machine.atJump = false := by
    rintro reached (_ | _ | @⟨_, _, k, t, u, _, hload, hrounds, hpoll⟩)
    obtain rfl : (s.loadProgram program).2 = t := congrArg Prod.snd hload
    obtain rfl : _ = reached := congrArg Prod.snd hpoll
    have hk : loaded.steps k = (.ok (), u) := hrounds.steps_eq fun _ => rfl
    -- The fourth step fails, which leaves three words and the end of memory to be looked at.
    have hlt : k < 4 := by
      by_contra hge
      have hfourth : (loaded.steps 4).1 ≠ .ok () := by decide
      exact hfourth (steps_ok_of_le (congrArg Prod.fst hk) (Nat.le_of_not_lt hge))
    have hread : ∀ k < 4, (loaded.steps k).2.machine.atJump = false := by decide
    have hmachine := hread k hlt
    rwa [hk] at hmachine
  obtain ⟨hbound, -, -, hrun⟩ := ends_without_jump ({} : Headless) {} commands
  have hkeeps : Screen.Keeps fun _ : Headless => True :=
    ⟨fun _ => trivial, fun _ _ _ => trivial, fun _ => trivial, fun _ => trivial⟩
  exact ⟨⟨hsteps, hcourse, (hbound 3 hsteps hcourse).2⟩, by decide, hjump,
    hrun _ hkeeps (fun _ _ => rfl) trivial program 2049 (Nat.le_refl _) hjump⟩

end Session

end ChipEight
