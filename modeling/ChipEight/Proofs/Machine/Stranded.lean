import ChipEight.Proofs.Machine.Verdict
import Mathlib.Logic.Function.Iterate

/-!
A machine that has run off memory. Nothing it is told to do gets it going again: no word can be read at PC, whatever is
loaded there, and so PC does not move.
-/

namespace ChipEight

/-- A command to the machine. The others go past it to its screen. -/
def Command.toMachine : Command → Bool
  | .call (.toggle _ _) | .call .clear | .call .render => false
  | _ => true

namespace Session

variable {σ : Type} [Screen σ] {s t : Session σ}

theorem step_of_ranOff (h : 0xFFF ≤ s.machine.pc.toNat) : s.step = (.error (.ranOff s.machine.pc), s) := by
  have hf := Machine.fetch_of_no_word (Machine.word?_eq_none_iff.mpr h)
  rw [step, Machine.step_of_error hf]
  exact Prod.ext rfl (congrArg (Session.mk s.machine) Array.appendList_nil)

theorem steps_of_ranOff (h : 0xFFF ≤ s.machine.pc.toNat) {n : Nat} (hn : 1 ≤ n) :
    s.steps n = (.error (.ranOff s.machine.pc), s) := by
  obtain ⟨n, rfl⟩ := Nat.exists_eq_add_of_le' hn
  exact steps_of_error (step_of_ranOff h) n

/-- Loading puts no word where PC is, and so the first step fails. -/
theorem run_of_ranOff (h : 0xFFF ≤ s.machine.pc.toNat) {program : Array UInt8}
    (hload : (s.loadProgram program).1 = .ok ()) (hopen : s.poll.1 = false) (budget : Nat) :
    (s.run (budget + 1) program).1 = some (.failed (.ranOff s.machine.pc)) := by
  cases hw : s.machine.ram.write program s.machine.ram.origin with
  | error e =>
      rw [loadProgram_of_error hw] at hload
      cases hload
  | ok ram =>
      let loaded := (s.withRam ram).note (.programLoaded program.size)
      have hpoll : loaded.poll = (false, loaded.poll.2) := Prod.ext hopen rfl
      have hstep : loaded.poll.2.step = (.error (.ranOff s.machine.pc), loaded.poll.2) := step_of_ranOff h
      rw [run_of_ok (loadProgram_of_ok hw), untilClosed_of_error hpoll hstep]

/-- What may have become of a session in which the machine has been told what to do while it could not read a word. -/
structure Stranded (s t : Session σ) : Prop where
  pc : t.machine.pc = s.machine.pc
  v : t.machine.v = s.machine.v
  index : t.machine.index = s.machine.index
  /-- The screen has been asked whether it is closed, and nothing else. -/
  asked : ∃ n, t.machine.screen = (fun u => (Screen.isClosed u).2)^[n] s.machine.screen
  /-- No word has been traced. -/
  log : ∃ events, t.log.toList = s.log.toList ++ events ∧ ∀ e ∈ events, e.level = .debug

namespace Stranded

theorem refl (s : Session σ) : s.Stranded s :=
  ⟨rfl, rfl, rfl, ⟨0, rfl⟩, [], (List.append_nil _).symm, List.forall_mem_nil _⟩

theorem note (ht : s.Stranded t) {e : Event} (he : e.level = .debug) : s.Stranded (t.note e) := by
  obtain ⟨events, hlog, hevents⟩ := ht.log
  refine { ht with log := ⟨events ++ [e], ?_, ?_⟩ }
  · rw [Session.note, Array.toList_push, hlog, List.append_assoc]
  · exact List.forall_mem_append.mpr ⟨hevents, List.forall_mem_singleton.mpr he⟩

theorem load (ht : s.Stranded t) (data : Array UInt8) (address : UInt16) : s.Stranded (t.load data address).2 := by
  obtain ⟨ram, hram⟩ := t.machine.exists_ram_of_load data address
  have hload : (t.load data address).2 = t.withRam ram := congrArg (Session.mk · t.log) hram
  rw [hload]
  exact { ht with }

theorem poll (ht : s.Stranded t) : s.Stranded t.poll.2 := by
  obtain ⟨n, hn⟩ := ht.asked
  refine { ht with asked := ⟨n + 1, ?_⟩ }
  rw [Function.iterate_succ_apply', ← hn]
  rfl

theorem step_eq (ht : s.Stranded t) (h : 0xFFF ≤ s.machine.pc.toNat) :
    t.step = (.error (.ranOff s.machine.pc), t) := by
  rw [← ht.pc] at h ⊢
  exact step_of_ranOff h

theorem kept (h : 0xFFF ≤ s.machine.pc.toNat) : Kept s.Stranded where
  load {t} program ht := ht.load program t.machine.ram.origin
  loaded _ ht := ht.note rfl
  poll ht := ht.poll
  step ht := by rwa [ht.step_eq h]
  gone ht := ht.note rfl

theorem obey (h : 0xFFF ≤ s.machine.pc.toNat) (ht : s.Stranded t) {c : Command} (hc : c.toMachine) :
    s.Stranded (t.obey c) := by
  cases c with
  | call c =>
      cases c with
      | ask r =>
          cases r with
          | load data address => exact ht.load data address
          | loadProgram program => exact (kept h).load program ht
          | step => exact (kept h).step ht
      | steps n => exact (kept h).steps n ht
      | _ => cases hc
  | poll => exact ht.poll
  | run program budget => exact (kept h).run program budget ht
  | setSpeed hz => exact { ht with }

theorem after (h : 0xFFF ≤ s.machine.pc.toNat) {commands : List Command} (hcommands : ∀ c ∈ commands, c.toMachine)
    (ht : s.Stranded t) : s.Stranded (t.after commands) := by
  induction commands generalizing t with
  | nil => exact ht
  | cons c commands ih =>
      obtain ⟨hc, hrest⟩ := List.forall_mem_cons.mp hcommands
      exact ih hrest (ht.obey h hc)

end Stranded

/-- To ask whether it is closed is no call that a screen is recorded to have had. -/
theorem Stranded.calls_eq {s t : Session (Recorded σ)} (h : s.Stranded t) :
    t.machine.screen.calls = s.machine.screen.calls := by
  obtain ⟨n, hn⟩ := h.asked
  rw [hn]
  clear hn
  induction n with
  | zero => rfl
  | succ n ih => rw [Function.iterate_succ_apply', ← ih]; rfl

/-- Once PC is at the last byte of memory or past it, a machine stays put, whatever it is told to do, whatever bytes are
loaded and whatever that answers. PC, I and the registers are what they were; each step fails in the same way and
changes nothing, and so do any number of them and a run that gets as far as one; the screen is asked whether it is
closed and nothing else, and no word is traced. -/
theorem stranded_stays (h : 0xFFF ≤ s.machine.pc.toNat) {commands : List Command}
    (hcommands : ∀ c ∈ commands, c.toMachine) :
    let t := s.after commands
    let watched := (s.recorded s.machine.screen).after commands
    let fault := Fault.ranOff s.machine.pc
    (t.machine.pc = s.machine.pc ∧ t.machine.v = s.machine.v ∧ t.machine.index = s.machine.index) ∧
    (s.step.1 = .error fault ∧ t.step = (.error fault, t) ∧ ∀ n ≥ 1, t.steps n = (.error fault, t)) ∧
    (∀ program budget, (t.loadProgram program).1 = .ok () → t.poll.1 = false →
      (t.run (budget + 1) program).1 = some (.failed fault)) ∧
    (t.machine = watched.machine.map Recorded.screen ∧ watched.machine.screen.calls = []) ∧
    (∃ n, t.machine.screen = (fun u => (Screen.isClosed u).2)^[n] s.machine.screen) ∧
    ∃ events, t.log.toList = s.log.toList ++ events ∧ ∀ e ∈ events, e.level = .debug := by
  intro t watched fault
  have ht : s.Stranded t := (Stranded.refl s).after h hcommands
  have hpc : 0xFFF ≤ t.machine.pc.toNat := ht.pc.symm ▸ h
  have hrecorded : 0xFFF ≤ (s.recorded s.machine.screen).machine.pc.toNat := h
  have hwatched : (s.recorded s.machine.screen).Stranded watched := (Stranded.refl _).after hrecorded hcommands
  have hfault : Fault.ranOff t.machine.pc = fault := congrArg Fault.ranOff ht.pc
  refine ⟨⟨ht.pc, ht.v, ht.index⟩, ⟨congrArg Prod.fst (step_of_ranOff h), ht.step_eq h, ?_⟩, ?_, ⟨?_, hwatched.calls_eq⟩,
    ht.asked, ht.log⟩
  · intro n hn
    rw [← hfault]
    exact steps_of_ranOff hpc hn
  · intro program budget hload hopen
    rw [← hfault]
    exact run_of_ranOff hpc hload hopen budget
  · exact (Mirrors.after_recorded ⟨rfl, trivial⟩ commands).machine

/-- A jump to the last byte of memory, where the high byte of a load is put, then that of a jump. -/
theorem stranded_stays_last_byte :
    let s := (start ({} : Headless) {}).after
      [.call (.ask (.loadProgram #[0x1F, 0xFF])), .call (.ask (.load #[0x60] 0xFFF)), .call (.steps 1)]
    let commands : List Command :=
      [.call (.ask .step), .call (.ask (.load #[0x12] 0xFFF)), .run #[0x12, 0x00] 9]
    let t := s.after commands
    s.machine.pc = 0xFFF ∧ t.machine.pc = 0xFFF ∧ t.step.1 = .error (.ranOff 0xFFF) ∧
      (t.run 1 #[0x12, 0x00]).1 = some (.failed (.ranOff 0xFFF)) := by
  intro s commands t
  have hpc : s.machine.pc = 0xFFF := by decide
  have hlast : 0xFFF ≤ s.machine.pc.toNat := by decide
  have hcommands : ∀ c ∈ commands, c.toMachine := by simp [commands, Command.toMachine]
  obtain ⟨⟨hstays, -⟩, ⟨-, hstep, -⟩, hrun, -⟩ := stranded_stays hlast hcommands
  rw [hpc] at hstays hstep hrun
  exact ⟨hpc, hstays, congrArg Prod.fst hstep, hrun #[0x12, 0x00] 0 (by decide) rfl⟩

end Session

end ChipEight
