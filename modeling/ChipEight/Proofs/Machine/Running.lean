import ChipEight.Proofs.Machine.Lockstep
import ChipEight.Screen.Scripted

/-!
Running until the screen is closed, and running for a number of steps. Both go the same way: the one stops where the
screen is closed, the other where the steps are up.
-/

namespace ChipEight

open Screen (Answers)

theorem Scripted.unpolled : Screen.Unpolled fun s : Scripted => { s with polls := 0 } where
  clear _ _ := ⟨rfl, trivial⟩
  toggle s x y _ := by
    refine ⟨?_, trivial⟩
    simp only [Screen.toggle, Scripted.toggle]
    split <;> rfl
  render s _ := by
    simp only [Screen.render, Scripted.render]
    split <;> exact ⟨rfl, rfl, trivial⟩
  poll _ := rfl

theorem Ram.write_of_fits {m : Ram} {data : Array UInt8} {address : UInt16} (h : Fits address data.size) :
    ∃ m', m.write data address = .ok m' := by
  cases hw : m.write data address with
  | ok m' => exact ⟨m', rfl⟩
  | error e => exact absurd h (write_eq_error_iff.mp hw).1

namespace Session

variable {σ τ : Type}

def withRam (s : Session σ) (ram : Ram) : Session σ := { s with machine := { s.machine with ram } }

theorem loadProgram_of_ok {s : Session σ} {program : Array UInt8} {ram : Ram}
    (h : s.machine.ram.write program s.machine.ram.origin = .ok ram) :
    s.loadProgram program = (.ok (), s.withRam ram) := by
  rw [loadProgram, Machine.loadProgram, Machine.load, h]
  rfl

theorem loadProgram_of_error {s : Session σ} {program : Array UInt8} {e : Fault}
    (h : s.machine.ram.write program s.machine.ram.origin = .error e) : s.loadProgram program = (.error e, s) := by
  rw [loadProgram, Machine.loadProgram, Machine.load, h]

/-! ## A number of steps -/

section

variable [Screen σ] {s s' : Session σ} {e : Fault} {k n : Nat}

theorem steps_add (s : Session σ) (a b : Nat) : s.steps (a + b) =
    match s.steps a with
    | (.ok (), s') => s'.steps b
    | (.error e, s') => (.error e, s') := by
  induction a generalizing s with
  | zero => rw [Nat.zero_add, steps]
  | succ a ih =>
      rw [Nat.succ_add]
      rcases hs : s.step with ⟨e | _, s'⟩
      · rw [steps_of_error hs, steps_of_error hs]
      · rw [steps_of_ok hs, steps_of_ok hs, ih s']

theorem steps_ok_of_le (h : (s.steps k).1 = .ok ()) (hn : n ≤ k) : (s.steps n).1 = .ok () := by
  rcases hs : s.steps n with ⟨e | _, s'⟩
  · rw [← Nat.add_sub_cancel' hn, steps_add, hs] at h
    cases h
  · rfl

theorem steps_of_lt {t : Session σ} (hk : s.steps k = (.ok (), t)) (h : t.step = (.error e, s')) (hn : k < n) :
    s.steps n = (.error e, s') := by
  obtain ⟨m, rfl⟩ := Nat.exists_eq_add_of_lt hn
  rw [Nat.add_assoc, steps_add, hk]
  exact steps_of_error h m

/-! ## Rounds of a run -/

/-- So many times, the screen is asked and is not closed, and then a step succeeds. -/
inductive Rounds : Nat → Session σ → Session σ → Prop where
  | zero (s : Session σ) : Rounds 0 s s
  | succ {n : Nat} {s polled s' s'' : Session σ} : s.poll = (false, polled) → polled.step = (.ok (), s') →
      Rounds n s' s'' → Rounds (n + 1) s s''

/-- On a screen that takes no notice of being asked, rounds are steps. -/
theorem Rounds.steps_eq (hasked : ∀ u : σ, (Screen.isClosed u).2 = u) (h : Rounds n s s') :
    s.steps n = (.ok (), s') := by
  induction h with
  | zero s => rfl
  | @succ n s polled s' s'' hpoll hstep _ ih =>
      have hpolled : s.poll.2 = s :=
        congrArg (fun screen => { s with machine := { s.machine with screen } }) (hasked s.machine.screen)
      obtain rfl : polled = s := (congrArg Prod.snd hpoll).symm.trans hpolled
      exact (steps_of_ok hstep n).trans ih

/-- The ways in which a run can go that asks the screen at most `budget` times. -/
inductive Course (budget : Nat) (s : Session σ) : Option Ending → Session σ → Prop where
  | closed {n : Nat} {s' polled : Session σ} : Rounds n s s' → s'.poll = (true, polled) →
      Course budget s (some .closed) (polled.note .screenGone)
  | failed {n : Nat} {s' polled last : Session σ} {e : Fault} : Rounds n s s' → s'.poll = (false, polled) →
      polled.step = (.error e, last) → Course budget s (some (.failed e)) last
  | going {s' : Session σ} : Rounds budget s s' → Course budget s none s'

theorem Course.succ {polled last : Session σ} {budget : Nat} {ending : Option Ending} (hpoll : s.poll = (false, polled))
    (hstep : polled.step = (.ok (), s')) (h : Course budget s' ending last) : Course (budget + 1) s ending last := by
  cases h with
  | closed hr hc => exact .closed (.succ hpoll hstep hr) hc
  | failed hr hp he => exact .failed (.succ hpoll hstep hr) hp he
  | going hr => exact .going (.succ hpoll hstep hr)

theorem untilClosed_course (s : Session σ) (budget : Nat) :
    Course budget s (s.untilClosed budget).1 (s.untilClosed budget).2 := by
  induction budget generalizing s with
  | zero => exact .going (.zero s)
  | succ budget ih =>
      rcases hpoll : s.poll with ⟨_ | _, polled⟩
      · rcases hstep : polled.step with ⟨e | _, s'⟩
        · rw [untilClosed_of_error hpoll hstep]
          exact .failed (.zero s) hpoll hstep
        · rw [untilClosed_of_ok hpoll hstep]
          exact (ih s').succ hpoll hstep
      · rw [untilClosed_of_closed hpoll]
        exact .closed (.zero s) hpoll

theorem untilClosed_add {budget : Nat} (h : (s.untilClosed budget).1.isSome) (more : Nat) :
    s.untilClosed (budget + more) = s.untilClosed budget := by
  induction budget generalizing s with
  | zero => cases h
  | succ budget ih =>
      rw [Nat.succ_add]
      rcases hpoll : s.poll with ⟨_ | _, polled⟩
      · rcases hstep : polled.step with ⟨e | _, s'⟩
        · rw [untilClosed_of_error hpoll hstep, untilClosed_of_error hpoll hstep]
        · rw [untilClosed_of_ok hpoll hstep] at h
          rw [untilClosed_of_ok hpoll hstep, untilClosed_of_ok hpoll hstep]
          exact ih h
      · rw [untilClosed_of_closed hpoll, untilClosed_of_closed hpoll]

theorem run_add {budget : Nat} {program : Array UInt8} (h : (s.run budget program).1.isSome) (more : Nat) :
    s.run (budget + more) program = s.run budget program := by
  rcases hload : s.loadProgram program with ⟨e | _, s'⟩
  · rw [run_of_error hload, run_of_error hload]
  · rw [run_of_ok hload] at h
    rw [run_of_ok hload, run_of_ok hload]
    exact untilClosed_add h more

theorem step_answered (s : Session σ) :
    ∃ calls, Answers s.machine.screen calls s.step.2.machine.screen ∧
      ∀ {τ : Type} [Screen τ] {t : Session τ} {u u' : τ}, t.machine = s.machine.on u → Answers u calls u' →
        t.step.1 = s.step.1 ∧ t.step.2.machine = s.step.2.machine.on u' := by
  obtain ⟨calls, hcalls, hsame⟩ := s.machine.step_answered
  refine ⟨calls, hcalls, ?_⟩
  intro τ _ t u u' ht hu
  simp only [step, ht]
  exact ⟨(hsame hu).result, (hsame hu).machine⟩

end

/-! ## Runs retraced -/

section

variable [Screen σ]

theorem on_of_poll {s polled : Session σ} {closed : Bool} (h : s.poll = (closed, polled)) (u : τ) :
    polled.machine.on u = s.machine.on u := by
  cases h
  rfl

theorem extends_of_poll {s polled : Session (Recorded σ)} {closed : Bool} (h : s.poll = (closed, polled)) :
    s.machine.screen.Extends polled.machine.screen [] [closed] := by
  have hr := Recorded.Extends.of_poll s.machine.screen
  cases h
  exact hr

theorem round_retraced {s polled s' : Session (Recorded σ)} {r : Except Fault Unit} (hpoll : s.poll = (false, polled))
    (hstep : polled.step = (r, s')) :
    ∃ calls, s.machine.screen.Extends s'.machine.screen calls [false] ∧
      ∀ {τ : Type} [Screen τ] {t : Session τ} {u u' : τ}, t.machine = s.machine.on u → Answers u calls u' →
        ∃ t', t.step = (r, t') ∧ t'.machine = s'.machine.on u' := by
  obtain ⟨calls, hcalls, hsame⟩ := polled.step_answered
  rw [hstep] at hcalls hsame
  refine ⟨calls, (extends_of_poll hpoll).trans (.of_answers hcalls), ?_⟩
  intro τ _ t u u' ht hu
  obtain ⟨hresult, hmachine⟩ := hsame (ht.trans (on_of_poll hpoll u).symm) hu
  exact ⟨t.step.2, Prod.ext hresult rfl, hmachine⟩

theorem Rounds.retraced {n : Nat} {s s' : Session (Recorded σ)} (h : Rounds n s s') :
    ∃ calls, s.machine.screen.Extends s'.machine.screen calls (List.replicate n false) ∧
      ∀ {τ : Type} [Screen τ] {t : Session τ} {u u' : τ}, t.machine = s.machine.on u → Answers u calls u' →
        ∃ t', t.steps n = (.ok (), t') ∧ t'.machine = s'.machine.on u' := by
  induction h with
  | zero s =>
      refine ⟨[], .refl _, ?_⟩
      rintro τ _ t u u' ht ⟨⟩
      exact ⟨t, rfl, ht⟩
  | succ hpoll hstep _ ih =>
      obtain ⟨calls, hcalls, hsame⟩ := round_retraced hpoll hstep
      obtain ⟨more, hmore, hretraced⟩ := ih
      refine ⟨calls ++ more, hcalls.trans hmore, ?_⟩
      intro τ _ t u u' ht hu
      obtain ⟨w, hw, hw'⟩ := hu.of_append
      obtain ⟨t', hstep', ht'⟩ := hsame ht hw
      obtain ⟨t'', hsteps, ht''⟩ := hretraced ht' hw'
      exact ⟨t'', (steps_of_ok hstep' _).trans hsteps, ht''⟩

/-- How `n` steps go, for every `n`, next to a run that ended so and left this machine after its screen had answered
`polls`. -/
def Retraces (t : Session σ) (budget : Nat) (polls : List Bool) (reached : Machine σ) : Option Ending → Prop
  | some .closed => ∃ k, polls = List.replicate k false ++ [true] ∧
      (t.steps k).1 = .ok () ∧ (t.steps k).2.machine = reached
  | some (.failed e) => ∃ k, polls = List.replicate k false ∧ (∀ n < k, (t.steps n).1 = .ok ()) ∧
      ∀ n ≥ k, (t.steps n).1 = .error e ∧ (t.steps n).2.machine = reached
  | none => polls = List.replicate budget false ∧ (t.steps budget).1 = .ok () ∧ (t.steps budget).2.machine = reached

theorem Course.retraced {budget : Nat} {s last : Session (Recorded σ)} {ending : Option Ending}
    (h : Course budget s ending last) :
    ∃ calls polls, s.machine.screen.Extends last.machine.screen calls polls ∧
      ∀ {τ : Type} [Screen τ] {t : Session τ} {u u' : τ}, t.machine = s.machine.on u → Answers u calls u' →
        t.Retraces budget polls (last.machine.on u') ending := by
  cases h with
  | @closed k s' polled hrounds hpoll =>
      obtain ⟨calls, hcalls, hsame⟩ := hrounds.retraced
      have hlast := extends_of_poll hpoll
      refine ⟨calls ++ [], _, hcalls.trans hlast, ?_⟩
      intro τ _ t u u' ht hu
      obtain ⟨t', hsteps, ht'⟩ := hsame ht (calls.append_nil ▸ hu)
      refine ⟨k, rfl, ?_, ?_⟩
      · rw [hsteps]
      · rw [hsteps]
        exact ht'.trans (on_of_poll hpoll u').symm
  | @failed k s' polled last e hrounds hpoll hstep =>
      obtain ⟨calls, hcalls, hsame⟩ := hrounds.retraced
      obtain ⟨more, hmore, hround⟩ := round_retraced hpoll hstep
      refine ⟨calls ++ more, _, hcalls.trans hmore, ?_⟩
      intro τ _ t u u' ht hu
      obtain ⟨w, hw, hw'⟩ := hu.of_append
      obtain ⟨t', hsteps, ht'⟩ := hsame ht hw
      obtain ⟨t'', hstep', ht''⟩ := hround ht' hw'
      refine ⟨k + 1, List.replicate_succ'.symm, ?_, ?_⟩
      · intro n hn
        exact steps_ok_of_le (congrArg Prod.fst hsteps) (Nat.le_of_lt_succ hn)
      · intro n hn
        rw [steps_of_lt hsteps hstep' hn]
        exact ⟨rfl, ht''⟩
  | going hrounds =>
      obtain ⟨calls, hcalls, hsame⟩ := hrounds.retraced
      refine ⟨calls, _, hcalls, ?_⟩
      intro τ _ t u u' ht hu
      obtain ⟨t', hsteps, ht'⟩ := hsame ht hu
      rw [Retraces, hsteps]
      exact ⟨rfl, rfl, ht'⟩

end

/-- The session, drawing on another screen and with a record of what that is asked. -/
def recorded (s : Session σ) (screen : τ) : Session (Recorded τ) := { s with machine := s.machine.on { screen } }

section

variable [Screen σ] (s : Session σ) {program : Array UInt8}

theorem run_of_not_fits (hfits : ¬ Ram.Fits s.machine.ram.origin program.size) (budget : Nat) :
    s.run budget program = (some (.failed (.doesNotFit s.machine.ram.origin program.size)), s) :=
  run_of_error (loadProgram_of_error (Ram.write_eq_error_iff.mpr ⟨hfits, rfl⟩)) budget

theorem run_retraced (hfits : Ram.Fits s.machine.ram.origin program.size) (budget : Nat) :
    let ran := (s.recorded s.machine.screen).run budget program
    let screen := ran.2.machine.screen
    (∀ {τ : Type} [Screen τ] {u u' : τ}, Answers u screen.calls u' →
      ∃ t, (s.recorded u).loadProgram program = (.ok (), t) ∧
        t.Retraces budget screen.polls (ran.2.machine.on ⟨u', screen.calls, []⟩) ran.1) ∧
    ∀ {τ : Type} [Screen τ] {f : σ → τ}, Screen.Unpolled f →
      Answers (f s.machine.screen) screen.calls (f screen.screen) := by
  intro ran screen
  obtain ⟨ram, hw⟩ := Ram.write_of_fits hfits
  have hload {τ : Type} (u : τ) : (s.recorded u).loadProgram program = (.ok (), (s.recorded u).withRam ram) :=
    loadProgram_of_ok hw
  have hran : ran = (((s.recorded s.machine.screen).withRam ram).note (.programLoaded program.size)).untilClosed budget :=
    run_of_ok (hload s.machine.screen) budget
  obtain ⟨calls, polls, hext, hsame⟩ :=
    (untilClosed_course (((s.recorded s.machine.screen).withRam ram).note (.programLoaded program.size)) budget).retraced
  rw [← hran] at hext hsame
  have hcalls : screen.calls = calls := hext.calls.trans calls.nil_append
  have hpolls : screen.polls = polls := hext.polls.trans polls.nil_append
  rw [hcalls, hpolls]
  refine ⟨?_, hext.answers⟩
  intro τ _ u u' hu
  exact ⟨_, hload u, hsame rfl (hu.recorded [] [])⟩

end

/-- A program that does not fit is refused before anything else happens. With any other, a run that ends because its
screen is closed has done as many steps as the screen said that it was open, and so many steps do the same on a screen
that answers alike but is never asked whether it is closed; a run that fails has failed in the last such step, and fewer
steps succeed and more fail in the same way. Steps can be counted out in portions, and the pace does not matter. -/
theorem run_agrees_with_steps [Screen σ] (s : Session σ) (horigin : s.machine.ram.origin = 0x200) (program : Array UInt8)
    (budget : Nat) :
    let ran := (s.recorded s.machine.screen).run budget program
    let screen := ran.2.machine.screen
    ((s.run budget program).1 = ran.1 ∧ (s.run budget program).2.machine = ran.2.machine.on screen.screen) ∧
    (¬ Ram.Fits 0x200 program.size →
      s.run budget program = (some (.failed (.doesNotFit 0x200 program.size)), s) ∧ screen.calls = [] ∧ screen.polls = []) ∧
    (Ram.Fits 0x200 program.size →
      (∀ {τ : Type} [Screen τ] {u u' : τ}, Answers u screen.calls u' →
        ∃ t, (s.recorded u).loadProgram program = (.ok (), t) ∧
          t.Retraces budget screen.polls (ran.2.machine.on ⟨u', screen.calls, []⟩) ran.1) ∧
      ∀ {τ : Type} [Screen τ] {f : σ → τ}, Screen.Unpolled f →
        Answers (f s.machine.screen) screen.calls (f screen.screen)) ∧
    Answers (⟨screen.calls⟩ : Replay) screen.calls ⟨[]⟩ ∧
    ((s.run budget program).1.isSome → ∀ more, s.run (budget + more) program = s.run budget program) ∧
    (∀ a b, s.steps (a + b) =
      match s.steps a with
      | (.ok (), s') => s'.steps b
      | (.error e, s') => (.error e, s')) ∧
    ∀ hz, (s.setSpeed hz).run budget program = ((s.run budget program).1, (s.run budget program).2.setSpeed hz) ∧
      ∀ n, (s.setSpeed hz).steps n = ((s.steps n).1, (s.steps n).2.setSpeed hz) := by
  intro ran screen
  have htie := Lockstep.recorded.run budget program (s := s.recorded s.machine.screen) (t := s) ⟨rfl, trivial⟩
  refine ⟨⟨htie.1, htie.2.machine⟩, ?_, ?_, Replay.answers screen.calls, run_add, steps_add s, ?_⟩
  · intro hfits
    rw [← horigin] at hfits ⊢
    have hran : ran = _ := (s.recorded s.machine.screen).run_of_not_fits hfits budget
    have hscreen : screen = { screen := s.machine.screen } := congrArg (·.2.machine.screen) hran
    rw [hscreen]
    exact ⟨s.run_of_not_fits hfits budget, rfl, rfl⟩
  · intro hfits
    rw [← horigin] at hfits
    exact s.run_retraced hfits budget
  · intro hz
    have hrun := (Lockstep.setSpeed hz).run budget program (s := s) rfl
    refine ⟨Prod.ext hrun.1 hrun.2, ?_⟩
    intro n
    have hsteps := (Lockstep.setSpeed hz).steps n (s := s) rfl
    exact Prod.ext hsteps.1 hsteps.2

/-- A screen that breaks at the third pixel of a zero. -/
theorem run_agrees_with_steps_broken_screen :
    let s := start ({ script := { failPixelAt := some 3 } } : Scripted) {}
    let program := #[0x60, 0x05, 0xD0, 0x05]
    let fault := Fault.screen 0x202 0xD005 .crashed
    s.machine.ram.origin = 0x200 ∧ (s.run 9 program).1 = some (.failed fault) ∧
      ∃ t, (s.recorded s.machine.screen).loadProgram program = (.ok (), t) ∧ (t.steps 1).1 = .ok () ∧
        ∀ n ≥ 2, (t.steps n).1 = .error fault := by
  intro s program fault
  have hending : ((s.recorded s.machine.screen).run 9 program).1 = some (.failed fault) := by decide
  have hpolls : ((s.recorded s.machine.screen).run 9 program).2.machine.screen.polls = [false, false] := by decide
  obtain ⟨htie, -, hfits, -⟩ := run_agrees_with_steps s rfl program 9
  obtain ⟨hsame, hunpolled⟩ := hfits (by decide)
  obtain ⟨t, hload, ht⟩ := hsame (hunpolled Scripted.unpolled)
  rw [hending, hpolls] at ht
  obtain ⟨k, hk, hbefore, hafter⟩ := ht
  obtain rfl : 2 = k := by simpa using congrArg List.length hk
  exact ⟨rfl, htie.1.trans hending, t, hload, hbefore 1 (by decide), fun n hn => (hafter n hn).1⟩

end Session

end ChipEight
