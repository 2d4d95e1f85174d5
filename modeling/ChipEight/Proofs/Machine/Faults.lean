import ChipEight.Proofs.Machine.Running
import ChipEight.Proofs.Machine.Sprite
import ChipEight.Proofs.Screen.Attended
import ChipEight.Proofs.Screen.Console

/-!
What can go wrong with a machine, command after command, on each of the screens that there are. Loading is refused, or a
step fails; a step fails for a cause of its own or for one of its screen, and a screen breaks only where it prints.
-/

namespace ChipEight

/-! ## How far sprites reach -/

namespace Machine

variable {σ : Type} {m : Machine σ}

theorem mem_targets {x y : Register} {rows : Fin 16} {sprite : List UInt8} {target : UInt16 × UInt16}
    (hs : m.ram.slice? m.index rows = some sprite) (h : target ∈ m.targets x y sprite) :
    OnScreen target ∨ m.rules.edge = .keep ∧ target.1.toNat ≤ 262 ∧ target.2.toNat ≤ 269 := by
  have hspot : coords target ∈ m.spots x y rows := map_coords_targets hs ▸ List.mem_map_of_mem h
  cases hedge : m.rules.edge with
  | wrap => exact .inl (onGrid_of_wrap hedge hspot)
  | keep =>
      obtain ⟨bit, hbit, heq⟩ := List.mem_map.mp hspot
      rw [spot, hedge] at heq
      have hx : (m.v.get x).toNat + bit.1 = target.1.toNat := congrArg Prod.fst heq
      have hy : (m.v.get y).toNat + bit.2 = target.2.toNat := congrArg Prod.snd heq
      obtain ⟨hc, hr⟩ := lt_of_mem_setBits hbit
      have hrows := rows.isLt
      have hvx := (m.v.get x).toNat_lt
      have hvy := (m.v.get y).toNat_lt
      exact .inr ⟨rfl, by omega, by omega⟩

end Machine

/-! ## Faults of screens -/

/-- A screen that refuses just the pixels that are not there, and that breaks in showing its picture only where `broken`
says with what words. -/
structure Screen.BreaksBy {σ : Type} [Screen σ] (broken : σ → String → Prop) : Prop where
  toggle : ∀ {s : σ} {x y e}, (Screen.toggle s x y).1 = .error e → e = .offGrid x y ∧ ¬ OnScreen (x, y)
  render : ∀ {s : σ} {e}, (Screen.render s).result = .error e → ∃ t, e = .io t ∧ broken s t

theorem Frame.fault_of_toggle {f : Frame} {x y : UInt16} {e : ScreenFault} (h : (f.toggle x y).1 = .error e) :
    e = .offGrid x y ∧ ¬ OnScreen (x, y) := by
  rw [toggle_fst] at h
  split at h
  · cases h
  · rename_i hoff
    cases h
    exact ⟨rfl, hoff⟩

theorem Headless.breaksBy : Screen.BreaksBy fun (_ : Headless) _ => False where
  toggle h := Frame.fault_of_toggle h
  render h := nomatch h

theorem Window.breaksBy : Screen.BreaksBy fun (_ : Window) _ => False where
  toggle h := Frame.fault_of_toggle h
  render h := nomatch h

theorem Attended.breaksBy : Screen.BreaksBy fun (_ : Attended) _ => False where
  toggle h := Frame.fault_of_toggle h
  render h := nomatch h

theorem Console.breaksBy {ω : Type} [Writer ω] : Screen.BreaksBy fun s : Console ω => Writer.Fails s.out s.frame where
  toggle h := Frame.fault_of_toggle h
  render {s e} h := by
    simp only [Screen.render] at h
    rcases hprint : (Writer.print s.out s.frame).1 with t | _
    · rw [hprint] at h
      cases h
      exact ⟨t, rfl, Writer.fails_of_print hprint⟩
    · rw [hprint] at h
      cases h

theorem Printed.breaksBy : Screen.BreaksBy fun s : Printed => Writer.Fails s.sink s.frame where
  toggle h := Frame.fault_of_toggle h
  render {s e} h := by
    have hconsole : (Screen.render s.console).result = .error e := by rw [render_console, h]
    exact Console.breaksBy.render hconsole

/-! ## Faults of steps -/

namespace Machine

variable {σ : Type} [Screen σ] {broken : σ → String → Prop} {m : Machine σ}

theorem fault_of_flipAll (h : Screen.BreaksBy broken) {targets : List (UInt16 × UInt16)} {s : σ} {e : ScreenFault}
    (he : (flipAll s targets).1 = .error e) : ∃ x y, e = .offGrid x y ∧ (x, y) ∈ targets ∧ ¬ OnScreen (x, y) := by
  induction targets generalizing s with
  | nil => cases he
  | cons target rest ih =>
      obtain ⟨x, y⟩ := target
      rcases ht : (Screen.toggle s x y).1 with e' | erased
      · rw [flipAll_cons_of_error ht] at he
        cases he
        obtain ⟨rfl, hoff⟩ := h.toggle ht
        exact ⟨x, y, rfl, List.mem_cons_self, hoff⟩
      · rw [flipAll_cons_of_ok ht] at he
        rcases hr : (flipAll (Screen.toggle s x y).2 rest).1 with e' | more
        · rw [hr] at he
          cases he
          obtain ⟨x', y', heq, hmem, hoff⟩ := ih hr
          exact ⟨x', y', heq, List.mem_cons_of_mem _ hmem, hoff⟩
        · rw [hr] at he
          cases he

/-- The instruction at PC draws, the flips succeed, and showing the picture is where the screen breaks. -/
def BreaksShowing (broken : σ → String → Prop) (m : Machine σ) (t : String) : Prop :=
  ∃ x y rows sprite erased screen, m.current? = some (.drw x y rows) ∧ m.ram.slice? m.index rows = some sprite ∧
    flipAll m.screen (m.targets x y sprite) = (.ok erased, screen) ∧ broken screen t

/-- What a step can fail with. -/
inductive StepFault (broken : σ → String → Prop) (m : Machine σ) : Fault → Prop where
  | ranOff : StepFault broken m (.ranOff m.pc)
  | unknownWord {word : UInt16} : StepFault broken m (.unknownWord m.pc word)
  | spriteOutside {word : UInt16} {rows : UInt8} : StepFault broken m (.spriteOutside m.pc word m.index rows)
  | offGrid {word x y : UInt16} : m.rules.edge = .keep → ¬ OnScreen (x, y) → x.toNat ≤ 262 → y.toNat ≤ 269 →
      StepFault broken m (.screen m.pc word (.offGrid x y))
  | shown {word : UInt16} {t : String} : m.BreaksShowing broken t → StepFault broken m (.screen m.pc word (.io t))

theorem draw_fault (h : Screen.BreaksBy broken) {x y : Register} {rows : Fin 16} {word : UInt16} {e : Fault}
    (hi : m.current? = some (.drw x y rows))
    (he : ({ m with pc := m.pc + 2 }.draw x y rows m.pc word).result = .error e) : StepFault broken m e := by
  let next : Machine σ := { m with pc := m.pc + 2 }
  rcases hs : next.ram.slice? next.index rows with _ | sprite
  · rw [draw_of_outside hs] at he
    cases he
    exact .spriteOutside
  · rcases hf : flipAll next.screen (next.targets x y sprite) with ⟨cause | erased, screen⟩
    · rw [draw_of_refused hs hf] at he
      cases he
      obtain ⟨tx, ty, rfl, hmem, hoff⟩ := fault_of_flipAll h (congrArg Prod.fst hf)
      obtain hon | ⟨hedge, hx, hy⟩ := mem_targets hs hmem
      · exact absurd hon hoff
      · exact .offGrid hedge hoff hx hy
    · rw [draw_of_flipped hs hf] at he
      rcases hr : (Screen.render screen).result with cause | _
      · rw [hr] at he
        cases he
        obtain ⟨t, rfl, hbroken⟩ := h.render hr
        exact .shown ⟨x, y, rows, sprite, erased, screen, hi, hs, hf, hbroken⟩
      · rw [hr] at he
        cases he

theorem step_fault (h : Screen.BreaksBy broken) {e : Fault} (he : m.step.result = .error e) : StepFault broken m e := by
  rcases hf : m.fetch with cause | word
  · rw [step_of_error hf] at he
    cases he
    obtain rfl := fetch_error hf
    exact .ranOff
  · rw [step_of_ok hf] at he
    have hi := current?_of_ok hf
    generalize Instr.decode word = i at he hi
    cases i with
    | drw x y rows => exact draw_fault h hi he
    | unknown w =>
        cases he
        exact .unknownWord
    | _ => cases he

end Machine

/-! ## Faults of commands -/

def Ending.result : Ending → Except Fault Unit
  | closed => .ok ()
  | failed cause => .error cause

namespace Session

variable {σ : Type} {s : Session σ} {c : Command} {e : Fault}

/-! ### Loading -/

/-- How the loading ended that a command begins with, of the commands that load. -/
def loading (s : Session σ) : Command → Except Fault Unit
  | .call (.ask (.load data address)) => (s.load data address).1
  | .call (.ask (.loadProgram program)) | .run program _ => (s.loadProgram program).1
  | _ => .ok ()

theorem fault_of_load {data : Array UInt8} {address : UInt16} (h : (s.load data address).1 = .error e) :
    e = .doesNotFit address data.size := by
  unfold load Machine.load at h
  rcases hw : s.machine.ram.write data address with cause | ram
  · rw [hw] at h
    cases h
    exact (Ram.write_eq_error_iff.mp hw).2
  · rw [hw] at h
    cases h

theorem fault_of_loading (h : s.loading c = .error e) : ∃ offset length, e = .doesNotFit offset length := by
  unfold loading at h
  split at h
  · exact ⟨_, _, fault_of_load h⟩
  · exact ⟨_, _, fault_of_load h⟩
  · exact ⟨_, _, fault_of_load h⟩
  · cases h

/-- A fault that a command may end with. -/
structure Expected (rules : Rules) (s : Session σ) (c : Command) (e : Fault) : Prop where
  /-- Only in loading is anything found not to fit. -/
  doesNotFit : ∀ offset length, e = .doesNotFit offset length → s.loading c = .error e
  readable : ∀ address length, e ≠ .unreadable address length
  offGrid : ∀ pc word x y, e = .screen pc word (.offGrid x y) →
    rules.edge = .keep ∧ (64 ≤ x.toNat ∨ 32 ≤ y.toNat) ∧ x.toNat ≤ 262 ∧ y.toNat ≤ 269
  notCrashed : ∀ pc word, e ≠ .screen pc word .crashed

theorem expected_of_loading {rules : Rules} (h : s.loading c = .error e) :
    Expected rules s c e ∧ e.isScreenFailure = false := by
  obtain ⟨offset, length, rfl⟩ := fault_of_loading h
  exact ⟨⟨fun _ _ _ => h, nofun, nofun, nofun⟩, rfl⟩

/-! ### Steps -/

variable [Screen σ] {broken : σ → String → Prop}

/-- How a command ended, of the commands that can fail. A run that is closed, or given up, has not failed. -/
def answer (s : Session σ) : Command → Except Fault Unit
  | .call (.ask r) => (s.ask r).1
  | .call (.steps n) => (s.steps n).1
  | .run program budget => (s.run budget program).1.elim (.ok ()) Ending.result
  | _ => .ok ()

/-- The command has the machine make a step, and this is how it stands before that. -/
inductive Passes (s : Session σ) : Command → Session σ → Prop where
  | step : Passes s (.call (.ask .step)) s
  | steps {k n : Nat} {reached : Session σ} : k < n → s.steps k = (.ok (), reached) →
      Passes s (.call (.steps n)) reached
  | run {program : Array UInt8} {budget k : Nat} {loaded t reached : Session σ} :
      s.loadProgram program = (.ok (), loaded) → Rounds k (loaded.note (.programLoaded program.size)) t →
      t.poll = (false, reached) → Passes s (.run program budget) reached

theorem failing_step_of_steps {n : Nat} (h : (s.steps n).1 = .error e) :
    ∃ k < n, ∃ reached, s.steps k = (.ok (), reached) ∧ reached.step.1 = .error e := by
  induction n generalizing s with
  | zero => cases h
  | succ n ih =>
      rcases hs : s.step with ⟨e' | _, s'⟩
      · rw [steps_of_error hs] at h
        cases h
        exact ⟨0, Nat.succ_pos n, s, rfl, congrArg Prod.fst hs⟩
      · rw [steps_of_ok hs] at h
        obtain ⟨k, hk, reached, hsteps, hstep⟩ := ih h
        exact ⟨k + 1, Nat.succ_lt_succ hk, reached, (steps_of_ok hs k).trans hsteps, hstep⟩

theorem failing_step_of_run {program : Array UInt8} {budget : Nat} {loaded : Session σ}
    (hload : s.loadProgram program = (.ok (), loaded)) (h : (s.run budget program).1 = some (.failed e)) :
    ∃ reached, s.Passes (.run program budget) reached ∧ reached.step.1 = .error e := by
  rw [run_of_ok hload] at h
  have hcourse := (loaded.note (.programLoaded program.size)).untilClosed_course budget
  rw [h] at hcourse
  cases hcourse with
  | failed hrounds hpoll hstep => exact ⟨_, .run hload hrounds hpoll, congrArg Prod.fst hstep⟩

/-- A command fails in its loading or in one of its steps. -/
theorem loading_or_step_of_answer (h : s.answer c = .error e) :
    s.loading c = .error e ∨ ∃ reached, s.Passes c reached ∧ reached.step.1 = .error e := by
  cases c with
  | call c =>
      cases c with
      | ask r =>
          cases r with
          | load data address => exact .inl h
          | loadProgram program => exact .inl h
          | step => exact .inr ⟨s, .step, h⟩
      | steps n =>
          obtain ⟨k, hk, reached, hsteps, hstep⟩ := failing_step_of_steps h
          exact .inr ⟨reached, .steps hk hsteps, hstep⟩
      | _ => cases h
  | run program budget =>
      rcases hload : s.loadProgram program with ⟨e' | _, loaded⟩
      · rw [answer, run_of_error hload] at h
        cases h
        exact .inl (congrArg Prod.fst hload)
      · rcases hrun : (s.run budget program).1 with _ | _ | e'
        · rw [answer, hrun] at h
          cases h
        · rw [answer, hrun] at h
          cases h
        · rw [answer, hrun] at h
          cases h
          exact .inr (failing_step_of_run hload hrun)
  | _ => cases h

theorem Rounds.kept {P : Session σ → Prop} (h : Kept P) {n : Nat} {s s' : Session σ} (hr : Rounds n s s') (hs : P s) :
    P s' := by
  induction hr with
  | zero => exact hs
  | @succ n s polled s' s'' hpoll hstep _ ih =>
      have hpolled := h.poll hs
      rw [hpoll] at hpolled
      have hnext := h.step hpolled
      rw [hstep] at hnext
      exact ih hnext

theorem Passes.kept {P : Machine σ → Prop} (h : Machine.Kept P) {reached : Session σ} (hp : s.Passes c reached)
    (hs : P s.machine) : P reached.machine := by
  cases hp with
  | step => exact hs
  | @steps k n reached hk hsteps =>
      have hreached := h.steps k hs
      rwa [hsteps] at hreached
  | @run program budget k loaded t reached hload hrounds hpoll =>
      have hloaded : P (s.loadProgram program).2.machine := h.load program s.machine.ram.origin hs
      rw [hload] at hloaded
      have hpolled : P t.poll.2.machine := h.screen _ (hrounds.kept h.session hloaded)
      rwa [hpoll] at hpolled

theorem kept_rules (rules : Rules) : Machine.Kept fun m : Machine σ => m.rules = rules where
  load data address h := (Machine.load_rules _ data address).trans h
  step h := (Machine.step_rules _).trans h
  screen _ h := h
  setSpeed _ h := h

/-- In one of the steps of the command the screen broke in showing the picture, and that was the fault. -/
def BrokeShowing (broken : σ → String → Prop) (s : Session σ) (c : Command) (e : Fault) : Prop :=
  ∃ reached t, s.Passes c reached ∧ reached.step.1 = .error e ∧ e.screenCause? = some (.io t) ∧
    reached.machine.BreaksShowing broken t

theorem expected_of_step {rules : Rules} (hb : Screen.BreaksBy broken) {reached : Session σ}
    (hrules : reached.machine.rules = rules) (hp : s.Passes c reached) (h : reached.step.1 = .error e) :
    Expected rules s c e ∧ (e.isScreenFailure → s.BrokeShowing broken c e) := by
  have hfault : Machine.StepFault broken reached.machine e := Machine.step_fault hb h
  cases hfault with
  | ranOff => exact ⟨⟨nofun, nofun, nofun, nofun⟩, nofun⟩
  | unknownWord => exact ⟨⟨nofun, nofun, nofun, nofun⟩, nofun⟩
  | spriteOutside => exact ⟨⟨nofun, nofun, nofun, nofun⟩, nofun⟩
  | @offGrid word x y hedge hoff hx hy =>
      refine ⟨⟨nofun, nofun, ?_, by simp⟩, nofun⟩
      rintro _ _ _ _ ⟨⟩
      have hxy : ¬ (x.toNat < 64 ∧ y.toNat < 32) := hoff
      exact ⟨hrules ▸ hedge, by omega, hx, hy⟩
  | @shown word t hbroken =>
      exact ⟨⟨nofun, nofun, by simp, by simp⟩, fun _ => ⟨reached, t, hp, h, rfl, hbroken⟩⟩

/-! ### Commands -/

theorem expected_of_answer (hb : Screen.BreaksBy broken) {screen : σ} {rules : Rules} {commands : List Command} :
    let s := (start screen rules).after commands
    s.answer c = .error e → Expected rules s c e ∧ (e.isScreenFailure → s.BrokeShowing broken c e) := by
  intro s h
  obtain hload | ⟨reached, hp, hstep⟩ := loading_or_step_of_answer h
  · obtain ⟨hexpected, hnot⟩ : Expected rules s c e ∧ e.isScreenFailure = false := expected_of_loading hload
    exact ⟨hexpected, fun hfailure => nomatch hnot.symm.trans hfailure⟩
  · have hrules : reached.machine.rules = rules := hp.kept (kept_rules rules) ((kept_rules rules).after commands rfl)
    exact expected_of_step hb hrules hp hstep

theorem expected_of_answer_unbroken (hb : Screen.BreaksBy fun (_ : σ) _ => False) {screen : σ} {rules : Rules}
    {commands : List Command} :
    let s := (start screen rules).after commands
    s.answer c = .error e → Expected rules s c e ∧ e.isScreenFailure = false := by
  intro s h
  obtain ⟨hexpected, hbroke⟩ := expected_of_answer hb h
  refine ⟨hexpected, Bool.eq_false_iff.mpr fun hfailure => ?_⟩
  obtain ⟨reached, t, -, -, -, -, -, -, -, -, -, -, -, -, hfalse⟩ := hbroke hfailure
  exact hfalse

/-- Whatever has been done to a machine since its start, the next command ends with no fault but these. Nothing is found
not to fit except in loading; no byte is found unreadable; a pixel is found off the grid only where sprites are not
wrapped, beyond the right or the lower edge and no further than a sprite reaches; no viewer's crash is a fault of the
machine's. The screen itself is to blame only if it prints, and then its writer refused a write or failed to flush in
the very draw that failed. -/
theorem expected_after_commands (rules : Rules) (commands : List Command) (c : Command) (e : Fault) :
    (∀ screen : Headless,
      let s := (start screen rules).after commands
      s.answer c = .error e → Expected rules s c e ∧ e.isScreenFailure = false) ∧
    (∀ screen : Window,
      let s := (start screen rules).after commands
      s.answer c = .error e → Expected rules s c e ∧ e.isScreenFailure = false) ∧
    (∀ screen : Attended,
      let s := (start screen rules).after commands
      s.answer c = .error e → Expected rules s c e ∧ e.isScreenFailure = false) ∧
    (∀ screen : Printed,
      let s := (start screen rules).after commands
      s.answer c = .error e → Expected rules s c e ∧
        (e.isScreenFailure → s.BrokeShowing (fun p => Writer.Fails p.sink p.frame) c e)) ∧
    ∀ {ω : Type} [Writer ω] (screen : Console ω),
      let s := (start screen rules).after commands
      s.answer c = .error e → Expected rules s c e ∧
        (e.isScreenFailure → s.BrokeShowing (fun p => Writer.Fails p.out p.frame) c e) := by
  refine ⟨?_, ?_, ?_, ?_, ?_⟩
  · intro screen
    exact expected_of_answer_unbroken Headless.breaksBy
  · intro screen
    exact expected_of_answer_unbroken Window.breaksBy
  · intro screen
    exact expected_of_answer_unbroken Attended.breaksBy
  · intro screen
    exact expected_of_answer Printed.breaksBy
  · intro ω _ screen
    exact expected_of_answer Console.breaksBy

end Session

end ChipEight
