import ChipEight.Proofs.Machine.Faults
import ChipEight.Proofs.Program.Tracing
import ChipEight.Proofs.Screen.Orders

/-!
What a machine asks of its screen. Each step has a plan of its own, which the screen cannot change but only cut short;
a run asks what its steps ask, one after the other.
-/

namespace ChipEight

namespace Machine

variable {σ : Type} {m : Machine σ}

/-- What an instruction asks of the screen if nothing fails. -/
def planFor (m : Machine σ) : Instr → List ScreenOrder
  | .cls => [.clear]
  | .drw x y rows =>
      if Ram.Fits m.index rows then (m.spots x y rows).map .flip ++ [.render] else []
  | _ => []

/-- What the instruction at PC asks of the screen if nothing fails. -/
def plan (m : Machine σ) : List ScreenOrder := m.current?.elim [] m.planFor

/-- How an instruction ends that makes these calls; `pc` and `word` name it in a fault. -/
def verdictFor (m : Machine σ) (pc word : UInt16) (calls : List ScreenCall) : Instr → Except Fault Unit
  | .unknown word => .error (.unknownWord pc word)
  | .drw _ _ rows =>
      if Ram.Fits m.index rows then (firstFailure? calls).elim (.ok ()) fun e => .error (.screen pc word e)
      else .error (.spriteOutside pc word m.index (UInt8.ofNat rows))
  | _ => .ok ()

/-- The machine, with a screen that keeps a record from now on. -/
def watched (m : Machine σ) : Machine (Recorded σ) := m.on { screen := m.screen }

variable [Screen σ]

/-- The calls that a step makes to the screen, with the answers to them. -/
def calls (m : Machine σ) : List ScreenCall := m.watched.step.machine.screen.calls

/-- Keeping a record makes no difference. -/
theorem step_on_recorded (m : Machine σ) (before : List ScreenCall) (polls : List Bool) :
    Step.SameOn m.step (m.on (⟨m.screen, before, polls⟩ : Recorded σ)).step
      ⟨m.step.machine.screen, before ++ m.calls, polls⟩ := by
  obtain ⟨asked, hasked, hsame⟩ := m.step_answered
  have hcalls : m.calls = asked :=
    congrArg (fun s : Machine (Recorded σ) => s.screen.calls) (hsame (hasked.recorded [] [])).machine
  rw [hcalls]
  exact hsame (hasked.recorded before polls)

/-! ## One step -/

theorem flipAll_follows (targets : List (UInt16 × UInt16)) (r : Recorded σ) :
    ∃ asked, (flipAll r targets).2.calls = r.calls ++ asked ∧
      Follows ((targets.map coords).map .flip) asked ∧
      firstFailure? asked = errorOf? (flipAll r targets).1 := by
  induction targets generalizing r with
  | nil => exact ⟨[], r.calls.append_nil.symm, .nil, rfl⟩
  | cons target rest ih =>
      obtain ⟨x, y⟩ := target
      rcases ht : Screen.toggle r.screen x y with ⟨e | erased, screen⟩
      · let c := ScreenCall.toggle x y (.error e)
        have hr : Screen.toggle r x y = (.error e, { r with screen, calls := r.calls ++ [c] }) := by
          simp only [Screen.toggle, ht, c]
        have hc : c.failure? = some e := rfl
        rw [flipAll_of_refused hr]
        exact ⟨[c], rfl, .failed hc, firstFailure?_cons_of_some hc []⟩
      · let c := ScreenCall.toggle x y (.ok erased)
        let r' : Recorded σ := { r with screen, calls := r.calls ++ [c] }
        have hr : Screen.toggle r x y = (.ok erased, r') := by
          simp only [Screen.toggle, ht, r', c]
        have hc : c.failure? = none := rfl
        obtain ⟨asked, hcalls, hfollows, hfailure⟩ := ih r'
        rw [flipAll_of_toggled hr]
        refine ⟨c :: asked, ?_, .cons hc hfollows, ?_⟩
        · rw [hcalls, List.append_assoc]
          rfl
        · rw [firstFailure?_cons_of_none hc, hfailure]
          cases (flipAll r' rest).1 <;> rfl

theorem draw_follows {x y : Register} {rows : Fin 16} (r : Machine (Recorded σ)) (hfits : Ram.Fits r.index rows)
    (pc word : UInt16) :
    ∃ asked, (r.draw x y rows pc word).machine.screen.calls = r.screen.calls ++ asked ∧
      Follows ((r.spots x y rows).map .flip ++ [.render]) asked ∧
      (r.draw x y rows pc word).result = (firstFailure? asked).elim (.ok ()) fun e => .error (.screen pc word e) := by
  obtain ⟨sprite, hs⟩ := slice?_of_fits hfits
  obtain ⟨flips, hcalls, hfollows, hfailure⟩ := flipAll_follows (r.targets x y sprite) r.screen
  rw [map_coords_targets hs] at hfollows
  rcases hf : flipAll r.screen (r.targets x y sprite) with ⟨e | erased, screen⟩
  all_goals rw [hf] at hcalls hfailure
  · rw [draw_of_refused hs hf]
    refine ⟨flips, hcalls, hfollows.append_of_failed hfailure _, ?_⟩
    rw [hfailure]
    rfl
  · rw [draw_of_flipped hs hf]
    let c := ScreenCall.render (Screen.render screen.screen).result
    refine ⟨flips ++ [c], ?_, hfollows.append hfailure (.singleton c), ?_⟩
    · rw [← List.append_assoc, ← hcalls]
      rfl
    · rw [firstFailure?_append, hfailure, firstFailure?_singleton]
      exact mapError_eq_elim _ _

theorem execute_follows (r : Machine (Recorded σ)) (pc word : UInt16) (i : Instr) :
    ∃ asked, (r.execute pc word i).machine.screen.calls = r.screen.calls ++ asked ∧ Follows (r.planFor i) asked ∧
      (r.execute pc word i).result = r.verdictFor pc word asked i := by
  cases i with
  | cls => exact ⟨[.clear], rfl, .singleton .clear, rfl⟩
  | drw x y rows =>
      by_cases hfits : Ram.Fits r.index rows
      · obtain ⟨asked, hcalls, hfollows, hresult⟩ := r.draw_follows (x := x) (y := y) hfits pc word
        refine ⟨asked, hcalls, ?_, ?_⟩
        · rwa [planFor, if_pos hfits]
        · rwa [verdictFor, if_pos hfits]
      · have hs : r.ram.slice? r.index rows = none := Ram.slice?_eq_none_iff.mpr hfits
        rw [execute, draw_of_outside hs]
        refine ⟨[], r.screen.calls.append_nil.symm, ?_, ?_⟩
        · rw [planFor, if_neg hfits]
          exact .nil
        · rw [verdictFor, if_neg hfits]
  | _ => exact ⟨[], r.screen.calls.append_nil.symm, .nil, rfl⟩

theorem calls_of_error {e : Fault} (h : m.fetch = .error e) : m.calls = [] := by
  have hfetch : m.watched.fetch = .error e := h
  rw [calls, step_of_error hfetch]
  rfl

/-- A step that gets as far as an instruction asks what the plan of that says, up to the first failure, and reports
that. -/
theorem step_follows {word : UInt16} (h : m.fetch = .ok word) :
    Follows (m.planFor (Instr.decode word)) m.calls ∧
      m.step.result = m.verdictFor m.pc word m.calls (Instr.decode word) := by
  have hfetch : m.watched.fetch = .ok word := h
  have hsame : Step.SameOn m.step m.watched.step _ := m.step_on_recorded [] []
  obtain ⟨asked, hcalls, hfollows, hresult⟩ :=
    { m.watched with pc := m.pc + 2 }.execute_follows m.pc word (Instr.decode word)
  have hasked : m.calls = asked := by
    rw [calls, step_of_ok hfetch]
    exact hcalls
  rw [hasked, ← hsame.result, step_of_ok hfetch]
  exact ⟨hfollows, hresult⟩

/-- A step does not succeed if one of its calls fails. -/
theorem firstFailure?_of_ok (h : m.step.result = .ok ()) : firstFailure? m.calls = none := by
  cases hf : m.fetch with
  | error e =>
      rw [calls_of_error hf]
      rfl
  | ok word =>
      obtain ⟨hfollows, hresult⟩ := step_follows hf
      rw [h] at hresult
      generalize Instr.decode word = i at hfollows hresult
      cases i with
      | cls =>
          refine List.findSome?_eq_none_iff.mpr fun c hc => ?_
          exact ScreenCall.failure?_of_clear (List.mem_singleton.mp (hfollows.order_mem hc))
      | drw x y rows =>
          by_cases hfits : Ram.Fits m.index rows
          · rw [verdictFor, if_pos hfits] at hresult
            cases hfailure : firstFailure? m.calls with
            | none => rfl
            | some e =>
                rw [hfailure] at hresult
                cases hresult
          · rw [verdictFor, if_neg hfits] at hresult
            cases hresult
      | _ => rw [hfollows.eq_nil]; rfl

theorem calls_follow (m : Machine σ) : Follows m.plan m.calls := by
  cases hf : m.fetch with
  | error e =>
      rw [plan, current?_of_error hf, calls_of_error hf]
      exact .nil
  | ok word =>
      rw [plan, current?_of_ok hf]
      exact (step_follows hf).1

/-- The instruction at PC draws a sprite that lies in memory, and none of its flips fails. -/
def drawsWhole (m : Machine σ) : Bool :=
  match m.current? with
  | some (.drw _ _ rows) => Ram.Fits m.index rows && m.calls.all fun c => c.order = .render || c.failure?.isNone
  | _ => false

theorem countP_render_eq_zero {plan : List ScreenOrder} {calls : List ScreenCall} (h : Follows plan calls)
    (hplan : .render ∉ plan) : calls.countP (·.order = .render) = 0 := by
  refine List.countP_eq_zero.mpr fun c hc hrender => hplan ?_
  rw [← of_decide_eq_true hrender]
  exact h.order_mem hc

theorem countP_render (m : Machine σ) : m.calls.countP (·.order = .render) = m.drawsWhole.toNat := by
  have h := m.calls_follow
  unfold plan at h
  unfold drawsWhole
  cases hi : m.current? with
  | none =>
      rw [hi] at h
      exact countP_render_eq_zero h (by simp)
  | some i =>
      rw [hi] at h
      cases i with
      | drw x y rows =>
          simp only [Option.elim_some, planFor] at h
          by_cases hfits : Ram.Fits m.index rows
          · rw [if_pos hfits] at h
            simp [hfits, h.countP_render]
          · rw [if_neg hfits] at h
            simp [hfits, h.eq_nil]
      | _ => exact countP_render_eq_zero h (by simp [planFor])

end Machine

/-! ## A run -/

namespace Session

variable {σ : Type} [Screen σ]

theorem steps_recorded (s : Session σ) (n : Nat) :
    let ran := (s.recorded s.machine.screen).steps n
    ran.1 = (s.steps n).1 ∧ ran.2.machine =
      (s.steps n).2.machine.on ⟨(s.steps n).2.machine.screen, (s.course n).flatMap Machine.calls, []⟩ := by
  induction n with
  | zero => exact ⟨rfl, rfl⟩
  | succ n ih =>
      obtain ⟨hresult, hmachine⟩ := ih
      rcases hs : s.steps n with ⟨e | _, reached⟩
      all_goals
        rcases ht : (s.recorded s.machine.screen).steps n with ⟨e' | _, recorded⟩
        all_goals rw [hs, ht] at hresult hmachine
        all_goals cases hresult
      · rw [steps_succ_of_error hs, steps_succ_of_error ht, course_succ_of_error hs]
        exact ⟨rfl, hmachine⟩
      · have hsame := reached.machine.step_on_recorded ((s.course n).flatMap Machine.calls) []
        have hrecorded : recorded.machine.step = _ := congrArg Machine.step hmachine
        rw [steps_succ_of_ok hs, steps_succ_of_ok ht, course_succ_of_ok hs, List.flatMap_append, List.flatMap_singleton]
        simp only [step, hrecorded]
        exact ⟨hsame.result, hsame.machine⟩

theorem countP_render_flatMap (course : List (Machine σ)) :
    (course.flatMap Machine.calls).countP (·.order = .render) = course.countP Machine.drawsWhole := by
  induction course with
  | nil => rfl
  | cons m course ih =>
      rw [List.flatMap_cons, List.countP_append, List.countP_cons, ih, m.countP_render]
      cases m.drawsWhole <;> simp [Nat.add_comm]

theorem course_kept {P : Machine σ → Prop} (hkept : Machine.Kept P) {s : Session σ} (hs : P s.machine) {n : Nat}
    {m : Machine σ} (hm : m ∈ s.course n) : P m := by
  obtain ⟨k, -, hk⟩ := List.mem_filterMap.mp hm
  have hreached := hkept.steps k hs
  rcases hsteps : s.steps k with ⟨e | _, reached⟩
  · rw [hsteps] at hk
    cases hk
  · rw [hsteps] at hk hreached
    cases hk
    exact hreached

/-- As long as all steps succeed no call fails, so only the last of them can be a failure. -/
theorem calls_until_failure (s : Session σ) (n : Nat) :
    let calls := (s.course n).flatMap Machine.calls
    (calls.Pairwise fun earlier _ => earlier.failure? = none) ∧
      ((s.steps n).1 = .ok () → firstFailure? calls = none) := by
  induction n with
  | zero => exact ⟨.nil, fun _ => rfl⟩
  | succ n ih =>
      obtain ⟨hbefore, hok⟩ := ih
      rcases hs : s.steps n with ⟨e | _, reached⟩
      · rw [steps_succ_of_error hs, course_succ_of_error hs]
        exact ⟨hbefore, nofun⟩
      · have hnone := hok (congrArg Prod.fst hs)
        rw [steps_succ_of_ok hs, course_succ_of_ok hs, List.flatMap_append, List.flatMap_singleton]
        refine ⟨List.pairwise_append.mpr ⟨hbefore, reached.machine.calls_follow.pairwise, ?_⟩, ?_⟩
        · intro c hc _ _
          exact List.findSome?_eq_none_iff.mp hnone c hc
        · intro hstep
          rw [firstFailure?_append, hnone]
          exact Machine.firstFailure?_of_ok hstep

theorem onGrid_of_toggle {m : Machine σ} (hedge : m.rules.edge = .wrap) {x y : UInt16}
    {answer : Except ScreenFault Bool} (h : .toggle x y answer ∈ m.calls) : Frame.OnGrid x.toNat y.toNat := by
  have horder : ScreenOrder.toggle x.toNat y.toNat ∈ m.plan := m.calls_follow.order_mem h
  unfold Machine.plan at horder
  cases hi : m.current? with
  | none => simp [hi] at horder
  | some i =>
      rw [hi] at horder
      cases i with
      | drw vx vy rows =>
          simp only [Option.elim_some, Machine.planFor] at horder
          split at horder
          · obtain hflip | hrender := List.mem_append.mp horder
            · obtain ⟨p, hp, heq⟩ := List.mem_map.mp hflip
              obtain ⟨hx, hy⟩ := ScreenOrder.toggle.inj heq
              have hon := Machine.onGrid_of_wrap hedge hp
              rwa [hx, hy] at hon
            · simp at hrender
          · cases horder
      | _ => simp [Machine.planFor] at horder

/-- A step asks its screen just for what its instruction needs, in order, and stops at the first failure: nothing but to be
cleared to clear it; for a sprite in memory a flip for each set bit, row by row from the left, where the edge rule puts
it, and then to be shown; otherwise nothing. So in a run the screen is asked to show a picture once for every sprite that
is drawn whole, with wrapped edges it is never asked for a pixel that is not there, and after a failure it is not asked
for anything. It is never asked whether it is closed. -/
theorem calls_follow_plans (s : Session σ) (n : Nat) :
    let ran := (s.recorded s.machine.screen).steps n
    let screen := ran.2.machine.screen
    (∀ m : Machine σ, Follows m.plan m.calls ∧
      m.watched.step.result = m.step.result ∧ m.watched.step.machine = m.step.machine.on ⟨m.step.machine.screen, m.calls, []⟩) ∧
    (ran.1 = (s.steps n).1 ∧ ran.2.machine.on screen.screen = (s.steps n).2.machine) ∧
    screen.calls = (s.course n).flatMap Machine.calls ∧
    screen.polls = [] ∧
    screen.calls.countP (·.order = .render) = (s.course n).countP Machine.drawsWhole ∧
    (s.machine.rules.edge = .wrap → ∀ x y answer, .toggle x y answer ∈ screen.calls → Frame.OnGrid x.toNat y.toNat) ∧
    screen.calls.Pairwise fun earlier _ => earlier.failure? = none := by
  intro ran screen
  obtain ⟨hresult, hmachine⟩ := s.steps_recorded n
  have hscreen : screen = ⟨(s.steps n).2.machine.screen, (s.course n).flatMap Machine.calls, []⟩ :=
    congrArg Machine.screen hmachine
  refine ⟨?_, ⟨hresult, ?_⟩, ?_⟩
  · intro m
    have hsame : Step.SameOn m.step m.watched.step _ := m.step_on_recorded [] []
    exact ⟨m.calls_follow, hsame.result, hsame.machine⟩
  · have hran : ran.2.machine = _ := hmachine
    rw [hscreen, hran]
    rfl
  · rw [hscreen]
    refine ⟨rfl, rfl, countP_render_flatMap _, ?_, (s.calls_until_failure n).1⟩
    intro hedge x y answer hmem
    obtain ⟨m, hm, hcall⟩ := List.mem_flatMap.mp hmem
    have hrules : m.rules = s.machine.rules := course_kept (kept_rules s.machine.rules) rfl hm
    exact onGrid_of_toggle (hrules ▸ hedge) hcall

/-- A zero around the bottom right corner, and the screen breaks in drawing it again. -/
theorem calls_follow_plans_broken_screen :
    let screen : Scripted := { script := { failPixelAt := some 16 } }
    let s := ((start screen { edge := .wrap }).loadProgram #[0x60, 0x3E, 0x61, 0x1E, 0xD0, 0x15, 0x12, 0x04]).2
    let calls := ((s.recorded screen).steps 9).2.machine.screen.calls
    s.machine.rules.edge = .wrap ∧ calls.length = 17 ∧ firstFailure? calls = some .crashed ∧
      calls.countP (·.order = .render) = 1 ∧
      (∀ x y answer, .toggle x y answer ∈ calls → Frame.OnGrid x.toNat y.toNat) ∧
      calls.Pairwise fun earlier _ => earlier.failure? = none := by
  intro screen s calls
  have hscreen : s.machine.screen = screen := rfl
  have hedge : s.machine.rules.edge = .wrap := by decide
  obtain ⟨-, -, -, -, hrenders, hon, hlast⟩ := calls_follow_plans s 9
  rw [hscreen] at hrenders hon hlast
  exact ⟨hedge, by decide, by decide, hrenders.trans (by decide), hon hedge, hlast⟩

end Session

end ChipEight
