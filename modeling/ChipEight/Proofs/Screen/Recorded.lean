import ChipEight.Proofs.Machine.Step
import ChipEight.Proofs.Screen.Mirror

/-!
What a screen is asked and what it answers. The answers are all that a machine ever learns of its screen: where another
screen answers the same calls alike, a step goes the same way.
-/

namespace ChipEight

/-- A call with its answer. -/
inductive ScreenCall where
  | clear
  | toggle (x y : UInt16) (answer : Except ScreenFault Bool)
  | render (answer : Except ScreenFault Unit)

/-- A screen that keeps a record of all that it is asked. -/
structure Recorded (σ : Type) where
  screen : σ
  calls : List ScreenCall := []
  /-- What it said each time it was asked whether it is closed. -/
  polls : List Bool := []

instance {σ : Type} [Screen σ] : Screen (Recorded σ) where
  clear s := { s with screen := Screen.clear s.screen, calls := s.calls ++ [.clear] }
  toggle s x y :=
    let (answer, screen) := Screen.toggle s.screen x y
    (answer, { s with screen, calls := s.calls ++ [.toggle x y answer] })
  render s :=
    let shown := Screen.render s.screen
    ⟨shown.result, shown.events, { s with screen := shown.screen, calls := s.calls ++ [.render shown.result] }⟩
  isClosed s :=
    let (closed, screen) := Screen.isClosed s.screen
    (closed, { s with screen, polls := s.polls ++ [closed] })

namespace Screen

/-- The calls, made one after the other, are answered so, and that leads from the one screen to the other. -/
inductive Answers {σ : Type} [Screen σ] : σ → List ScreenCall → σ → Prop where
  | nil (s : σ) : Answers s [] s
  | clear {s s' : σ} {calls} : Answers (Screen.clear s) calls s' → Answers s (.clear :: calls) s'
  | toggle {s u s' : σ} {x y answer calls} : Screen.toggle s x y = (answer, u) → Answers u calls s' →
      Answers s (.toggle x y answer :: calls) s'
  | render {s s' : σ} {answer calls} : (Screen.render s).result = answer → Answers (Screen.render s).screen calls s' →
      Answers s (.render answer :: calls) s'

/-- Seen through `f`, a screen is none the worse for being asked whether it is closed. -/
structure Unpolled {σ τ : Type} [Screen σ] [Screen τ] (f : σ → τ) : Prop extends Mirrors (fun _ => True) f where
  poll : ∀ s, f (Screen.isClosed s).2 = f s

namespace Answers

variable {σ τ : Type} [Screen σ] [Screen τ] {s u s' : σ} {calls more : List ScreenCall}

theorem append (h : Answers s calls u) (hmore : Answers u more s') : Answers s (calls ++ more) s' := by
  induction h with
  | nil => exact hmore
  | clear _ ih => exact .clear (ih hmore)
  | toggle ht _ ih => exact .toggle ht (ih hmore)
  | render hr _ ih => exact .render hr (ih hmore)

theorem of_append (h : Answers s (calls ++ more) s') : ∃ u, Answers s calls u ∧ Answers u more s' := by
  induction calls generalizing s with
  | nil => exact ⟨s, .nil s, h⟩
  | cons c calls ih =>
      cases h with
      | clear h =>
          obtain ⟨u, hu, hmore⟩ := ih h
          exact ⟨u, .clear hu, hmore⟩
      | toggle ht h =>
          obtain ⟨u, hu, hmore⟩ := ih h
          exact ⟨u, .toggle ht hu, hmore⟩
      | render hr h =>
          obtain ⟨u, hu, hmore⟩ := ih h
          exact ⟨u, .render hr hu, hmore⟩

theorem map {f : σ → τ} (hf : Mirrors (fun _ => True) f) (h : Answers s calls s') : Answers (f s) calls (f s') := by
  induction h with
  | nil => exact .nil _
  | clear _ ih => exact .clear ((hf.clear _ trivial).1 ▸ ih)
  | @toggle s u _ x y answer _ ht _ ih =>
      have hft : Screen.toggle (f s) x y = (answer, f u) := by
        rw [(hf.toggle s x y trivial).1, ht]
      exact .toggle hft ih
  | render hr _ ih =>
      obtain ⟨hresult, hscreen, -⟩ := hf.render _ trivial
      exact .render (hresult.trans hr) (hscreen ▸ ih)

theorem recorded (h : Answers s calls s') (before : List ScreenCall) (polls : List Bool) :
    Answers (⟨s, before, polls⟩ : Recorded σ) calls ⟨s', before ++ calls, polls⟩ := by
  induction h generalizing before with
  | nil => exact before.append_nil.symm ▸ .nil _
  | clear _ ih => exact .clear (List.append_cons before .clear _ ▸ ih _)
  | @toggle s u _ x y answer calls ht _ ih =>
      have hrt : Screen.toggle (⟨s, before, polls⟩ : Recorded σ) x y =
          (answer, ⟨u, before ++ [.toggle x y answer], polls⟩) := by
        simp only [Screen.toggle, ht]
      exact .toggle hrt (List.append_cons before (.toggle x y answer) calls ▸ ih _)
  | @render s _ answer calls hr _ ih =>
      subst hr
      exact .render rfl (List.append_cons before (.render _) calls ▸ ih _)

theorem of_recorded {r r' : Recorded σ} (h : Answers r calls r') :
    r'.calls = r.calls ++ calls ∧ r'.polls = r.polls := by
  induction h with
  | nil r => exact ⟨r.calls.append_nil.symm, rfl⟩
  | clear _ ih => exact ⟨ih.1.trans (List.append_cons ..).symm, ih.2⟩
  | toggle ht _ ih =>
      cases ht
      exact ⟨ih.1.trans (List.append_cons ..).symm, ih.2⟩
  | render hr _ ih =>
      subst hr
      exact ⟨ih.1.trans (List.append_cons ..).symm, ih.2⟩

end Answers

end Screen

open Screen (Answers)

/-- A screen that has its answers in hand and gives one after the other. -/
structure Replay where
  calls : List ScreenCall

namespace Replay

instance : Screen Replay where
  clear s := ⟨s.calls.tail⟩
  toggle s _ _ :=
    match s.calls with
    | .toggle _ _ answer :: calls => (answer, ⟨calls⟩)
    | _ => (.error .crashed, s)
  render s :=
    match s.calls with
    | .render answer :: calls => ⟨answer, [], ⟨calls⟩⟩
    | _ => ⟨.error .crashed, [], s⟩
  isClosed s := (false, s)

theorem answers (calls : List ScreenCall) : Answers (⟨calls⟩ : Replay) calls ⟨[]⟩ := by
  induction calls with
  | nil => exact .nil _
  | cons c calls ih =>
      cases c with
      | clear => exact .clear ih
      | toggle x y answer => exact .toggle rfl ih
      | render answer => exact .render rfl ih

end Replay

namespace Recorded

variable {σ : Type} [Screen σ]

theorem mirrors : Screen.Mirrors (fun _ : Recorded σ => True) Recorded.screen where
  clear _ _ := ⟨rfl, trivial⟩
  toggle _ _ _ _ := ⟨rfl, trivial⟩
  render _ _ := ⟨rfl, rfl, trivial⟩

/-- From the one screen to the other, these are the calls that were made and the answers as to being closed. -/
structure Extends (r r' : Recorded σ) (asked : List ScreenCall) (told : List Bool) : Prop where
  calls : r'.calls = r.calls ++ asked
  polls : r'.polls = r.polls ++ told
  answers : ∀ {τ : Type} [Screen τ] {f : σ → τ}, Screen.Unpolled f → Answers (f r.screen) asked (f r'.screen)

namespace Extends

variable {r u r' : Recorded σ} {asked more : List ScreenCall} {told further : List Bool}

theorem refl (r : Recorded σ) : Extends r r [] [] :=
  ⟨r.calls.append_nil.symm, r.polls.append_nil.symm, fun _ => .nil _⟩

theorem trans (h : Extends r u asked told) (h' : Extends u r' more further) :
    Extends r r' (asked ++ more) (told ++ further) where
  calls := by rw [h'.calls, h.calls, List.append_assoc]
  polls := by rw [h'.polls, h.polls, List.append_assoc]
  answers hf := (h.answers hf).append (h'.answers hf)

theorem of_answers (h : Answers r asked r') : Extends r r' asked [] where
  calls := h.of_recorded.1
  polls := h.of_recorded.2.trans r.polls.append_nil.symm
  answers hf := (h.map mirrors).map hf.toMirrors

theorem of_poll (r : Recorded σ) : Extends r (Screen.isClosed r).2 [] [(Screen.isClosed r).1] where
  calls := r.calls.append_nil.symm
  polls := rfl
  answers hf := (hf.poll r.screen).symm ▸ .nil _

end Extends

end Recorded

variable {σ τ : Type}

/-- The machine, drawing on another screen. -/
def Machine.on (m : Machine σ) (screen : τ) : Machine τ := { m with screen }

/-- The other step goes the same way, up to its screen. -/
structure Step.SameOn (s : Step σ) (t : Step τ) (screen : τ) : Prop where
  result : t.result = s.result
  machine : t.machine = s.machine.on screen

namespace Machine

variable [Screen σ]

theorem flipAll_answered (s : σ) (targets : List (UInt16 × UInt16)) :
    ∃ calls, Answers s calls (flipAll s targets).2 ∧ ∀ {τ : Type} [Screen τ] {t t' : τ}, Answers t calls t' →
      flipAll t targets = ((flipAll s targets).1, t') := by
  induction targets generalizing s with
  | nil => exact ⟨[], .nil s, fun | .nil t => rfl⟩
  | cons target rest ih =>
      obtain ⟨x, y⟩ := target
      rcases hs : Screen.toggle s x y with ⟨e | erased, u⟩
      · rw [flipAll_of_refused hs]
        refine ⟨[.toggle x y (.error e)], .toggle hs (.nil u), ?_⟩
        rintro τ _ t t' (_ | _ | ⟨ht, ⟨⟩⟩)
        exact flipAll_of_refused ht rest
      · obtain ⟨calls, hcalls, hsame⟩ := ih u
        rw [flipAll_of_toggled hs]
        refine ⟨.toggle x y (.ok erased) :: calls, .toggle hs hcalls, ?_⟩
        rintro τ _ t t' (_ | _ | ⟨ht, hrest⟩)
        rw [flipAll_of_toggled ht, hsame hrest]

theorem draw_answered (m : Machine σ) (x y : Register) (rows : Fin 16) (pc word : UInt16) :
    ∃ calls, Answers m.screen calls (m.draw x y rows pc word).machine.screen ∧
      ∀ {τ : Type} [Screen τ] {t t' : τ}, Answers t calls t' →
        Step.SameOn (m.draw x y rows pc word) ((m.on t).draw x y rows pc word) t' := by
  cases hs : m.ram.slice? m.index rows with
  | none =>
      rw [draw_of_outside hs]
      refine ⟨[], .nil _, ?_⟩
      rintro τ _ t t' ⟨⟩
      have hs' : (m.on t).ram.slice? (m.on t).index rows = none := hs
      rw [draw_of_outside hs']
      exact ⟨rfl, rfl⟩
  | some sprite =>
      obtain ⟨calls, hcalls, hsame⟩ := flipAll_answered m.screen
        (m.targets x y sprite)
      rcases hf : flipAll m.screen (m.targets x y sprite) with ⟨e | erased, u⟩
      all_goals simp only [hf] at hcalls hsame
      · rw [draw_of_refused hs hf]
        refine ⟨calls, hcalls, ?_⟩
        intro τ _ t t' ht
        have hs' : (m.on t).ram.slice? (m.on t).index rows = some sprite := hs
        rw [draw_of_refused hs' (hsame ht)]
        exact ⟨rfl, rfl⟩
      · rw [draw_of_flipped hs hf]
        refine ⟨calls ++ [.render (Screen.render u).result], hcalls.append (.render rfl (.nil _)), ?_⟩
        intro τ _ t t' ht
        obtain ⟨w, hw, hrender⟩ := ht.of_append
        have hs' : (m.on t).ram.slice? (m.on t).index rows = some sprite := hs
        rw [draw_of_flipped hs' (hsame hw)]
        cases hrender with
        | render hresult hnil =>
            cases hnil
            exact ⟨congrArg (Except.mapError (Fault.screen pc word)) hresult, rfl⟩

theorem execute_answered (m : Machine σ) (pc word : UInt16) (i : Instr) :
    ∃ calls, Answers m.screen calls (m.execute pc word i).machine.screen ∧
      ∀ {τ : Type} [Screen τ] {t t' : τ}, Answers t calls t' →
        Step.SameOn (m.execute pc word i) ((m.on t).execute pc word i) t' := by
  cases i with
  | cls => exact ⟨[.clear], .clear (.nil _), fun | .clear (.nil _) => ⟨rfl, rfl⟩⟩
  | drw x y rows => exact m.draw_answered x y rows pc word
  | _ => exact ⟨[], .nil _, fun | .nil _ => ⟨rfl, rfl⟩⟩

theorem step_answered (m : Machine σ) :
    ∃ calls, Answers m.screen calls m.step.machine.screen ∧
      ∀ {τ : Type} [Screen τ] {t t' : τ}, Answers t calls t' → Step.SameOn m.step (m.on t).step t' := by
  cases hf : m.fetch with
  | error e =>
      rw [step_of_error hf]
      refine ⟨[], .nil _, ?_⟩
      rintro τ _ t t' ⟨⟩
      have hf' : (m.on t).fetch = .error e := hf
      rw [step_of_error hf']
      exact ⟨rfl, rfl⟩
  | ok word =>
      rw [step_of_ok hf]
      obtain ⟨calls, hcalls, hsame⟩ := { m with pc := m.pc + 2 }.execute_answered m.pc word (Instr.decode word)
      refine ⟨calls, hcalls, ?_⟩
      intro τ _ t t' ht
      have hf' : (m.on t).fetch = .ok word := hf
      rw [step_of_ok hf']
      exact ⟨(hsame ht).result, (hsame ht).machine⟩

end Machine

end ChipEight
