import ChipEight.Proofs.Machine.Call
import ChipEight.Proofs.Screen.Attended

/-!
The choice of a screen does not change what a machine computes: seen as machines on bare pictures, the same machine on
different screens goes through the same states and gives the same answers.
-/

namespace ChipEight

namespace Session

variable {σ τ : Type}

/-- Sessions that differ in their logs and their screens, the one screen being what `f` makes of the other. -/
structure Mirrors (P : σ → Prop) (f : σ → τ) (s : Session σ) (t : Session τ) : Prop where
  machine : t.machine = s.machine.map f
  sound : P s.machine.screen

/-- What can be seen of a machine on a screen with a picture, call after call: the answer, and then the machine as if
it drew on the bare picture. -/
def trace [Screen σ] (picture : σ → Frame) (s : Session σ) : List Call → List (Except Failure (Option Bool) × Machine Frame)
  | [] => []
  | c :: calls => ((s.call c).1, (s.call c).2.machine.map picture) :: (s.call c).2.trace picture calls

namespace Mirrors

variable {P : σ → Prop} {f : σ → τ} {s : Session σ} {t : Session τ}

theorem load (h : Mirrors P f s t) (data : Array UInt8) (address : UInt16) :
    (t.load data address).1 = (s.load data address).1 ∧ Mirrors P f (s.load data address).2 (t.load data address).2 := by
  have hram : t.machine.ram = s.machine.ram := by rw [h.machine]; rfl
  simp only [Session.load, Machine.load, hram]
  cases s.machine.ram.write data address with
  | error e => exact ⟨rfl, h⟩
  | ok ram => exact ⟨rfl, by simp only [h.machine]; rfl, h.sound⟩

theorem withScreen (h : Mirrors P f s t) {screen : σ} (hs : P screen) :
    Mirrors P f (s.withScreen screen) (t.withScreen (f screen)) :=
  ⟨by simp only [Session.withScreen, h.machine]; rfl, hs⟩

variable [Screen σ] [Screen τ]

theorem step (hm : Screen.Mirrors P f) (h : Mirrors P f s t) :
    t.step.1 = s.step.1 ∧ Mirrors P f s.step.2 t.step.2 := by
  have hs := Machine.step_map hm h.sound
  simp only [Session.step, h.machine]
  exact ⟨hs.result, hs.machine, hs.sound⟩

theorem ask (hm : Screen.Mirrors P f) (h : Mirrors P f s t) (r : Request) :
    (t.ask r).1 = (s.ask r).1 ∧ Mirrors P f (s.ask r).2 (t.ask r).2 := by
  cases r with
  | load data address => exact h.load data address
  | loadProgram program =>
      have hram : t.machine.ram = s.machine.ram := by rw [h.machine]; rfl
      have hl := h.load program s.machine.ram.origin
      simp only [Session.ask, Session.loadProgram, Machine.loadProgram, hram]
      exact hl
  | step => exact h.step hm

theorem steps (hm : Screen.Mirrors P f) (h : Mirrors P f s t) (n : Nat) :
    (t.steps n).1 = (s.steps n).1 ∧ Mirrors P f (s.steps n).2 (t.steps n).2 := by
  induction n generalizing s t with
  | zero => exact ⟨rfl, h⟩
  | succ n ih =>
      obtain ⟨hresult, hnext⟩ := h.step hm
      unfold Session.steps
      rcases hs : s.step with ⟨_ | _, s'⟩ <;> rcases ht : t.step with ⟨_ | _, t'⟩ <;> rw [hs, ht] at hresult hnext
      · cases hresult
        exact ⟨rfl, hnext⟩
      · cases hresult
      · cases hresult
      · exact ih hnext

theorem call (hm : Screen.Mirrors P f) (h : Mirrors P f s t) (c : Call) :
    (t.call c).1 = (s.call c).1 ∧ Mirrors P f (s.call c).2 (t.call c).2 := by
  have hscreen : t.machine.screen = f s.machine.screen := by rw [h.machine]; rfl
  cases c with
  | ask r =>
      obtain ⟨hr, hn⟩ := h.ask hm r
      exact ⟨by simp only [Session.call, hr], hn⟩
  | steps n =>
      obtain ⟨hr, hn⟩ := h.steps hm n
      exact ⟨by simp only [Session.call, hr], hn⟩
  | toggle x y =>
      obtain ⟨ht, hs⟩ := hm.toggle s.machine.screen x y h.sound
      simp only [Session.call, hscreen, ht, true_and]
      exact h.withScreen hs
  | clear =>
      obtain ⟨hc, hs⟩ := hm.clear s.machine.screen h.sound
      simp only [Session.call, hscreen, hc, true_and]
      exact h.withScreen hs
  | render =>
      obtain ⟨hr, hn, hs⟩ := hm.render s.machine.screen h.sound
      simp only [Session.call, hscreen, hr, hn, true_and]
      exact ⟨(h.withScreen hs).machine, hs⟩

theorem trace_eq (hm : Screen.Mirrors P f) (h : Mirrors P f s t) (picture : τ → Frame) (calls : List Call) :
    s.trace (picture ∘ f) calls = t.trace picture calls := by
  induction calls generalizing s t with
  | nil => rfl
  | cons c calls ih =>
      obtain ⟨hr, hn⟩ := h.call hm c
      unfold Session.trace
      rw [ih hn, hr, hn.machine]
      rfl

end Mirrors

theorem trace_start [Screen σ] {P : σ → Prop} {picture : σ → Frame} (hm : Screen.Mirrors P picture) (screen : σ)
    (hs : P screen) (rules : Rules) (calls : List Call) :
    (start screen rules).trace picture calls = (start (picture screen) rules).trace id calls :=
  Mirrors.trace_eq hm (s := start screen rules) ⟨rfl, hs⟩ id calls

/-- Headless, printed, or in a window whose viewer does whatever it likes whenever it likes, a machine gives the same
answers and has the same memory, registers and picture after every call. A window never fails to show a picture, and
no viewer can keep it from coming to the end of that. -/
theorem trace_same_on_screens (rules : Rules) (calls : List Call) (text : String) (flushes : Nat)
    (plan : List (List ViewerMove)) :
    let headless := (start ({} : Headless) rules).trace Headless.frame calls
    (start ({ sink := { text, flushes } } : Printed) rules).trace Printed.frame calls = headless ∧
    (start ({} : Window) rules).trace Window.frame calls = headless ∧
    (start ({ plan } : Attended) rules).trace (·.window.frame) calls = headless ∧
    ∀ a : Attended, (Screen.render a).result = .ok () ∧ (Screen.render a).screen.window.link.phase = .idle := by
  intro headless
  have hh : headless = (start Frame.blank rules).trace id calls :=
    trace_start Headless.mirrors {} trivial rules calls
  rw [hh]
  refine ⟨?_, ?_, ?_, fun a => ⟨rfl, a.idle_render⟩⟩
  · exact trace_start Printed.mirrors { sink := { text, flushes } } ⟨rfl, rfl⟩ rules calls
  · exact trace_start Window.mirrors {} trivial rules calls
  · exact trace_start Attended.mirrors { plan } trivial rules calls

end Session

end ChipEight
