import ChipEight.Machine
import ChipEight.Screen.Printed
import ChipEight.Window.Basic

/-!
Screens of one kind that mirror screens of another: they answer alike and go on mirroring. A machine cannot tell which
of the two it draws on.
-/

namespace ChipEight

/-- The bare picture as a screen. -/
instance : Screen Frame where
  clear _ := .blank
  toggle f x y := f.toggle x y
  render f := ⟨.ok (), [], f⟩
  isClosed f := (false, f)

def Machine.map {σ τ : Type} (f : σ → τ) (m : Machine σ) : Machine τ := { m with screen := f m.screen }

/-- As long as `P` holds, and it goes on holding, `f s` answers as `s` does and stays what `f` makes of `s`. What they
log and whether they are closed does not matter. -/
structure Screen.Mirrors {σ τ : Type} [Screen σ] [Screen τ] (P : σ → Prop) (f : σ → τ) : Prop where
  clear : ∀ s, P s → Screen.clear (f s) = f (Screen.clear s) ∧ P (Screen.clear s)
  toggle : ∀ s x y, P s → Screen.toggle (f s) x y = ((Screen.toggle s x y).1, f (Screen.toggle s x y).2) ∧
    P (Screen.toggle s x y).2
  render : ∀ s, P s → (Screen.render (f s)).result = (Screen.render s).result ∧
    (Screen.render (f s)).screen = f (Screen.render s).screen ∧ P (Screen.render s).screen

structure Step.Mirrors {σ τ : Type} (P : σ → Prop) (f : σ → τ) (s : Step σ) (t : Step τ) : Prop where
  result : t.result = s.result
  machine : t.machine = s.machine.map f
  sound : P s.machine.screen

namespace Machine

variable {σ τ : Type} [Screen σ] [Screen τ] {P : σ → Prop} {f : σ → τ}

theorem flipAll_map (h : Screen.Mirrors P f) (targets : List (UInt16 × UInt16)) {s : σ} (hs : P s) :
    flipAll (f s) targets = ((flipAll s targets).1, f (flipAll s targets).2) ∧ P (flipAll s targets).2 := by
  induction targets generalizing s with
  | nil => exact ⟨rfl, hs⟩
  | cons target rest ih =>
      obtain ⟨x, y⟩ := target
      obtain ⟨ht, hs'⟩ := h.toggle s x y hs
      unfold flipAll
      rw [ht]
      rcases hr : Screen.toggle s x y with ⟨_ | erased, s'⟩
      · rw [hr] at hs'
        exact ⟨rfl, hs'⟩
      · rw [hr] at hs'
        obtain ⟨hrest, hs''⟩ := ih hs'
        simp only [hrest]
        rcases hq : flipAll s' rest with ⟨_ | more, s''⟩
        · rw [hq] at hs''
          exact ⟨rfl, hs''⟩
        · rw [hq] at hs''
          exact ⟨rfl, hs''⟩

theorem draw_map (h : Screen.Mirrors P f) {m : Machine σ} (hs : P m.screen) (x y : Register) (rows : Fin 16)
    (pc word : UInt16) : Step.Mirrors P f (m.draw x y rows pc word) ((m.map f).draw x y rows pc word) := by
  unfold draw
  simp only [map]
  cases m.ram.slice? m.index rows with
  | none => exact ⟨rfl, rfl, hs⟩
  | some sprite =>
      obtain ⟨hflip, hs'⟩ := flipAll_map h ((spriteTargets m.v[x] m.v[y] sprite).map m.rules.edge.place) hs
      simp only [hflip]
      rcases hr : flipAll m.screen ((spriteTargets m.v[x] m.v[y] sprite).map m.rules.edge.place) with ⟨_ | erased, s⟩
      · rw [hr] at hs'
        exact ⟨rfl, rfl, hs'⟩
      · rw [hr] at hs'
        obtain ⟨hresult, hscreen, hs''⟩ := h.render s hs'
        exact ⟨by simp only [hresult], by simp only [hscreen]; rfl, hs''⟩

theorem execute_map (h : Screen.Mirrors P f) {m : Machine σ} (hs : P m.screen) (pc word : UInt16) (i : Instr) :
    Step.Mirrors P f (m.execute pc word i) ((m.map f).execute pc word i) := by
  cases i with
  | cls =>
      obtain ⟨hclear, hs'⟩ := h.clear m.screen hs
      exact ⟨rfl, by simp only [execute, map, hclear], hs'⟩
  | drw x y rows => exact draw_map h hs x y rows pc word
  | _ => exact ⟨rfl, rfl, hs⟩

theorem step_map (h : Screen.Mirrors P f) {m : Machine σ} (hs : P m.screen) :
    Step.Mirrors P f m.step (m.map f).step := by
  have hf : (m.map f).fetch = m.fetch := rfl
  unfold step
  rw [hf]
  cases m.fetch with
  | error e => exact ⟨rfl, rfl, hs⟩
  | ok word =>
      have he := execute_map h (m := { m with pc := m.pc + 2 }) hs m.pc word (Instr.decode word)
      exact ⟨he.result, he.machine, he.sound⟩

end Machine

/-! ## The screens of the program -/

theorem Headless.mirrors : Screen.Mirrors (fun _ : Headless => True) Headless.frame where
  clear _ _ := ⟨rfl, trivial⟩
  toggle _ _ _ _ := ⟨rfl, trivial⟩
  render _ _ := ⟨rfl, rfl, trivial⟩

theorem Window.mirrors : Screen.Mirrors (fun _ : Window => True) Window.frame where
  clear _ _ := ⟨rfl, trivial⟩
  toggle _ _ _ _ := ⟨rfl, trivial⟩
  render _ _ := ⟨rfl, rfl, trivial⟩

/-- A sink that takes all that is written. -/
def Sink.Reliable (s : Sink) : Prop := s.refuseAfter = none ∧ s.failFlushAt = none

theorem Printed.render_of_reliable {s : Printed} (h : s.sink.Reliable) :
    Screen.render s = ⟨.ok (), [], { s with
      sink := { s.sink with text := s.sink.text ++ screenful s.frame, flushes := s.sink.flushes + 1 } }⟩ := by
  obtain ⟨hr, hf⟩ := h
  simp [Screen.render, Printed.render, Sink.write, Sink.refuses, Sink.flush, hr, hf]

theorem Printed.mirrors : Screen.Mirrors (fun s : Printed => s.sink.Reliable) Printed.frame where
  clear _ h := ⟨rfl, h⟩
  toggle _ _ _ h := ⟨rfl, h⟩
  render s h := by
    rw [render_of_reliable h]
    exact ⟨rfl, rfl, h⟩

end ChipEight
