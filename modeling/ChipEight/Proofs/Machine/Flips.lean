import ChipEight.Proofs.Machine.Step

/-!
The flips of a draw. Up to them a step can fail without having changed a register; once they are done VF is written, and
only then is the picture shown.
-/

namespace ChipEight

namespace Machine

variable {σ : Type} [Screen σ] {m : Machine σ} {x y : Register} {rows : Fin 16} {erased : List Bool} {screen : σ}

/-- The answers to the flips of a sprite and the screen after them, if the sprite lies in memory and no flip is
refused. -/
def flips? (m : Machine σ) (x y : Register) (rows : Fin 16) : Option (List Bool × σ) :=
  (m.ram.slice? m.index rows).bind fun sprite =>
    match flipAll m.screen (m.targets x y sprite) with
    | (.ok erased, screen) => some (erased, screen)
    | (.error _, _) => none

/-- The same of the instruction at PC, if that draws. -/
def flipped? (m : Machine σ) : Option (List Bool × σ) :=
  match m.current? with
  | some (.drw x y rows) => m.flips? x y rows
  | _ => none

theorem flips?_of_flipped {sprite : List UInt8} (hs : m.ram.slice? m.index rows = some sprite)
    (hf : flipAll m.screen (m.targets x y sprite) = (.ok erased, screen)) : m.flips? x y rows = some (erased, screen) := by
  simp only [flips?, hs, Option.bind_some, hf]

theorem draw_of_flips (h : m.flips? x y rows = some (erased, screen)) (pc word : UInt16) :
    m.draw x y rows pc word = ⟨(Screen.render screen).result.mapError (.screen pc word), (Screen.render screen).events,
      { m with v := m.rules.flag.update erased m.v, screen := (Screen.render screen).screen }⟩ := by
  obtain ⟨sprite, hs, h⟩ := Option.bind_eq_some_iff.mp h
  rcases hf : flipAll m.screen (m.targets x y sprite) with ⟨_ | erased', screen'⟩
  · simp only [hf] at h
    cases h
  · simp only [hf] at h
    cases h
    exact draw_of_flipped hs hf pc word

theorem draw_of_no_flips (h : m.flips? x y rows = none) (pc word : UInt16) :
    ∃ e screen, m.draw x y rows pc word = ⟨.error e, [], { m with screen }⟩ := by
  cases hs : m.ram.slice? m.index rows with
  | none => exact ⟨_, _, draw_of_outside hs pc word⟩
  | some sprite =>
      rcases hf : flipAll m.screen (m.targets x y sprite) with ⟨e | erased, screen⟩
      · exact ⟨_, _, draw_of_refused hs hf pc word⟩
      · rw [flips?_of_flipped hs hf] at h
        cases h

theorem step_of_flipped {word : UInt16} (hf : m.fetch = .ok word) (h : m.flipped? = some (erased, screen)) :
    m.step = ⟨(Screen.render screen).result.mapError (.screen m.pc word),
      .fetched m.pc word :: (Screen.render screen).events,
      { m with pc := m.pc + 2, v := m.rules.flag.update erased m.v, screen := (Screen.render screen).screen }⟩ := by
  rw [step_of_ok hf]
  rw [flipped?, current?_of_ok hf] at h
  generalize Instr.decode word = i at h
  cases i with
  | drw x y rows =>
      have hflips : { m with pc := m.pc + 2 }.flips? x y rows = some (erased, screen) := h
      rw [execute, draw_of_flips hflips]
  | _ => cases h

theorem step_of_unflipped {word : UInt16} (hf : m.fetch = .ok word) (h : m.flipped? = none) :
    m.step.events = [.fetched m.pc word] ∧ (m.step.result = .ok () ∨ m.step.machine.v = m.v) := by
  rw [step_of_ok hf]
  rw [flipped?, current?_of_ok hf] at h
  generalize Instr.decode word = i at h
  cases i with
  | drw x y rows =>
      have hflips : { m with pc := m.pc + 2 }.flips? x y rows = none := h
      obtain ⟨e, screen, hdraw⟩ := draw_of_no_flips hflips m.pc word
      rw [execute, hdraw]
      exact ⟨rfl, .inr rfl⟩
  | unknown w => exact ⟨rfl, .inr rfl⟩
  | _ => exact ⟨rfl, .inl rfl⟩

end Machine

end ChipEight
