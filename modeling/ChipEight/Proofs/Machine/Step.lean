import ChipEight.Machine

/-! How a step goes, once for all the theory that builds on it. -/

namespace ChipEight

/-- VF. -/
abbrev Register.flag : Register := Fin.last 15

/-- The register that an instruction may change. -/
def Instr.written? : Instr → Option Register
  | .ld x _ | .add x _ => some x
  | .drw .. => some Register.flag
  | _ => none

def Instr.nextPc (pc : UInt16) : Instr → UInt16
  | .jp target => UInt16.ofNat target
  | _ => pc + 2

def Instr.nextIndex (index : UInt16) : Instr → UInt16
  | .ldI target => UInt16.ofNat target
  | _ => index

/-- The registers after a sprite whose flips gave these answers. -/
def FlagRule.update (rule : FlagRule) (erased : List Bool) (v : Vector UInt8 16) : Vector UInt8 16 :=
  match rule.value? erased with
  | some flag => v.set Register.flag flag.toUInt8 Register.flag.isLt
  | none => v

theorem get_set (v : Vector UInt8 16) (x r : Register) (byte : UInt8) (h : x.val < 16) :
    (v.set x byte h).get r = if x = r then byte else v.get r := by
  have hget (w : Vector UInt8 16) : w.get r = w[r.val] := rfl
  rw [hget, hget, Vector.getElem_set]
  simp only [Fin.ext_iff]

theorem FlagRule.get_update (rule : FlagRule) (erased : List Bool) (v : Vector UInt8 16) {r : Register}
    (hr : r ≠ Register.flag) : (rule.update erased v).get r = v.get r := by
  unfold update
  split
  · exact (get_set v Register.flag r _ _).trans (if_neg hr.symm)
  · rfl

theorem FlagRule.get_update_flag (rule : FlagRule) (erased : List Bool) (v : Vector UInt8 16) :
    (rule.update erased v).get Register.flag = (rule.value? erased).elim (v.get Register.flag) Bool.toUInt8 := by
  unfold update
  cases rule.value? erased with
  | none => rfl
  | some flag => exact (get_set v Register.flag Register.flag _ _).trans (if_pos rfl)

namespace Machine

variable {σ : Type} {m : Machine σ}

/-- The instruction at PC, if both of its bytes lie in memory. -/
def current? (m : Machine σ) : Option Instr := m.fetch.toOption.map Instr.decode

theorem current?_of_ok {word : UInt16} (h : m.fetch = .ok word) : m.current? = some (Instr.decode word) := by
  rw [current?, h]
  rfl

theorem current?_of_error {e : Fault} (h : m.fetch = .error e) : m.current? = none := by
  rw [current?, h]
  rfl

/-- The word at PC as memory holds it, its high byte first, if both of its bytes lie in memory. -/
def word? (m : Machine σ) : Option UInt16 :=
  if h : m.pc.toNat + 1 < 4096 then
    some (UInt16.ofNat (256 * (m.ram.bytes ⟨m.pc.toNat, by omega⟩).toNat + (m.ram.bytes ⟨m.pc.toNat + 1, h⟩).toNat))
  else none

theorem fetch_eq (m : Machine σ) : m.fetch = m.word?.elim (.error (.ranOff m.pc)) .ok := by
  unfold fetch Ram.read word?
  by_cases hpc : m.pc.toNat < 4096
  · have hnext : (m.pc + 1).toNat = m.pc.toNat + 1 := by
      rw [UInt16.toNat_add, UInt16.toNat_one]
      omega
    by_cases hlow : m.pc.toNat + 1 < 4096
    · have hhigh := (m.ram.bytes ⟨m.pc.toNat, hpc⟩).toNat_lt
      simp only [dif_pos hpc, hnext, dif_pos hlow, Option.elim_some]
      refine congrArg Except.ok (UInt16.toNat_inj.mp ?_)
      simp only [UInt16.toNat_add, UInt16.toNat_mul, UInt8.toNat_toUInt16, UInt16.toNat_ofNat', UInt16.reduceToNat]
      omega
    · simp only [dif_pos hpc, hnext, dif_neg hlow, Option.elim_none]
  · have hlow : ¬ m.pc.toNat + 1 < 4096 := by omega
    simp only [dif_neg hpc, dif_neg hlow, Option.elim_none]

theorem fetch_error {e : Fault} (h : m.fetch = .error e) : e = .ranOff m.pc := by
  rw [fetch_eq] at h
  cases hw : m.word? with
  | none =>
      rw [hw] at h
      cases h
      rfl
  | some word =>
      rw [hw] at h
      cases h

theorem pc_lt_of_fetch {word : UInt16} (h : m.fetch = .ok word) : m.pc.toNat + 1 < 4096 := by
  rw [fetch_eq, word?] at h
  split at h
  · rename_i hpc
    exact hpc
  · cases h

/-- Counting PC up past a word in memory does not wrap. -/
theorem toNat_add_two {pc : UInt16} (hpc : pc.toNat + 1 < 4096) : (pc + 2).toNat = pc.toNat + 2 := by
  simp only [UInt16.toNat_add, UInt16.reduceToNat]
  omega

def targets (m : Machine σ) (x y : Register) (sprite : List UInt8) : List (UInt16 × UInt16) :=
  (spriteTargets (m.v.get x) (m.v.get y) sprite).map m.rules.edge.place

section

variable [Screen σ] {x y : Register} {rows : Fin 16} {sprite : List UInt8} {screen : σ}

/-- The machine after `n` steps, whatever came of them. -/
def after (m : Machine σ) : Nat → Machine σ
  | 0 => m
  | n + 1 => (m.after n).step.machine

theorem step_of_error {e : Fault} (h : m.fetch = .error e) : m.step = ⟨.error e, [], m⟩ := by
  rw [step, h]

theorem step_of_ok {word : UInt16} (h : m.fetch = .ok word) :
    let s := { m with pc := m.pc + 2 }.execute m.pc word (Instr.decode word)
    m.step = { s with events := .fetched m.pc word :: s.events } := by
  rw [step, h]

theorem flipAll_of_toggled {s u : σ} {x y : UInt16} {erased : Bool} (h : Screen.toggle s x y = (.ok erased, u))
    (rest : List (UInt16 × UInt16)) :
    flipAll s ((x, y) :: rest) = ((flipAll u rest).1.map (erased :: ·), (flipAll u rest).2) := by
  rw [flipAll, h]
  rcases hr : flipAll u rest with ⟨_ | more, s'⟩ <;> simp only [hr] <;> rfl

theorem flipAll_of_refused {s u : σ} {x y : UInt16} {e : ScreenFault} (h : Screen.toggle s x y = (.error e, u))
    (rest : List (UInt16 × UInt16)) : flipAll s ((x, y) :: rest) = (.error e, u) := by
  rw [flipAll, h]

theorem flipAll_append_of_ok {s u : σ} {targets : List (UInt16 × UInt16)} {erased : List Bool}
    (h : flipAll s targets = (.ok erased, u)) (rest : List (UInt16 × UInt16)) :
    flipAll s (targets ++ rest) = ((flipAll u rest).1.map (erased ++ ·), (flipAll u rest).2) := by
  induction targets generalizing s erased with
  | nil =>
      cases h
      rw [List.nil_append]
      rcases flipAll u rest with ⟨_ | more, s'⟩ <;> rfl
  | cons t targets ih =>
      obtain ⟨x, y⟩ := t
      rcases ht : Screen.toggle s x y with ⟨e | first, s'⟩
      · rw [flipAll_of_refused ht] at h
        cases h
      · rw [flipAll_of_toggled ht] at h
        rcases hr : flipAll s' targets with ⟨e | more, u'⟩
        · rw [hr] at h
          cases h
        · rw [hr] at h
          cases h
          rw [List.cons_append, flipAll_of_toggled ht, ih hr]
          rcases flipAll u' rest with ⟨_ | more', s''⟩ <;> rfl

theorem draw_of_outside (hs : m.ram.slice? m.index rows = none) (pc word : UInt16) :
    m.draw x y rows pc word = ⟨.error (.spriteOutside pc word m.index (UInt8.ofNat rows)), [], m⟩ := by
  rw [draw, hs]

theorem draw_of_refused (hs : m.ram.slice? m.index rows = some sprite) {e : ScreenFault}
    (hf : flipAll m.screen (m.targets x y sprite) = (.error e, screen)) (pc word : UInt16) :
    m.draw x y rows pc word = ⟨.error (.screen pc word e), [], { m with screen }⟩ := by
  have hflip : flipAll m.screen ((spriteTargets m.v[x] m.v[y] sprite).map m.rules.edge.place) = (.error e, screen) := hf
  rw [draw, hs]
  simp only [hflip]

theorem draw_of_flipped (hs : m.ram.slice? m.index rows = some sprite) {erased : List Bool}
    (hf : flipAll m.screen (m.targets x y sprite) = (.ok erased, screen)) (pc word : UInt16) :
    m.draw x y rows pc word = ⟨(Screen.render screen).result.mapError (.screen pc word), (Screen.render screen).events,
      { m with v := m.rules.flag.update erased m.v, screen := (Screen.render screen).screen }⟩ := by
  have hflip : flipAll m.screen ((spriteTargets m.v[x] m.v[y] sprite).map m.rules.edge.place) = (.ok erased, screen) := hf
  rw [draw, hs]
  simp only [hflip]
  rfl

end

/-! ## What a step changes -/

/-- What a step that gets as far as `i` does to a machine, its screen and the value of VF after a draw aside. A step
that does not get as far as any instruction does nothing. -/
structure Effect (i : Option Instr) (m m' : Machine σ) : Prop where
  ram : m'.ram = m.ram
  rules : m'.rules = m.rules
  stack : m'.stack = m.stack
  delay : m'.delay = m.delay
  sound : m'.sound = m.sound
  period : m'.period = m.period
  pc : m'.pc = i.elim m.pc (·.nextPc m.pc)
  index : m'.index = i.elim m.index (·.nextIndex m.index)
  v : ∀ r, i.bind Instr.written? ≠ some r → m'.v.get r = m.v.get r
  ld : ∀ x byte, i = some (.ld x byte) → m'.v.get x = byte
  add : ∀ x byte, i = some (.add x byte) → m'.v.get x = m.v.get x + byte

theorem Effect.none (m : Machine σ) : Effect none m m := by
  constructor <;> simp

theorem Effect.get_of_written {i : Option Instr} {m m' : Machine σ} (h : Effect i m m') {r : Register}
    (hr : m'.v.get r ≠ m.v.get r) : i.bind Instr.written? = some r :=
  Decidable.byContradiction fun hi => hr (h.v r hi)

variable [Screen σ]

theorem draw_frame (m : Machine σ) (x y : Register) (rows : Fin 16) (pc word : UInt16) :
    ∃ (screen : σ) (v : Vector UInt8 16), (m.draw x y rows pc word).machine = { m with screen, v } ∧
      ∀ r, r ≠ Register.flag → v.get r = m.v.get r := by
  cases hs : m.ram.slice? m.index rows with
  | none =>
      rw [draw_of_outside hs]
      exact ⟨m.screen, m.v, rfl, fun _ _ => rfl⟩
  | some sprite =>
      rcases hf : flipAll m.screen (m.targets x y sprite) with ⟨_ | erased, screen⟩
      · rw [draw_of_refused hs hf]
        exact ⟨screen, m.v, rfl, fun _ _ => rfl⟩
      · rw [draw_of_flipped hs hf]
        exact ⟨_, _, rfl, fun r hr => FlagRule.get_update _ _ _ hr⟩

theorem execute_effect (m : Machine σ) (pc word : UInt16) (i : Instr) :
    Effect (some i) m ({ m with pc := m.pc + 2 }.execute pc word i).machine := by
  cases i with
  | ld x byte =>
      refine ⟨rfl, rfl, rfl, rfl, rfl, rfl, rfl, rfl, ?_, ?_, nofun⟩
      · intro r hr
        exact (get_set m.v x r byte x.isLt).trans (if_neg fun hx => hr (congrArg some hx))
      · intro x' byte' hi
        cases hi
        exact (get_set m.v x x byte x.isLt).trans (if_pos rfl)
  | add x byte =>
      refine ⟨rfl, rfl, rfl, rfl, rfl, rfl, rfl, rfl, ?_, nofun, ?_⟩
      · intro r hr
        exact (get_set m.v x r _ x.isLt).trans (if_neg fun hx => hr (congrArg some hx))
      · intro x' byte' hi
        cases hi
        exact (get_set m.v x x _ x.isLt).trans (if_pos rfl)
  | drw x y rows =>
      obtain ⟨screen, v, hm, hv⟩ := { m with pc := m.pc + 2 }.draw_frame x y rows pc word
      have he : ({ m with pc := m.pc + 2 }.execute pc word (.drw x y rows)).machine =
          { m with pc := m.pc + 2, screen, v } := hm
      rw [he]
      refine ⟨rfl, rfl, rfl, rfl, rfl, rfl, rfl, rfl, ?_, nofun, nofun⟩
      intro r hr
      exact hv r fun hF => hr (congrArg some hF.symm)
  | cls | jp | ldI | unknown => exact ⟨rfl, rfl, rfl, rfl, rfl, rfl, rfl, rfl, fun _ _ => rfl, nofun, nofun⟩

theorem step_effect (m : Machine σ) : Effect m.current? m m.step.machine := by
  cases hf : m.fetch with
  | error e =>
      rw [step_of_error hf, current?_of_error hf]
      exact .none m
  | ok word =>
      rw [step_of_ok hf, current?_of_ok hf]
      exact m.execute_effect m.pc word (Instr.decode word)

/-! ## What a step logs -/

theorem event_of_draw {m : Machine σ} {x y : Register} {rows : Fin 16} {pc word : UInt16} {e : Event}
    (he : e ∈ (m.draw x y rows pc word).events) : ∃ screen : σ, e ∈ (Screen.render screen).events := by
  cases hs : m.ram.slice? m.index rows with
  | none =>
      rw [draw_of_outside hs] at he
      cases he
  | some sprite =>
      rcases hf : flipAll m.screen (m.targets x y sprite) with ⟨_ | erased, screen⟩
      · rw [draw_of_refused hs hf] at he
        cases he
      · rw [draw_of_flipped hs hf] at he
        exact ⟨screen, he⟩

theorem event_of_step {m : Machine σ} {e : Event} (he : e ∈ m.step.events) :
    (∃ pc word, e = .fetched pc word) ∨ ∃ screen : σ, e ∈ (Screen.render screen).events := by
  cases hf : m.fetch with
  | error cause =>
      rw [step_of_error hf] at he
      cases he
  | ok word =>
      rw [step_of_ok hf] at he
      obtain rfl | he := List.mem_cons.mp he
      · exact .inl ⟨m.pc, word, rfl⟩
      · generalize Instr.decode word = i at he
        cases i with
        | drw x y rows => exact .inr (event_of_draw he)
        | _ => cases he

end Machine

end ChipEight
