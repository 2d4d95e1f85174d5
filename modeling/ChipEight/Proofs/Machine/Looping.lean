import ChipEight.Proofs.Machine.Overlay
import ChipEight.Proofs.Machine.Running

/-! A program that draws one sprite and starts over, by what each lap does. -/

namespace ChipEight

namespace Instr

/-- The two bytes that hold an instruction, the high one first. -/
def bytes (i : Instr) : List UInt8 := [UInt8.ofNat (i.word / 0x100), UInt8.ofNat i.word]

end Instr

/-- What was written is there. -/
theorem Ram.bytes_of_write {m m' : Ram} {data : Array UInt8} {address : UInt16} (h : m.write data address = .ok m')
    {i : Address} {b : UInt8} (hi : address.toNat ≤ i) (hb : data[i.val - address.toNat]? = some b) :
    m'.bytes i = b := by
  unfold write at h
  split at h
  · rename_i hedit
    cases h
    have hlt := (Array.getElem?_eq_some_iff.mp hb).1
    rw [bytes_edit hedit, if_pos ⟨hi, by omega⟩, hb]
    rfl
  · cases h

namespace Machine

section

variable {σ : Type} {m : Machine σ} {i : Instr}

/-- The instruction lies in memory at this address. -/
def Holds (m : Machine σ) (address : UInt16) (i : Instr) : Prop :=
  { m with pc := address }.fetch = .ok (UInt16.ofNat i.word)

theorem Holds.congr {τ : Type} {m' : Machine τ} {address : UInt16} (h : m.Holds address i) (hram : m'.ram = m.ram) :
    m'.Holds address i := by
  rw [Holds, ← h, fetch, fetch]
  simp only [hram]

theorem holds_of_write {ram : Ram} {data : Array UInt8} {origin address : UInt16} {n : Nat}
    (hw : ram.write data origin = .ok m.ram) (haddress : address.toNat = origin.toNat + n)
    (hin : address.toNat + 1 < 4096) (hhigh : data[n]? = some (UInt8.ofNat (i.word / 0x100)))
    (hlow : data[n + 1]? = some (UInt8.ofNat i.word)) :
    m.Holds address i := by
  have hword := i.word_lt
  have hfirst : m.ram.bytes ⟨address.toNat, by omega⟩ = UInt8.ofNat (i.word / 0x100) :=
    Ram.bytes_of_write hw (by simp only; omega) (by simpa [haddress] using hhigh)
  have hsecond : m.ram.bytes ⟨address.toNat + 1, hin⟩ = UInt8.ofNat i.word :=
    Ram.bytes_of_write hw (by simp only; omega) (by simpa [haddress, Nat.add_assoc] using hlow)
  rw [Holds, fetch_eq, word?, dif_pos hin]
  simp only [hfirst, hsecond, Option.elim_some, UInt8.toNat_ofNat']
  congr 2
  omega

theorem step_of_holds [Screen σ] {t : Machine σ} {events : List Event} (h : m.Holds m.pc i) (hi : i.Known)
    (hs : { m with pc := m.pc + 2 }.execute m.pc (UInt16.ofNat i.word) i = ⟨.ok (), events, t⟩) :
    m.step = ⟨.ok (), .fetched m.pc (UInt16.ofNat i.word) :: events, t⟩ := by
  have hstep := step_of_ok (m := m) h
  simp only [Instr.decode_word hi, hs] at hstep
  exact hstep

end

/-! ## One lap -/

/-- A machine about to draw a sprite over and over. -/
structure Loops (m : Machine Headless) (target : Address) (x y : Register) (rows : Fin 16) : Prop where
  edge : m.rules.edge = .wrap
  pc : m.pc = 0x200
  seek : m.Holds 0x200 (.ldI target)
  draw : m.Holds 0x202 (.drw x y rows)
  back : m.Holds 0x204 (.jp 0x200)

/-- What so many laps do to a machine that draws this sprite in each of them. -/
structure Laps (k : Nat) (t : Stamp) (x y : Register) (m m' : Machine Headless) : Prop where
  ram : m'.ram = m.ram
  rules : m'.rules = m.rules
  pc : m'.pc = m.pc
  left : m'.v.get x = m.v.get x
  top : m'.v.get y = m.v.get y
  renders : m'.screen.renders = m.screen.renders + k
  frame : ∀ i j, Frame.OnGrid i j →
    m'.screen.frame.lit i j = (m.screen.frame.lit i j ^^ (decide (k % 2 = 1) && decide ((i, j) ∈ m.pixels t)))

section

variable {m m' m'' : Machine Headless} {target : Address} {x y : Register} {rows : Fin 16} {t : Stamp} {k n : Nat}

theorem Laps.zero (m : Machine Headless) (t : Stamp) (x y : Register) : Laps 0 t x y m m :=
  ⟨rfl, rfl, rfl, rfl, rfl, rfl, fun i j _ => by simp⟩

theorem Laps.add (h : Laps k t x y m m') (h' : Laps n t x y m' m'') : Laps (k + n) t x y m m'' where
  ram := h'.ram.trans h.ram
  rules := h'.rules.trans h.rules
  pc := h'.pc.trans h.pc
  left := h'.left.trans h.left
  top := h'.top.trans h.top
  renders := by rw [h'.renders, h.renders, Nat.add_assoc]
  frame i j hij := by
    rw [h'.frame i j hij, h.frame i j hij, pixels_congr h.ram h.rules, decide_odd_add, Bool.and_xor_distrib_right,
      Bool.xor_assoc]

theorem Loops.after_laps (h : m.Loops target x y rows) (hp : Laps k t x y m m') : m'.Loops target x y rows where
  edge := by rw [hp.rules, h.edge]
  pc := by rw [hp.pc, h.pc]
  seek := h.seek.congr hp.ram
  draw := h.draw.congr hp.ram
  back := h.back.congr hp.ram

end

end Machine

namespace Session

open Machine

variable {s : Session Headless} {target : Address} {x y : Register} {rows : Fin 16}

theorem steps_of_step {σ : Type} [Screen σ] {s : Session σ} {events : List Event} {m : Machine σ}
    (h : s.machine.step = ⟨.ok (), events, m⟩) (n : Nat) :
    s.steps (n + 1) = (⟨m, s.log ++ events⟩ : Session σ).steps n := by
  refine steps_of_ok ?_ n
  rw [step, h]

theorem lap (h : s.machine.Loops target x y rows) (hx : x ≠ Register.flag) (hy : y ≠ Register.flag)
    (hfits : Ram.Fits (UInt16.ofNat target) rows) :
    ∃ s', s.steps 3 = (.ok (), s') ∧
      Laps 1 ⟨UInt16.ofNat target, s.machine.v.get x, s.machine.v.get y, rows⟩ x y s.machine s'.machine := by
  obtain ⟨m, log⟩ := s
  obtain ⟨hedge, hpc, hseek, hdraw, hback⟩ := h
  simp only at hedge hpc hseek hdraw hback
  let sought : Machine Headless := { m with pc := 0x202, index := UInt16.ofNat target }
  have hfirst := step_of_holds (t := sought) (i := .ldI target) (hpc.symm ▸ hseek) nofun (by rw [hpc]; rfl)
  let ready : Machine Headless := { sought with pc := 0x204 }
  obtain ⟨frame, hflipped, hdrawn⟩ := draw_of_wrap (m := ready) hedge hfits 0x202
    (UInt16.ofNat (Instr.drw x y rows).word)
  let drawn : Machine Headless := { ready with
    screen := ⟨frame, m.screen.renders + 1⟩
    v := m.rules.flag.update ((ready.spots x y rows).map fun p => m.screen.frame.lit p.1 p.2) m.v }
  have hsecond := step_of_holds (m := sought) (t := drawn) (i := .drw x y rows) (hdraw.congr rfl) nofun hdrawn
  have hthird := step_of_holds (m := drawn) (i := .jp 0x200) (hback.congr rfl) nofun rfl
  refine ⟨_, ((steps_of_step hfirst 2).trans (steps_of_step hsecond 1)).trans (steps_of_step hthird 0), ?_⟩
  refine ⟨rfl, rfl, hpc.symm, FlagRule.get_update _ _ _ hx, FlagRule.get_update _ _ _ hy, rfl, fun i j hij => ?_⟩
  rw [decide_eq_true (show 1 % 2 = 1 from rfl), Bool.true_and]
  exact hflipped i j hij

theorem laps (h : s.machine.Loops target x y rows) (hx : x ≠ Register.flag) (hy : y ≠ Register.flag)
    (hfits : Ram.Fits (UInt16.ofNat target) rows) (k : Nat) : ∃ s', s.steps (3 * k) = (.ok (), s') ∧
      Laps k ⟨UInt16.ofNat target, s.machine.v.get x, s.machine.v.get y, rows⟩ x y s.machine s'.machine := by
  induction k with
  | zero => exact ⟨s, rfl, .zero _ _ _ _⟩
  | succ k ih =>
      obtain ⟨s', hsteps, hk⟩ := ih
      obtain ⟨s'', hstep, h1⟩ := lap (h.after_laps hk) hx hy hfits
      rw [hk.left, hk.top] at h1
      refine ⟨s'', ?_, hk.add h1⟩
      rw [Nat.mul_succ, steps_add, hsteps]
      exact hstep

/-- A program that draws one sprite and starts over. -/
def drawLoop (target : Address) (x y : Register) (rows : Fin 16) : Array UInt8 :=
  ([.ldI target, .drw x y rows, .jp ⟨0x200, by decide⟩].flatMap Instr.bytes).toArray

theorem loops_of_load (hedge : s.machine.rules.edge = .wrap) (horigin : s.machine.ram.origin = 0x200)
    (hpc : s.machine.pc = 0x200) (target : Address) (x y : Register) (rows : Fin 16) :
    ∃ ram, s.loadProgram (drawLoop target x y rows) = (.ok (), s.withRam ram) ∧
      (s.withRam ram).machine.Loops target x y rows := by
  have hfits : Ram.Fits s.machine.ram.origin (drawLoop target x y rows).size := by
    rw [horigin]
    show Ram.Fits 0x200 6
    decide
  obtain ⟨ram, hw⟩ := Ram.write_of_fits hfits
  refine ⟨ram, loadProgram_of_ok hw, hedge, hpc, ?_, ?_, ?_⟩
  · exact holds_of_write (n := 0) hw (by rw [horigin]; rfl) (by decide) rfl rfl
  · exact holds_of_write (n := 2) hw (by rw [horigin]; rfl) (by decide) rfl rfl
  · exact holds_of_write (n := 4) hw (by rw [horigin]; rfl) (by decide) rfl rfl

/-- So many laps of the program, from where it has been loaded. -/
theorem drawLoop_laps (hedge : s.machine.rules.edge = .wrap) (horigin : s.machine.ram.origin = 0x200)
    (hpc : s.machine.pc = 0x200) (hx : x ≠ Register.flag) (hy : y ≠ Register.flag)
    (hfits : Ram.Fits (UInt16.ofNat target) rows) (k : Nat) :
    ∃ loaded ran, s.loadProgram (drawLoop target x y rows) = (.ok (), loaded) ∧ loaded.steps (3 * k) = (.ok (), ran) ∧
      loaded.machine.screen = s.machine.screen ∧ loaded.machine.pc = 0x200 ∧
      Laps k ⟨UInt16.ofNat target, loaded.machine.v.get x, loaded.machine.v.get y, rows⟩ x y loaded.machine
        ran.machine := by
  obtain ⟨ram, hload, hloops⟩ := loops_of_load hedge horigin hpc target x y rows
  obtain ⟨ran, hsteps, hlaps⟩ := laps hloops hx hy hfits k
  exact ⟨_, ran, hload, hsteps, rfl, hpc, hlaps⟩

/-- With wrapped edges, draws add up modulo two. A draw of a sprite that lies in memory succeeds whatever the registers
are, the picture after any number of draws does not depend on their order, and two of a kind leave nothing. Drawn twice
in a row, with neither side of its corner in VF, a sprite leaves the picture as it was; VF then says the opposite of
what it said before, or that the sprite had come over some pixel that was out. A program that draws one sprite and
starts over shows it after every other lap. -/
theorem draws_cancel (s : Session Headless) (hedge : s.machine.rules.edge = .wrap) :
    let m := s.machine
    (∀ ds : List Drawing, (m.drawAll ds).1 = .ok () ∧
      (∀ ds' : List Drawing, (ds.map Drawing.stamp).Perm (ds'.map Drawing.stamp) →
        (m.drawAll ds').2.screen.frame = (m.drawAll ds).2.screen.frame) ∧
      ∀ (t : Stamp) (rest : List Drawing), (ds.map Drawing.stamp).Perm (t :: t :: rest.map Drawing.stamp) →
        (m.drawAll ds).2.screen.frame = (m.drawAll rest).2.screen.frame) ∧
    (∀ (x y : Register) (rows : Fin 16) (pc word pc' word' : UInt16), x ≠ Register.flag → y ≠ Register.flag →
      Ram.Fits m.index rows →
      let once := m.execute pc word (.drw x y rows)
      let twice := once.machine.execute pc' word' (.drw x y rows)
      once.result = .ok () ∧ twice.result = .ok () ∧ twice.machine.screen.frame = m.screen.frame ∧
        match m.rules.flag with
        | .last => (∃ c r, m.spriteBit rows c r) →
            (twice.machine.v.get Register.flag).toNat + (once.machine.v.get Register.flag).toNat = 1
        | .any => twice.machine.v.get Register.flag =
            if ∃ p ∈ m.spots x y rows, m.screen.frame.lit p.1 p.2 = false then 1 else 0) ∧
    (m.ram.origin = 0x200 → m.pc = 0x200 → ∀ (target : Address) (x y : Register) (rows : Fin 16),
      x ≠ Register.flag → y ≠ Register.flag → Ram.Fits (UInt16.ofNat target) rows → ∀ k,
        let loaded := s.loadProgram (drawLoop target x y rows)
        let ran := loaded.2.steps (3 * k)
        let before := loaded.2.machine
        let after := ran.2.machine
        loaded.1 = .ok () ∧ ran.1 = .ok () ∧ after.pc = 0x200 ∧ after.ram = before.ram ∧
          after.screen.renders = m.screen.renders + k ∧
          (k % 2 = 0 → after.screen.frame = m.screen.frame) ∧
          (k % 2 = 1 → m.screen.frame.Flipped after.screen.frame
            ({ before with index := UInt16.ofNat target }.spots x y rows))) := by
  intro m
  refine ⟨?_, ?_, ?_⟩
  · intro ds
    obtain ⟨m', hds, -⟩ := drawAll_eq hedge ds
    exact ⟨congrArg Prod.fst hds, fun ds' => frame_drawAll_perm hedge, fun t rest => frame_drawAll_cancel hedge⟩
  · intro x y rows pc word pc' word' hx hy hfits once twice
    obtain ⟨honce, htwice, hframe, -, -⟩ := draw_twice hedge hx hy hfits pc word pc' word'
    exact ⟨honce, htwice, hframe, flag_of_draw_twice hedge hx hy hfits pc word pc' word'⟩
  · intro horigin hpc target x y rows hx hy hfits k
    obtain ⟨loaded, ran, hload, hran, hscreen, hstart, hlaps⟩ := drawLoop_laps hedge horigin hpc hx hy hfits k
    have hbefore : m.screen = loaded.machine.screen := hscreen.symm
    rw [hload, hbefore]
    dsimp only
    rw [hran]
    refine ⟨rfl, rfl, hlaps.pc.trans hstart, hlaps.ram, hlaps.renders, ?_, ?_⟩
    · intro hk
      refine Frame.ext_lit fun i j hij => ?_
      rw [hlaps.frame i j hij, decide_eq_false (by omega), Bool.false_and, Bool.xor_false]
    · intro hk i j hij
      rw [hlaps.frame i j hij, decide_eq_true hk, Bool.true_and]
      rfl

/-- Two zeros that overlap, one of them across the corner of the grid, and a zero drawn by a program in three laps. -/
theorem draws_cancel_zeros :
    let s := start ({} : Headless) { edge := .wrap }
    let zero (x y : UInt8) : Drawing := ⟨(Vector.replicate 16 0).set 0 x |>.set 1 y, 0, 0, 1, 5, by decide⟩
    s.machine.rules.edge = .wrap ∧
    (s.machine.drawAll [zero 62 30, zero 61 29]).2.screen.frame =
      (s.machine.drawAll [zero 61 29, zero 62 30]).2.screen.frame ∧
    (s.machine.drawAll [zero 62 30, zero 61 29, zero 62 30]).2.screen.frame =
      (s.machine.drawAll [zero 61 29]).2.screen.frame ∧
    (let once := s.machine.execute 0x200 0xD015 (.drw 0 1 5)
     let twice := once.machine.execute 0x202 0xD015 (.drw 0 1 5)
     (twice.machine.v.get Register.flag).toNat + (once.machine.v.get Register.flag).toNat = 1) ∧
    (let ran := (s.loadProgram (drawLoop 0 0 1 5)).2.steps 9
     ran.1 = .ok () ∧ ran.2.machine.pc = 0x200 ∧ ran.2.machine.screen.renders = 3 ∧
       ran.2.machine.screen.frame.lit 0 0 = true ∧ ran.2.machine.screen.frame.lit 1 1 = false) := by
  intro s zero
  obtain ⟨hdraws, htwice, hloop⟩ := draws_cancel s rfl
  have hx : (0 : Register) ≠ Register.flag := by decide
  have hy : (1 : Register) ≠ Register.flag := by decide
  have hfits : Ram.Fits 0 (5 : Fin 16) := by decide
  refine ⟨rfl, ?_, ?_, ?_, ?_⟩
  · exact (hdraws [zero 61 29, zero 62 30]).2.1 [zero 62 30, zero 61 29] (.swap _ _ _)
  · exact (hdraws [zero 62 30, zero 61 29, zero 62 30]).2.2 (zero 62 30).stamp [zero 61 29] (.cons _ (.swap _ _ _))
  · obtain ⟨-, -, -, hflag⟩ := htwice 0 1 5 0x200 0xD015 0x202 0xD015 hx hy hfits
    exact hflag ⟨0, 0, by decide⟩
  · obtain ⟨-, hok, hpc, -, hrenders, -, hodd⟩ := hloop rfl rfl 0 0 1 5 hx hy hfits 3
    refine ⟨hok, hpc, hrenders, ?_, ?_⟩
    · exact (hodd rfl 0 0 (by decide)).trans (by decide)
    · exact (hodd rfl 1 1 (by decide)).trans (by decide)

end Session

end ChipEight
