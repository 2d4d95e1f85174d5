import ChipEight.Proofs.Frame.Views
import ChipEight.Proofs.Guarded
import ChipEight.Proofs.Machine.Sprite
import ChipEight.Proofs.Ram.History
import ChipEight.Proofs.Screen.Attended
import ChipEight.Proofs.Screen.Console
import Mathlib.Tactic.IntervalCases

/-!
A step asks nothing of an operation that it cannot give. Memory, the picture and the step are written down again in the
terms of the words that they work on, with every operation guarded that is not defined everywhere; and whatever state a
machine is in, the guards let all of it pass.
-/

namespace ChipEight

/-- A screen that keeps a picture, and leaves it to the picture to answer when a pixel is to be flipped. -/
class Pictured (σ : Type) [Screen σ] where
  frame : σ → Frame
  /-- The screen once a flip has left it with this picture. -/
  repaint : σ → Frame → σ
  toggle_eq : ∀ (s : σ) x y, Screen.toggle s x y = (((frame s).toggle x y).1, repaint s ((frame s).toggle x y).2)

instance : Pictured Headless := ⟨Headless.frame, fun s frame => { s with frame }, fun _ _ _ => rfl⟩

instance : Pictured Printed := ⟨Printed.frame, fun s frame => { s with frame }, fun _ _ _ => rfl⟩

instance {ω : Type} [Writer ω] : Pictured (Console ω) :=
  ⟨Console.frame, fun s frame => { s with frame }, fun _ _ _ => rfl⟩

instance : Pictured Window := ⟨Window.frame, fun w frame => { w with frame }, fun _ _ _ => rfl⟩

instance : Pictured Attended where
  frame a := a.window.frame
  repaint a frame := { a.attend with window := { a.attend.window with frame } }
  toggle_eq _ _ _ := rfl

theorem Ram.length_of_slice? {m : Ram} {address : UInt16} {length : Nat} {bytes : List UInt8}
    (h : m.slice? address length = some bytes) : bytes.length = length := by
  unfold Ram.slice? at h
  split at h
  · cases h
    exact List.length_ofFn
  · cases h

namespace Guarded

/-! ## Memory -/

/-- The end of a range has to fit in 64 bits. -/
def slice? (m : Ram) (address : UInt16) (length : Nat) : Guarded (Option (List UInt8)) := do
  let stop ← plus (2 ^ 64 - 1) address.toNat length
  return if stop ≤ m.toList.length then some (m.toList.extract address.toNat stop) else none

def read (m : Ram) (address : UInt16) : Guarded (Except Fault UInt8) := do
  match ← slice? m address 1 with
  | none => return .error (.unreadable address 1)
  | some bytes => return .ok (← only bytes)

theorem slice?_eq (m : Ram) (address : UInt16) {length : Nat} (h : length ≤ 0xF) :
    slice? m address length = .ok (m.slice? address length) := by
  have haddress := address.toNat_lt
  have hlength : m.toList.length = 4096 := List.length_ofFn
  rw [slice?, plus_of_le (by omega), ok_bind, pure_eq_ok, hlength, Ram.slice?_eq, List.extract, Nat.add_sub_cancel_left]

theorem read_eq (m : Ram) (address : UInt16) : read m address = .ok (m.read address) := by
  rw [read, slice?_eq m address (by decide), ok_bind, Ram.slice?, Ram.read]
  by_cases h : address.toNat < 4096
  · rw [dif_pos h, dif_pos (Nat.succ_le_of_lt h)]
    rfl
  · rw [dif_neg h, dif_neg fun hfits => h (Nat.lt_of_succ_le hfits)]
    rfl

/-! ## The picture -/

/-- The row in which only column `x` is lit. -/
def column (x : Nat) : Guarded (BitVec 64) := do return 1#64 <<< (← places 64 (← minus 63 x))

def toggle (f : Frame) (x y : UInt16) : Guarded (Except ScreenFault Bool × Frame) :=
  if 64 ≤ x.toNat ∨ 32 ≤ y.toNat then return (.error (.offGrid x y), f)
  else do
    let row := (← get f.rows y.toNat) ^^^ (← column x.toNat)
    let rows ← set f.rows y.toNat row
    return (.ok (row &&& (← column x.toNat) == 0), ⟨rows⟩)

def lit (f : Frame) (x y : Nat) : Guarded Nat :=
  if 64 ≤ x ∨ 32 ≤ y then return 0
  else do return (((← get f.rows y) >>> (← places 64 (← minus 63 x))).setWidth 8 &&& 1).toNat

theorem column_eq {x : Nat} (h : x < 64) : column x = .ok (Frame.column x) := by
  rw [column, minus_of_le (by omega), ok_bind, places_of_lt (by omega), ok_bind, pure_eq_ok, Frame.column,
    BitVec.twoPow_eq]

example : column 64 = .error (.difference 63 64) := rfl

/-- A word masked down to its bit `k` from the left is zero if that bit is clear, and only then. -/
theorem and_twoPow_eq_zero {w k : Nat} (row : BitVec w) (h : k < w) :
    row &&& BitVec.twoPow w (w - 1 - k) = 0 ↔ row.getMsbD k = false := by
  have hne : BitVec.twoPow w (w - 1 - k) ≠ 0 := by
    intro hzero
    have hbit := congrArg (BitVec.getLsbD · (w - 1 - k)) hzero
    simp only [BitVec.getLsbD_twoPow, BitVec.ofNat_eq_ofNat, BitVec.getLsbD_zero, decide_true, Bool.and_true,
      decide_eq_false_iff_not] at hbit
    omega
  rw [BitVec.and_twoPow, BitVec.getMsbD_eq_getLsbD, decide_eq_true h, Bool.true_and]
  cases row.getLsbD (w - 1 - k) with
  | false => exact iff_of_true rfl rfl
  | true => exact iff_of_false hne Bool.true_eq_false.mp

theorem and_column_eq_zero (row : BitVec 64) {x : Nat} (h : x < 64) :
    (row &&& Frame.column x == 0) = !row.getMsbD x := by
  rw [Bool.eq_iff_iff, beq_iff_eq, Bool.not_eq_true']
  exact and_twoPow_eq_zero row h

theorem toggle_eq (f : Frame) (x y : UInt16) : toggle f x y = .ok (f.toggle x y) := by
  unfold toggle Frame.toggle
  by_cases h : Frame.OnGrid x.toNat y.toNat
  · have hin : x.toNat < 64 ∧ y.toNat < 32 := h
    rw [if_neg (by omega), dif_pos h]
    simp only [get_of_lt h.2, column_eq h.1, set_of_lt h.2, ok_bind, pure_eq_ok, and_column_eq_zero _ h.1]
  · have hout : ¬ (x.toNat < 64 ∧ y.toNat < 32) := h
    rw [if_pos (by omega), dif_neg h, pure_eq_ok]

theorem lit_eq (f : Frame) (x y : Nat) : lit f x y = .ok (f.lit x y).toNat := by
  unfold lit
  by_cases h : Frame.OnGrid x y
  · have hin : x < 64 ∧ y < 32 := h
    rw [if_neg (by omega), Frame.toNat_lit f h.1 h.2]
    simp only [get_of_lt h.2, minus_of_le (show x ≤ 63 by omega), places_of_lt (show 63 - x < 64 by omega), ok_bind,
      pure_eq_ok]
  · have hout : ¬ (x < 64 ∧ y < 32) := h
    rw [if_pos (by omega), Frame.lit_of_not_onGrid h]
    rfl

/-! ## The word at PC -/

def fetch {σ : Type} (m : Machine σ) : Guarded (Except Fault UInt16) := do
  match ← read m.ram m.pc with
  | .error _ => return .error (.ranOff m.pc)
  | .ok high =>
      match ← read m.ram (m.pc + 1) with
      | .error _ => return .error (.ranOff m.pc)
      | .ok low => return .ok (high.toUInt16 <<< 8 ||| low.toUInt16)

theorem toUInt16_join (high low : UInt8) :
    high.toUInt16 <<< 8 ||| low.toUInt16 = high.toUInt16 * 256 + low.toUInt16 := by
  have hhigh := high.toNat_lt
  have hlow := low.toNat_lt
  have hshift : high.toNat <<< 8 = high.toNat * 2 ^ 8 := Nat.shiftLeft_eq _ _
  have hfits : high.toNat <<< 8 % 2 ^ 16 = high.toNat <<< 8 := Nat.mod_eq_of_lt (by omega)
  refine UInt16.toNat_inj.mp ?_
  rw [UInt16.toNat_add, UInt16.toNat_mul, UInt16.toNat_or, UInt16.toNat_shiftLeft, UInt8.toNat_toUInt16,
    UInt8.toNat_toUInt16]
  change high.toNat <<< 8 % 2 ^ 16 ||| low.toNat = (high.toNat * 2 ^ 8 % 2 ^ 16 + low.toNat) % 2 ^ 16
  rw [hfits, ← Nat.shiftLeft_add_eq_or_of_lt hlow, hshift]
  omega

theorem fetch_eq {σ : Type} (m : Machine σ) : fetch m = .ok m.fetch := by
  rw [fetch, Machine.fetch, read_eq, ok_bind]
  cases m.ram.read m.pc with
  | error e => rfl
  | ok high =>
      simp only [read_eq, ok_bind]
      cases m.ram.read (m.pc + 1) with
      | error e => rfl
      | ok low => simp only [toUInt16_join, pure_eq_ok]

/-! ## Operands as numbers -/

def addressOf (w : UInt16) : UInt16 := w &&& 0x0FFF

def xOf (w : UInt16) : Nat := ((w &&& 0x0F00) >>> 8).toNat

def yOf (w : UInt16) : Nat := ((w &&& 0x00F0) >>> 4).toNat

def rowsOf (w : UInt16) : UInt8 := (w &&& 0x000F).toUInt8

def byteOf (w : UInt16) : UInt8 := (w &&& 0x00FF).toUInt8

/-- The `w` bits of a number from bit `k` on. -/
theorem and_mask_shiftRight (n k w : Nat) : (n &&& (2 ^ w - 1) <<< k) >>> k = n / 2 ^ k % 2 ^ w := by
  rw [Nat.shiftRight_and_distrib, Nat.shiftLeft_shiftRight, Nat.and_two_pow_sub_one_eq_mod, Nat.shiftRight_eq_div_pow]

theorem xOf_eq (w : UInt16) : xOf w = Instr.xOf w := by
  rw [xOf, UInt16.toNat_shiftRight, UInt16.toNat_and]
  exact and_mask_shiftRight w.toNat 8 4

theorem yOf_eq (w : UInt16) : yOf w = Instr.yOf w := by
  rw [yOf, UInt16.toNat_shiftRight, UInt16.toNat_and]
  exact and_mask_shiftRight w.toNat 4 4

theorem rowsOf_eq (w : UInt16) : rowsOf w = UInt8.ofNat (Instr.rowsOf w) := by
  refine UInt8.toNat_inj.mp ?_
  rw [rowsOf, UInt16.toNat_toUInt8, UInt16.toNat_and]
  exact congrArg (· % 2 ^ 8) (Nat.and_two_pow_sub_one_eq_mod w.toNat 4)

theorem byteOf_eq (w : UInt16) : byteOf w = Instr.byteOf w := by
  refine UInt8.toNat_inj.mp ?_
  have hbyte : w.toNat &&& 0x00FF = w.toNat % 2 ^ 8 := Nat.and_two_pow_sub_one_eq_mod w.toNat 8
  rw [byteOf, UInt16.toNat_toUInt8, UInt16.toNat_and]
  exact (congrArg (· % 2 ^ 8) hbyte).trans (Nat.mod_mod _ _)

theorem addressOf_eq (w : UInt16) : addressOf w = UInt16.ofNat (Instr.addressOf w) := by
  refine UInt16.toNat_inj.mp ?_
  have hlt : w.toNat % 4096 < 2 ^ 16 := Nat.lt_trans (Nat.mod_lt _ (by decide)) (by decide)
  rw [addressOf, UInt16.toNat_and]
  exact (Nat.and_two_pow_sub_one_eq_mod w.toNat 12).trans (Nat.mod_eq_of_lt hlt).symm

/-! ## Sprites -/

/-- Every bit of a sprite, set or not, with the row that it is in, its column and the number of its row. -/
def bitsOf (sprite : List UInt8) : List (UInt8 × Nat × Nat) :=
  sprite.zipIdx.flatMap fun (row, r) => (List.range 8).map fun c => (row, c, r)

section

variable {σ : Type} [Screen σ] [Pictured σ]

/-- Flips the pixels of the set bits in turn up to the first refusal, the corner of the sprite at `x`, `y`. -/
def flips (edge : EdgeRule) (x y : UInt8) :
    σ → List (UInt8 × Nat × Nat) → Guarded (Except ScreenFault (List Bool) × σ)
  | s, [] => return (.ok [], s)
  | s, (row, c, r) :: bits => do
      if row &&& 0x80 >>> (← places 8 c).toUInt8 = 0 then flips edge x y s bits
      else
        let target := edge.place ((← plus 262 x.toNat c).toUInt16, (← plus 269 y.toNat r).toUInt16)
        match ← toggle (Pictured.frame s) target.1 target.2 with
        | (.error e, frame) => return (.error e, Pictured.repaint s frame)
        | (.ok erased, frame) =>
            match ← flips edge x y (Pictured.repaint s frame) bits with
            | (.error e, s) => return (.error e, s)
            | (.ok more, s) => return (.ok (erased :: more), s)

theorem toBitVec_shiftRight : ∀ c < 8, ((0x80 : UInt8) >>> c.toUInt8).toBitVec = BitVec.twoPow 8 (7 - c) := by
  decide

theorem and_shiftRight_eq_zero (row : UInt8) {c : Nat} (h : c < 8) :
    row &&& 0x80 >>> c.toUInt8 = 0 ↔ row.toBitVec.getMsbD c = false := by
  rw [← UInt8.toBitVec_inj, UInt8.toBitVec_and, toBitVec_shiftRight c h]
  exact and_twoPow_eq_zero row.toBitVec h

theorem lt_of_mem_bitsOf {sprite : List UInt8} {bit : UInt8 × Nat × Nat} (h : bit ∈ bitsOf sprite) :
    bit.2.1 < 8 ∧ bit.2.2 < sprite.length := by
  obtain ⟨⟨row, r⟩, hrow, hbit⟩ := List.mem_flatMap.mp h
  obtain ⟨c, hc, rfl⟩ := List.mem_map.mp hbit
  exact ⟨List.mem_range.mp hc, (List.mem_zipIdx' hrow).1⟩

/-- Where those of the bits that are set fall. -/
def targetsOf (edge : EdgeRule) (x y : UInt8) (bits : List (UInt8 × Nat × Nat)) : List (UInt16 × UInt16) :=
  (bits.filter fun (row, c, _) => row.toBitVec.getMsbD c).map fun (_, c, r) =>
    edge.place (x.toUInt16 + c.toUInt16, y.toUInt16 + r.toUInt16)

theorem targetsOf_cons (edge : EdgeRule) (x y row : UInt8) (c r : Nat) (bits : List (UInt8 × Nat × Nat)) :
    targetsOf edge x y ((row, c, r) :: bits) =
      if row.toBitVec.getMsbD c then
        edge.place (x.toUInt16 + c.toUInt16, y.toUInt16 + r.toUInt16) :: targetsOf edge x y bits
      else targetsOf edge x y bits := by
  simp only [targetsOf, List.filter_cons]
  cases row.toBitVec.getMsbD c <;> rfl

theorem targetsOf_bitsOf (edge : EdgeRule) (x y : UInt8) (sprite : List UInt8) :
    targetsOf edge x y (bitsOf sprite) = (spriteTargets x y sprite).map edge.place := by
  rw [targetsOf, bitsOf, spriteTargets, spriteCells, List.filter_flatMap, List.map_flatMap, List.map_flatMap,
    List.map_flatMap]
  refine List.flatMap_congr fun numbered _ => ?_
  obtain ⟨row, r⟩ := numbered
  rw [List.filter_map, List.map_map, List.map_map, List.map_map]
  rfl

theorem toUInt16_add (b : UInt8) {n : Nat} (h : n < 16) : (b.toNat + n).toUInt16 = b.toUInt16 + n.toUInt16 := by
  have hb := b.toNat_lt
  refine UInt16.toNat_inj.mp ?_
  rw [toNat_add_toUInt16 b h]
  exact Nat.mod_eq_of_lt (by omega)

theorem flips_eq (edge : EdgeRule) (x y : UInt8) (s : σ) {bits : List (UInt8 × Nat × Nat)}
    (h : ∀ bit ∈ bits, bit.2.1 < 8 ∧ bit.2.2 < 15) :
    flips edge x y s bits = .ok (Machine.flipAll s (targetsOf edge x y bits)) := by
  induction bits generalizing s with
  | nil => rfl
  | cons bit bits ih =>
      obtain ⟨row, c, r⟩ := bit
      obtain ⟨hbit, hbits⟩ := List.forall_mem_cons.mp h
      obtain ⟨hc, hr⟩ : c < 8 ∧ r < 15 := hbit
      rw [flips, places_of_lt hc, ok_bind, targetsOf_cons]
      simp only [and_shiftRight_eq_zero row hc]
      cases row.toBitVec.getMsbD c with
      | false => exact ih s hbits
      | true =>
          have hx := x.toNat_lt
          have hy := y.toNat_lt
          rw [if_neg Bool.true_eq_false.mp, if_pos rfl, plus_of_le (by omega), plus_of_le (by omega)]
          simp only [ok_bind, toggle_eq, toUInt16_add x (show c < 16 by omega), toUInt16_add y (show r < 16 by omega)]
          obtain ⟨px, py⟩ := edge.place (x.toUInt16 + c.toUInt16, y.toUInt16 + r.toUInt16)
          -- The picture answers for the screen, so what it says decides how the flips go on.
          have htoggle := Pictured.toggle_eq s px py
          rcases hframe : (Pictured.frame s).toggle px py with ⟨e | erased, frame⟩
          · rw [hframe] at htoggle
            rw [Machine.flipAll_of_refused htoggle]
            rfl
          · rw [hframe] at htoggle
            rw [Machine.flipAll_of_toggled htoggle]
            simp only [ih _ hbits, ok_bind]
            rcases Machine.flipAll _ (targetsOf edge x y bits) with ⟨e | more, s'⟩
            · rfl
            · rfl

/-- The registers after flips with these answers. -/
def setFlag (rule : FlagRule) (erased : List Bool) (v : Vector UInt8 16) : Guarded (Vector UInt8 16) :=
  match rule.value? erased with
  | some flag => set v 0xF flag.toUInt8
  | none => return v

/-- Draws the sprite at I with its corner at V`x`, V`y`. -/
def draw (m : Machine σ) (x y : Nat) (rows : UInt8) (pc word : UInt16) : Guarded (Step σ) := do
  match ← slice? m.ram m.index rows.toNat with
  | none => return ⟨.error (.spriteOutside pc word m.index rows), [], m⟩
  | some sprite =>
      match ← flips m.rules.edge (← get m.v x) (← get m.v y) m.screen (bitsOf sprite) with
      | (.error e, screen) => return ⟨.error (.screen pc word e), [], { m with screen }⟩
      | (.ok erased, screen) =>
          let v ← setFlag m.rules.flag erased m.v
          let shown := Screen.render screen
          return ⟨shown.result.mapError (.screen pc word), shown.events, { m with v, screen := shown.screen }⟩

theorem setFlag_eq (rule : FlagRule) (erased : List Bool) (v : Vector UInt8 16) :
    setFlag rule erased v = .ok (rule.update erased v) := by
  unfold setFlag FlagRule.update
  cases rule.value? erased with
  | none => rfl
  | some flag => exact set_of_lt Register.flag.isLt _

theorem draw_eq (m : Machine σ) (x y : Register) (rows : Fin 16) (pc word : UInt16) :
    draw m x y (UInt8.ofNat rows) pc word = .ok (m.draw x y rows pc word) := by
  have hrows : (UInt8.ofNat rows).toNat = rows := Nat.mod_eq_of_lt (by omega)
  rw [draw, hrows, slice?_eq m.ram m.index (by omega), ok_bind]
  cases hs : m.ram.slice? m.index rows with
  | none => rw [Machine.draw_of_outside hs, pure_eq_ok]
  | some sprite =>
      have hflips : flips m.rules.edge m.v[x.val] m.v[y.val] m.screen (bitsOf sprite) =
          .ok (Machine.flipAll m.screen (m.targets x y sprite)) := by
        rw [flips_eq, targetsOf_bitsOf]
        · rfl
        · intro bit hbit
          have hlength := Ram.length_of_slice? hs
          have hlt := lt_of_mem_bitsOf hbit
          omega
      simp only [get_of_lt x.isLt, get_of_lt y.isLt, ok_bind, hflips]
      rcases hf : Machine.flipAll m.screen (m.targets x y sprite) with ⟨e | erased, screen⟩
      · simp only [Machine.draw_of_refused hs hf, pure_eq_ok]
      · simp only [Machine.draw_of_flipped hs hf, setFlag_eq, ok_bind, pure_eq_ok]

/-! ## Steps -/

/-- Does what `word` says, its family in its high nibble. -/
def execute (m : Machine σ) (pc word : UInt16) : Guarded (Step σ) :=
  match (word >>> 12).toNat with
  | 0x0 =>
      if word = 0x00E0 then return ⟨.ok (), [], { m with screen := Screen.clear m.screen }⟩
      else return ⟨.error (.unknownWord pc word), [], m⟩
  | 0x1 => return ⟨.ok (), [], { m with pc := addressOf word }⟩
  | 0x6 => do return ⟨.ok (), [], { m with v := ← set m.v (xOf word) (byteOf word) }⟩
  | 0x7 => do
      let sum := (← get m.v (xOf word)) + byteOf word
      return ⟨.ok (), [], { m with v := ← set m.v (xOf word) sum }⟩
  | 0xA => return ⟨.ok (), [], { m with index := addressOf word }⟩
  | 0xD => draw m (xOf word) (yOf word) (rowsOf word) pc word
  | _ => return ⟨.error (.unknownWord pc word), [], m⟩

theorem execute_eq (m : Machine σ) (pc word : UInt16) :
    execute m pc word = .ok (m.execute pc word (Instr.decode word)) := by
  have hfamily : (word >>> 12).toNat = word.toNat / 0x1000 := by
    rw [UInt16.toNat_shiftRight]
    exact Nat.shiftRight_eq_div_pow _ _
  unfold execute Instr.decode
  rw [hfamily, addressOf_eq, xOf_eq, yOf_eq, rowsOf_eq, byteOf_eq]
  simp only [get_of_lt (Fin.isLt _), set_of_lt (Fin.isLt _), ok_bind, pure_eq_ok, draw_eq]
  -- The two matches are on one number, and taking that value by value settles both.
  have hnibble : word.toNat / 0x1000 < 16 := Nat.div_lt_of_lt_mul word.toNat_lt
  generalize word.toNat / 0x1000 = family at hnibble
  interval_cases family
  case «0» =>
    by_cases hcls : word = 0x00E0
    · simp only [if_pos hcls]
      rfl
    · simp only [if_neg hcls]
      rfl
  all_goals rfl

def step (m : Machine σ) : Guarded (Step σ) := do
  match ← fetch m with
  | .error e => return ⟨.error e, [], m⟩
  | .ok word =>
      let s ← execute { m with pc := m.pc + 2 } m.pc word
      return { s with events := .fetched m.pc word :: s.events }

/-- The machine after `n` steps, whatever came of them. -/
def after (m : Machine σ) : Nat → Guarded (Machine σ)
  | 0 => return m
  | n + 1 => do return (← step (← after m n)).machine

theorem step_eq (m : Machine σ) : step m = .ok m.step := by
  rw [step, Machine.step, fetch_eq, ok_bind]
  cases m.fetch with
  | error e => rfl
  | ok word => simp only [execute_eq, ok_bind, pure_eq_ok]

theorem after_eq (m : Machine σ) (n : Nat) : after m n = .ok (m.after n) := by
  induction n with
  | zero => rfl
  | succ n ih => rw [after, ih, ok_bind, step_eq, ok_bind, pure_eq_ok, Machine.after]

end

/-! ## Loading -/

/-- The end of the range to fill has to fit in 64 bits too. -/
def load {σ : Type} (m : Machine σ) (data : Array UInt8) (address : UInt16) :
    Guarded (Except Fault Unit × Machine σ) := do
  let stop ← plus (2 ^ 64 - 1) address.toNat data.size
  return if stop ≤ m.ram.toList.length then m.load data address else (.error (.doesNotFit address data.size), m)

theorem load_eq {σ : Type} (m : Machine σ) {data : Array UInt8} (address : UInt16) (h : data.size < 2 ^ 63) :
    load m data address = .ok (m.load data address) := by
  have haddress := address.toNat_lt
  have hlength : m.ram.toList.length = 4096 := List.length_ofFn
  rw [load, plus_of_le (by omega), ok_bind, pure_eq_ok, hlength]
  split
  · rfl
  · rename_i hstop
    rw [Machine.load, Ram.write_eq_error_iff.mpr ⟨hstop, rfl⟩]

end Guarded

/-- Whatever a machine holds, and whichever of its steps have failed, its steps go the same way with every operation
guarded: the guards let all that they ask for pass. So they do when less than 2^63 bytes are loaded, and when a pixel is
looked at. In particular, an operand that names a register is less than 16 in every word, and where a set bit of a sprite
falls is never more than 262 across or 269 down, so that no sum of words wraps round. -/
theorem steps_keep_to_domains {σ : Type} [Screen σ] [Pictured σ] (m : Machine σ) :
    (Guarded.step m = .ok m.step ∧ ∀ n, Guarded.after m n = .ok (m.after n)) ∧
    (∀ data address, data.size < 2 ^ 63 → Guarded.load m data address = .ok (m.load data address)) ∧
    (∀ x y, Guarded.lit (Pictured.frame m.screen) x y = .ok ((Pictured.frame m.screen).lit x y).toNat) ∧
    (∀ word, Guarded.xOf word < 16 ∧ Guarded.yOf word < 16) ∧
    ∀ x y rows, ∀ bit ∈ m.setBits rows,
      (((m.v.get x).toUInt16 + bit.1.toUInt16).toNat = (m.v.get x).toNat + bit.1 ∧ (m.v.get x).toNat + bit.1 ≤ 262) ∧
      ((m.v.get y).toUInt16 + bit.2.toUInt16).toNat = (m.v.get y).toNat + bit.2 ∧ (m.v.get y).toNat + bit.2 ≤ 269 := by
  refine ⟨⟨Guarded.step_eq m, Guarded.after_eq m⟩, fun data address h => Guarded.load_eq m address h,
    Guarded.lit_eq _, fun word => ?_, fun x y rows bit hbit => ?_⟩
  · rw [Guarded.xOf_eq, Guarded.yOf_eq]
    exact ⟨Fin.isLt _, Fin.isLt _⟩
  · obtain ⟨hc, hr⟩ := Machine.lt_of_mem_setBits hbit
    have hx := (m.v.get x).toNat_lt
    have hy := (m.v.get y).toNat_lt
    exact ⟨⟨toNat_add_toUInt16 _ (by omega), by omega⟩, toNat_add_toUInt16 _ (by omega), by omega⟩

/-- A program that draws the top of a digit in the bottom row, loaded into a new machine and run past its end. -/
theorem steps_keep_to_domains_bottom_row :
    let m := Machine.start ({} : Headless) {}
    let program : Array UInt8 := #[0x60, 0x38, 0x61, 0x1F, 0xD0, 0x11]
    let loaded := (m.load program 0x200).2
    Guarded.load m program 0x200 = .ok (.ok (), loaded) ∧ (∀ n, Guarded.after loaded n = .ok (loaded.after n)) ∧
      Guarded.lit (Pictured.frame (loaded.after 3).screen) 59 31 = .ok 1 := by
  intro m program loaded
  obtain ⟨-, hload, -, -, -⟩ := steps_keep_to_domains m
  obtain ⟨⟨-, hafter⟩, -, -, -, -⟩ := steps_keep_to_domains loaded
  obtain ⟨-, -, hlit, -, -⟩ := steps_keep_to_domains (loaded.after 3)
  have hdrawn : (Pictured.frame (loaded.after 3).screen).lit 59 31 = true := by decide +kernel
  refine ⟨(hload program 0x200 (by decide)).trans rfl, hafter, ?_⟩
  rw [hlit, hdrawn]
  rfl

end ChipEight
