import ChipEight.Proofs.Machine.Compositing
import ChipEight.Proofs.Text.Assembly

/-!
Sprites laid over a picture. With wrapped edges a draw adds its sprite to the picture, pixel by pixel and modulo two:
the order of draws does not show, and two of a kind undo each other.
-/

namespace ChipEight

/-- A sprite, by the values that a draw finds in the registers. -/
structure Stamp where
  index : UInt16
  left : UInt8
  top : UInt8
  rows : Fin 16

/-- A draw of a sprite that lies in memory, and the registers as it finds them. -/
structure Drawing where
  v : Vector UInt8 16
  index : UInt16
  x : Register
  y : Register
  rows : Fin 16
  fits : Ram.Fits index rows

def Drawing.stamp (d : Drawing) : Stamp := ⟨d.index, d.v.get d.x, d.v.get d.y, d.rows⟩

namespace Frame

/-- What was flipped and flipped again is as it was. -/
theorem Flipped.undone {f g h : Frame} {pixels : List (Nat × Nat)} (hfg : f.Flipped g pixels)
    (hgh : g.Flipped h pixels) : h = f := by
  refine ext_lit fun i j hij => ?_
  rw [hgh i j hij, hfg i j hij, Bool.xor_assoc, Bool.xor_self, Bool.xor_false]

end Frame

theorem decide_odd_add (a b : Nat) : decide ((a + b) % 2 = 1) = (decide (a % 2 = 1) ^^ decide (b % 2 = 1)) := by
  rw [Bool.eq_iff_iff, bne_iff_ne, decide_eq_true_eq, ne_eq, decide_eq_decide]
  omega

namespace FlagRule

theorem get_update_last {erased : List Bool} (h : erased ≠ []) (v v' : Vector UInt8 16) :
    ((last.update (erased.map not) v').get Register.flag).toNat +
      ((last.update erased v).get Register.flag).toNat = 1 := by
  have hlast := List.getLast?_eq_getLast_of_ne_nil h
  rw [get_update_flag, get_update_flag, value?, value?, List.getLast?_map, hlast]
  cases erased.getLast h <;> rfl

theorem get_update_any (erased : List Bool) (v : Vector UInt8 16) :
    (any.update (erased.map not) v).get Register.flag = if false ∈ erased then 1 else 0 := by
  rw [get_update_flag, value?, List.any_map, Option.elim_some]
  by_cases h : false ∈ erased
  · have hany : erased.any (id ∘ not) = true := List.any_eq_true.mpr ⟨false, h, rfl⟩
    rw [if_pos h, hany]
    rfl
  · have hany : erased.any (id ∘ not) = false := by simpa using h
    rw [if_neg h, hany]
    rfl

end FlagRule

namespace Machine

/-- The pixels under the set bits of a sprite. -/
def pixels {σ : Type} (m : Machine σ) (t : Stamp) : List (Nat × Nat) :=
  ({ m with index := t.index }.setBits t.rows).map fun (c, r) => m.rules.edge.spot (t.left.toNat + c, t.top.toNat + r)

theorem spots_eq_pixels {σ : Type} (m : Machine σ) (x y : Register) (rows : Fin 16) :
    m.spots x y rows = m.pixels ⟨m.index, m.v.get x, m.v.get y, rows⟩ := rfl

theorem pixels_congr {σ τ : Type} {m : Machine σ} {m' : Machine τ} (hram : m'.ram = m.ram)
    (hrules : m'.rules = m.rules) (t : Stamp) : m'.pixels t = m.pixels t := by
  simp only [pixels, setBits, spriteBit, spriteByte, hram, hrules]

/-- One draw, after the registers have become what it says. -/
def drawn (m : Machine Headless) (d : Drawing) : Step Headless :=
  let i := Instr.drw d.x d.y d.rows
  { m with v := d.v, index := d.index }.execute m.pc (UInt16.ofNat i.word) i

/-- One draw after the other, up to the first that fails. -/
def drawAll (m : Machine Headless) : List Drawing → Except Fault Unit × Machine Headless
  | [] => (.ok (), m)
  | d :: ds =>
      match (m.drawn d).result with
      | .ok () => (m.drawn d).machine.drawAll ds
      | .error e => (.error e, (m.drawn d).machine)

/-! ## Many draws -/

section

variable {m : Machine Headless}

theorem draw_of_wrap {x y : Register} {rows : Fin 16} (hedge : m.rules.edge = .wrap) (hfits : Ram.Fits m.index rows)
    (pc word : UInt16) : ∃ frame, m.screen.frame.Flipped frame (m.spots x y rows) ∧
      m.draw x y rows pc word = ⟨.ok (), [], { m with
        screen := ⟨frame, m.screen.renders + 1⟩
        v := m.rules.flag.update ((m.spots x y rows).map fun p => m.screen.frame.lit p.1 p.2) m.v }⟩ :=
  draw_of_onGrid hfits (fun _ hp => onGrid_of_wrap hedge hp) pc word

theorem drawn_eq (hedge : m.rules.edge = .wrap) (d : Drawing) : ∃ frame v,
    m.screen.frame.Flipped frame (m.pixels d.stamp) ∧ m.drawn d =
      ⟨.ok (), [], { m with v, index := d.index, screen := ⟨frame, m.screen.renders + 1⟩ }⟩ := by
  let ready : Machine Headless := { m with v := d.v, index := d.index }
  obtain ⟨frame, hflipped, hdraw⟩ := draw_of_wrap (m := ready) hedge d.fits m.pc
    (UInt16.ofNat (Instr.drw d.x d.y d.rows).word)
  exact ⟨frame, _, hflipped, hdraw⟩

/-- A pixel changes just if an odd number of the sprites have a set bit there. -/
theorem drawAll_eq (hedge : m.rules.edge = .wrap) (ds : List Drawing) : ∃ m', m.drawAll ds = (.ok (), m') ∧
    m'.screen.renders = m.screen.renders + ds.length ∧
    ∀ i j, Frame.OnGrid i j → m'.screen.frame.lit i j =
      (m.screen.frame.lit i j ^^ decide ((ds.map Drawing.stamp).countP (fun t => (i, j) ∈ m.pixels t) % 2 = 1)) := by
  induction ds generalizing m with
  | nil => exact ⟨m, rfl, rfl, fun i j _ => by simp⟩
  | cons d ds ih =>
      obtain ⟨frame, v, hflipped, hdrawn⟩ := drawn_eq hedge d
      let next : Machine Headless := { m with v, index := d.index, screen := ⟨frame, m.screen.renders + 1⟩ }
      obtain ⟨m', hrest, hrenders, hlit⟩ := ih (m := next) hedge
      refine ⟨m', ?_, ?_, ?_⟩
      · rw [drawAll, hdrawn]
        exact hrest
      · rw [hrenders, List.length_cons, Nat.add_comm ds.length, ← Nat.add_assoc]
      · intro i j hij
        have hfirst : frame.lit i j = (m.screen.frame.lit i j ^^ decide ((i, j) ∈ m.pixels d.stamp)) := hflipped i j hij
        -- a sprite is where it was, since a draw changes neither memory nor rules
        have hsame : ∀ t, next.pixels t = m.pixels t := fun _ => rfl
        rw [hlit i j hij, List.map_cons, List.countP_cons, Nat.add_comm, decide_odd_add, ← Bool.xor_assoc]
        simp only [hsame]
        congr 1
        rw [show next.screen.frame.lit i j = _ from hfirst]
        by_cases hmem : (i, j) ∈ m.pixels d.stamp
        · simp [hmem]
        · simp [hmem]

theorem frame_drawAll_perm (hedge : m.rules.edge = .wrap) {ds ds' : List Drawing}
    (h : (ds.map Drawing.stamp).Perm (ds'.map Drawing.stamp)) :
    (m.drawAll ds').2.screen.frame = (m.drawAll ds).2.screen.frame := by
  obtain ⟨m', hds, -, hlit⟩ := drawAll_eq hedge ds
  obtain ⟨m'', hds', -, hlit'⟩ := drawAll_eq hedge ds'
  rw [hds, hds']
  refine Frame.ext_lit fun i j hij => ?_
  rw [hlit i j hij, hlit' i j hij, h.countP_eq]

theorem frame_drawAll_cancel (hedge : m.rules.edge = .wrap) {ds rest : List Drawing} {t : Stamp}
    (h : (ds.map Drawing.stamp).Perm (t :: t :: rest.map Drawing.stamp)) :
    (m.drawAll ds).2.screen.frame = (m.drawAll rest).2.screen.frame := by
  obtain ⟨m', hds, -, hlit⟩ := drawAll_eq hedge ds
  obtain ⟨m'', hrest, -, hlit'⟩ := drawAll_eq hedge rest
  rw [hds, hrest]
  refine Frame.ext_lit fun i j hij => ?_
  have htwice (n k : Nat) : decide ((n + k + k) % 2 = 1) = decide (n % 2 = 1) := decide_eq_decide.mpr (by omega)
  rw [hlit i j hij, hlit' i j hij, h.countP_eq, List.countP_cons, List.countP_cons, htwice]

end

/-! ## The same draw twice -/

section

variable {m : Machine Headless} {x y : Register} {rows : Fin 16}

theorem draw_twice (hedge : m.rules.edge = .wrap) (hx : x ≠ Register.flag) (hy : y ≠ Register.flag)
    (hfits : Ram.Fits m.index rows) (pc word pc' word' : UInt16) :
    let erased := (m.spots x y rows).map fun p => m.screen.frame.lit p.1 p.2
    let once := m.execute pc word (.drw x y rows)
    let twice := once.machine.execute pc' word' (.drw x y rows)
    once.result = .ok () ∧ twice.result = .ok () ∧ twice.machine.screen.frame = m.screen.frame ∧
      once.machine.v = m.rules.flag.update erased m.v ∧
      twice.machine.v = m.rules.flag.update (erased.map not) once.machine.v := by
  intro erased once twice
  obtain ⟨frame, hflipped, honce⟩ := draw_of_wrap hedge hfits pc word
  have honce : once = _ := honce
  -- the corner stays, since it does not depend on VF
  have hspots : once.machine.spots x y rows = m.spots x y rows := by
    rw [honce, spots_eq_pixels, FlagRule.get_update _ _ _ hx, FlagRule.get_update _ _ _ hy]
    exact pixels_congr rfl rfl _
  have hfits' : Ram.Fits once.machine.index rows := by rw [honce]; exact hfits
  have hedge' : once.machine.rules.edge = .wrap := by rw [honce]; exact hedge
  obtain ⟨frame', hflipped', htwice⟩ := draw_of_wrap (x := x) (y := y) hedge' hfits' pc' word'
  have htwice : twice = _ := htwice
  have hframe : once.machine.screen.frame = frame := by rw [honce]
  have hrules : once.machine.rules = m.rules := by rw [honce]
  rw [hspots, hframe] at hflipped' htwice
  refine ⟨by rw [honce], by rw [htwice], ?_, by rw [honce], ?_⟩
  · rw [htwice]
    exact hflipped.undone hflipped'
  · rw [htwice]
    have hturned : ((m.spots x y rows).map fun p => frame.lit p.1 p.2) = erased.map not := by
      rw [List.map_map]
      refine List.map_congr_left fun p hp => ?_
      rw [hflipped p.1 p.2 (onGrid_of_wrap hedge hp)]
      simp [hp]
    simp only [hrules, hturned]

/-- What VF says after the second of two draws. -/
theorem flag_of_draw_twice (hedge : m.rules.edge = .wrap) (hx : x ≠ Register.flag) (hy : y ≠ Register.flag)
    (hfits : Ram.Fits m.index rows) (pc word pc' word' : UInt16) :
    let once := m.execute pc word (.drw x y rows)
    let twice := once.machine.execute pc' word' (.drw x y rows)
    match m.rules.flag with
    | .last => (∃ c r, m.spriteBit rows c r) →
        (twice.machine.v.get Register.flag).toNat + (once.machine.v.get Register.flag).toNat = 1
    | .any => twice.machine.v.get Register.flag =
        if ∃ p ∈ m.spots x y rows, m.screen.frame.lit p.1 p.2 = false then 1 else 0 := by
  intro once twice
  obtain ⟨-, -, -, hv, hv'⟩ := draw_twice hedge hx hy hfits pc word pc' word'
  have hv : once.machine.v = _ := hv
  have hv' : twice.machine.v = _ := hv'
  rw [hv', hv]
  cases m.rules.flag with
  | last =>
      rintro ⟨c, r, hbit⟩
      have hne : (m.spots x y rows).map (fun p => m.screen.frame.lit p.1 p.2) ≠ [] := by
        rw [spots, List.map_map]
        exact mt List.map_eq_nil_iff.mp (List.ne_nil_of_mem (mem_setBits.mpr hbit))
      exact FlagRule.get_update_last hne _ _
  | any => exact (FlagRule.get_update_any _ _).trans (if_congr List.mem_map rfl rfl)

end

end Machine

end ChipEight
