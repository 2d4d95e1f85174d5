import ChipEight.Proofs.Canvas.Tiling
import ChipEight.Proofs.Guarded
import Mathlib.Algebra.Ring.Nat

/-!
Drawing keeps to the canvas. A pixel of the frame covers a rectangle inside it, at least one cell wide and high; a pixel
off the frame covers nothing, however far off it is.
-/

namespace ChipEight

/-! ## Differences -/

/-- No edge of a rectangle comes before the opposite one, wherever the square lies. -/
theorem Grid.le_of_rect? {g : Grid} {s : Square} {r : Rect} (h : g.rect? s = some r) :
    r.left ≤ r.right ∧ r.top ≤ r.bottom := by
  unfold rect? at h
  split at h
  · cases h
    exact ⟨le_spanEnd _ _, le_spanEnd _ _⟩
  · cases h

/-! The drawing of a square again, with every difference taken only where it is not negative. -/

namespace Guarded

def spanEnd (first next : Nat) : Guarded Nat := if first < next then minus next 1 else .ok first

def rect? (g : Grid) (s : Square) : Guarded (Option Rect) :=
  match g.cell? s.left (s.bottom + s.size), g.cell? (s.left + s.size) s.bottom with
  | some (x0, y0), some (x1, y1) => do return some ⟨x0, y0, ← spanEnd x0 x1, ← spanEnd y0 y1⟩
  | _, _ => return none

def isRoomy (r : Rect) : Guarded Bool := do
  let across ← minus r.right r.left
  let down ← minus r.bottom r.top
  return 2 ≤ across && 2 ≤ down

def dabs (g : Grid) (s : Square) : Guarded (List Dab) := do
  match ← rect? g s with
  | none => return []
  | some r =>
      let bordered ← isRoomy r
      return r.cells.map fun (x, y) => ⟨x, y, if bordered && r.onEdge x y then s.outline else s.fill⟩

theorem spanEnd_eq (first next : Nat) : spanEnd first next = .ok (ChipEight.spanEnd first next) := by
  unfold spanEnd ChipEight.spanEnd
  split
  · exact minus_of_le (by omega)
  · rfl

theorem rect?_eq (g : Grid) (s : Square) : rect? g s = .ok (g.rect? s) := by
  unfold rect? Grid.rect?
  rcases g.cell? s.left (s.bottom + s.size) with _ | ⟨x0, y0⟩
  · rfl
  · rcases g.cell? (s.left + s.size) s.bottom with _ | ⟨x1, y1⟩
    · rfl
    · simp only [spanEnd_eq, ok_bind, pure_eq_ok]

theorem isRoomy_eq {r : Rect} (hx : r.left ≤ r.right) (hy : r.top ≤ r.bottom) : isRoomy r = .ok r.isRoomy := by
  have hroomy : (decide (2 ≤ r.right - r.left) && decide (2 ≤ r.bottom - r.top)) = r.isRoomy := by
    rw [Bool.eq_iff_iff, Rect.isRoomy_iff, Bool.and_eq_true, decide_eq_true_iff, decide_eq_true_iff]
    omega
  rw [isRoomy, minus_of_le hx, minus_of_le hy, ok_bind, ok_bind, hroomy, pure_eq_ok]

theorem dabs_eq (g : Grid) (s : Square) : dabs g s = .ok (g.dabs s) := by
  rw [dabs, rect?_eq, ok_bind, Grid.dabs]
  cases hr : g.rect? s with
  | none => rfl
  | some r =>
      obtain ⟨hx, hy⟩ := Grid.le_of_rect? hr
      simp only [isRoomy_eq hx hy, ok_bind, pure_eq_ok]

end Guarded

/-! ## Pixels off the frame -/

/-- Lines are where they should be for as many pixels as a word of 32 bits can count. -/
theorem lineAt_of_le {scale n : Nat} (hscale : scale < UInt16.size) (hn : n ≤ 2 ^ 32) :
    lineAt scale n = n * side scale := by
  have hside : side scale ≤ UInt16.size := Nat.max_le.mpr ⟨Nat.le_of_lt hscale, by decide⟩
  have hle : n * side scale ≤ 2 ^ 32 * UInt16.size := Nat.mul_le_mul hn hside
  exact lineAt_of_lt (Nat.lt_of_le_of_lt hle (by decide))

namespace Grid

variable {g : Grid} {i j : Nat} {lit : Bool}

/-- A pixel off the frame has its lower right corner beyond an edge. -/
theorem rect?_eq_none (hscale : g.scale < UInt16.size) (hi : i < 2 ^ 32) (hj : j < 2 ^ 32)
    (hoff : ¬ Frame.OnGrid i j) : g.rect? (.ofPixel g.scale i j lit) = none := by
  -- Lines are numbered from the upper left corner, so this one is the far corner of the pixel.
  have hcorner := g.cell?_mul_side (i + 1) (-(j + 1))
  have houtside : ¬ (i < 64 ∧ j < 32) := hoff
  rw [if_neg (by omega)] at hcorner
  have hright : (Square.ofPixel g.scale i j lit).left + (Square.ofPixel g.scale i j lit).size =
      ((i : Int) + 1) * side g.scale := by
    simp only [Square.ofPixel, lineAt_of_le hscale (Nat.le_of_lt hi), Int.natCast_mul, Int.add_mul, Int.one_mul]
  have hbottom : (Square.ofPixel g.scale i j lit).bottom = -((j : Int) + 1) * side g.scale := by
    simp only [Square.ofPixel, lineAt_of_le hscale hj, Int.natCast_mul, Int.natCast_succ, Int.neg_mul]
  unfold rect?
  rw [hright, hbottom, hcorner]
  split
  · rename_i h
    cases h
  · rfl

theorem dabs_eq_nil_iff (hscale : g.scale < UInt16.size) (hi : i < 2 ^ 32) (hj : j < 2 ^ 32) :
    g.dabs (.ofPixel g.scale i j lit) = [] ↔ 64 ≤ i ∨ 32 ≤ j := by
  by_cases hij : Frame.OnGrid i j
  · have hin : i < 64 ∧ j < 32 := hij
    have hcorner := (covers_iff (exact_of_lt hscale) hij).mpr (g.corner_mem_cells i j)
    have hdab := (mem_dabs (exact_of_lt hscale) hij lit).mpr ⟨hcorner, rfl⟩
    exact iff_of_false (List.ne_nil_of_mem hdab) (by omega)
  · have hout : ¬ (i < 64 ∧ j < 32) := hij
    refine iff_of_true ?_ (by omega)
    rw [dabs, rect?_eq_none hscale hi hj hij]

/-! ## Pixels of the frame -/

theorem inside_of_mem_dabs (hw : 0 < g.width) (hh : 0 < g.height) (hscale : g.scale < UInt16.size) (hi : i < 2 ^ 32)
    (hj : j < 2 ^ 32) {d : Dab} (hd : d ∈ g.dabs (.ofPixel g.scale i j lit)) : d.x < g.width ∧ d.y < g.height := by
  have hij : i < 64 ∧ j < 32 := by
    have hne := List.ne_nil_of_mem hd
    rw [Ne, dabs_eq_nil_iff hscale hi hj] at hne
    omega
  have hcovers := ((mem_dabs (exact_of_lt hscale) hij lit).mp hd).1
  exact lt_of_mem_cells hw hh hij.1 hij.2 ((covers_iff (exact_of_lt hscale) hij).mp hcovers)

/-- An outline leaves the cell inside the upper left corner alone. -/
theorem paint_interior (hw : 0 < g.width) (hh : 0 < g.height) (hscale : g.scale < UInt16.size)
    (hij : Frame.OnGrid i j) {r : Rect} (hr : g.pixelRect i j = r) (hroomy : r.isRoomy = true) :
    (g.paint (g.dabs (.ofPixel g.scale i j lit)))[(r.top + 1) * g.width + (r.left + 1)]? =
      some (some (if lit then .white else .black)) := by
  have hexact := exact_of_lt hscale
  obtain ⟨hwide, hhigh⟩ := Rect.isRoomy_iff.mp hroomy
  have hmem : (r.left + 1, r.top + 1) ∈ (g.pixelRect i j).cells := by
    rw [hr, Rect.mem_cells]
    omega
  have hinner : r.onEdge (r.left + 1) (r.top + 1) = false := by
    rw [Bool.eq_false_iff, Ne, Rect.onEdge_iff]
    omega
  obtain ⟨hx, hy⟩ := lt_of_mem_cells hw hh hij.1 hij.2 hmem
  have hcovers := (covers_iff hexact hij).mpr hmem
  have hdabs : ∀ d ∈ g.dabs (.ofPixel g.scale i j lit), d.x < g.width := fun d hd =>
    (lt_of_mem_cells hw hh hij.1 hij.2 ((covers_iff hexact hij).mp ((mem_dabs hexact hij lit).mp hd).1)).1
  rw [getElem?_paint hdabs hx hy]
  refine congrArg some (seen_eq_some ⟨_, (mem_dabs hexact hij lit).mpr ⟨hcovers, rfl⟩, rfl, rfl⟩ ?_)
  rintro ⟨x, y, c⟩ hd rfl rfl
  rw [((mem_dabs hexact hij lit).mp hd).2, hr, hinner, Bool.and_false]
  rfl

theorem isRoomy_of_outlined (hscale : g.scale < UInt16.size) (hij : Frame.OnGrid i j) {d : Dab}
    (hd : d ∈ g.dabs (.ofPixel g.scale i j lit)) (hcolour : d.colour = .darkGrey) :
    (g.pixelRect i j).isRoomy = true := by
  obtain ⟨-, hd⟩ := (mem_dabs (exact_of_lt hscale) hij lit).mp hd
  by_contra hnot
  rw [Bool.not_eq_true] at hnot
  rw [hcolour, hnot, Bool.false_and] at hd
  cases lit <;> cases hd

end Grid

/-- Drawing a pixel, at whatever size and scale. None of the differences taken for it is negative. Nothing is drawn of
a pixel that the frame does not have, and of no other. A pixel of the frame covers a rectangle of the canvas, one cell
wide and high at the least, and each dab on it falls inside the canvas and in the row that it is meant for. Inside an
outline there is a cell left that shows the colour of the pixel. -/
theorem drawing_keeps_to_canvas {w h x y : Nat} (hw : 1 ≤ w) (hh : 1 ≤ h) (hx : x < 2 ^ 32) (hy : y < 2 ^ 32)
    (scale : UInt16) (lit : Bool) :
    let g : Grid := ⟨⟨w, h⟩, scale.toNat⟩
    let square := Square.ofPixel scale.toNat x y lit
    let dabs := g.dabs square
    Guarded.dabs g square = .ok dabs ∧
    (dabs = [] ↔ 64 ≤ x ∨ 32 ≤ y) ∧
    (x < 64 → y < 32 → ∃ r, g.rect? square = some r ∧
      (r.left ≤ r.right ∧ r.right ≤ w - 1) ∧ (r.top ≤ r.bottom ∧ r.bottom ≤ h - 1) ∧
      (∀ i j, (i, j) ∈ g.touched square ↔ (r.left ≤ i ∧ i ≤ r.right) ∧ r.top ≤ j ∧ j ≤ r.bottom) ∧
      ((∃ d ∈ dabs, d.colour = square.outline) →
        ∃ i j, (r.left < i ∧ i < r.right) ∧ (r.top < j ∧ j < r.bottom) ∧
          (g.paint dabs)[j * w + i]? = some (some square.fill))) ∧
    ∀ d ∈ dabs, (d.x < w ∧ d.y < h) ∧ d.y * w + d.x < w * h ∧ (d.y * w + d.x) / w = d.y := by
  intro g square dabs
  have hscale : g.scale < UInt16.size := scale.toNat_lt
  refine ⟨Guarded.dabs_eq g square, Grid.dabs_eq_nil_iff hscale hx hy, ?_, ?_⟩
  · intro hx hy
    have hxy : Frame.OnGrid x y := ⟨hx, hy⟩
    have hright : (g.pixelRect x y).right < w := spanOf_lt hw hx
    have hbottom : (g.pixelRect x y).bottom < h := spanOf_lt hh hy
    refine ⟨g.pixelRect x y, Grid.rect?_ofPixel (Grid.exact_of_lt hscale) hx hy lit,
      ⟨le_spanEnd _ _, by omega⟩, ⟨le_spanEnd _ _, by omega⟩, ?_, ?_⟩
    · intro i j
      have htouched : g.touched square = _ := Grid.touched_ofPixel (Grid.exact_of_lt hscale) hxy lit
      rw [htouched, Rect.mem_cells]
    · rintro ⟨d, hd, hcolour⟩
      have hroomy : (g.pixelRect x y).isRoomy = true := Grid.isRoomy_of_outlined hscale hxy hd hcolour
      obtain ⟨hwide, hhigh⟩ := Rect.isRoomy_iff.mp hroomy
      exact ⟨_, _, ⟨Nat.lt_succ_self _, by omega⟩, ⟨Nat.lt_succ_self _, by omega⟩,
        Grid.paint_interior (g := g) hw hh hscale hxy rfl hroomy⟩
  · intro d hd
    obtain ⟨hdx, hdy⟩ : d.x < w ∧ d.y < h := Grid.inside_of_mem_dabs (g := g) hw hh hscale hx hy hd
    refine ⟨⟨hdx, hdy⟩, Grid.place_lt (g := g) hdx hdy, ?_⟩
    rw [Nat.mul_comm, Nat.mul_add_div hw, Nat.div_eq_of_lt hdx, Nat.add_zero]

/-- The last pixel of a frame on a canvas of a single cell and on one with room for outlines, and the place beside it. -/
theorem drawing_keeps_to_canvas_last_pixel :
    let square := Square.ofPixel 20 63 31 true
    let dabs := Grid.dabs ⟨⟨1, 1⟩, 20⟩ square
    let outlined := Grid.dabs ⟨⟨257, 129⟩, 20⟩ square
    (dabs ≠ [] ∧ ∀ d ∈ dabs, d.x < 1 ∧ d.y < 1) ∧
    (∃ i j, (252 < i ∧ i < 255) ∧ (124 < j ∧ j < 127) ∧
      (Grid.paint ⟨⟨257, 129⟩, 20⟩ outlined)[j * 257 + i]? = some (some Colour.white)) ∧
    Grid.dabs ⟨⟨1, 1⟩, 20⟩ (.ofPixel 20 64 31 true) = [] := by
  intro square dabs outlined
  obtain ⟨-, hnil, -, hinside⟩ :=
    drawing_keeps_to_canvas (w := 1) (h := 1) (x := 63) (y := 31) (by decide) (by decide) (by decide) (by decide) 20 true
  obtain ⟨-, -, hrect, -⟩ := drawing_keeps_to_canvas (w := 257) (h := 129) (x := 63) (y := 31) (by decide) (by decide)
    (by decide) (by decide) 20 true
  obtain ⟨-, hbeside, -, -⟩ :=
    drawing_keeps_to_canvas (w := 1) (h := 1) (x := 64) (y := 31) (by decide) (by decide) (by decide) (by decide) 20 true
  refine ⟨⟨fun h => absurd (hnil.mp h) (by decide), fun d hd => (hinside d hd).1⟩, ?_, hbeside.mpr (by decide)⟩
  obtain ⟨r, hr, -, -, -, hinner⟩ := hrect (by decide) (by decide)
  have hlast : Grid.rect? ⟨⟨257, 129⟩, 20⟩ square = some ⟨252, 124, 255, 127⟩ := by decide +kernel
  cases hlast.symm.trans hr
  exact hinner ⟨⟨252, 124, .darkGrey⟩, by decide +kernel, rfl⟩

end ChipEight
