import ChipEight.Canvas.Painting
import ChipEight.Proofs.Canvas.Rects
import Mathlib.Data.List.Induction

/-!
What a painted canvas shows. Lit pixels are painted last, and an outline only where no two pixels share a cell, so that
a cell shows what covers it whatever the size.
-/

namespace ChipEight

/-! ## Dabs -/

def Dab.isAt (d : Dab) (x y : Nat) : Bool := d.x == x && d.y == y

theorem Dab.isAt_iff {d : Dab} {x y : Nat} : d.isAt x y = true ↔ d.x = x ∧ d.y = y := by
  simp [isAt]

/-- The colour of the last dab on a cell, if there is one. -/
def seen (dabs : List Dab) (x y : Nat) : Option Colour := (dabs.reverse.find? (·.isAt x y)).map Dab.colour

section

variable {dabs later : List Dab} {x y : Nat} {c : Colour}

theorem seen_append (dabs later : List Dab) (x y : Nat) :
    seen (dabs ++ later) x y = (seen later x y).or (seen dabs x y) := by
  rw [seen, List.reverse_append, List.find?_append, Option.map_or]
  rfl

theorem seen_snoc (dabs : List Dab) (d : Dab) (x y : Nat) :
    seen (dabs ++ [d]) x y = if d.isAt x y then some d.colour else seen dabs x y := by
  rw [seen_append]
  by_cases hd : d.isAt x y
  · simp [seen, hd]
  · simp [seen, hd]

theorem seen_eq_none (h : ∀ d ∈ dabs, ¬ (d.x = x ∧ d.y = y)) : seen dabs x y = none := by
  rw [seen, Option.map_eq_none_iff, List.find?_eq_none]
  intro d hd
  rw [Dab.isAt_iff]
  exact h d (List.mem_reverse.mp hd)

theorem seen_eq_some (hsome : ∃ d ∈ dabs, d.x = x ∧ d.y = y) (h : ∀ d ∈ dabs, d.x = x → d.y = y → d.colour = c) :
    seen dabs x y = some c := by
  unfold seen
  cases hfind : dabs.reverse.find? (·.isAt x y) with
  | none =>
      obtain ⟨d, hd, hxy⟩ := hsome
      exact absurd (Dab.isAt_iff.mpr hxy) (List.find?_eq_none.mp hfind d (List.mem_reverse.mpr hd))
  | some d =>
      have hd : d.isAt x y = true := List.find?_some (p := fun d : Dab => d.isAt x y) hfind
      obtain ⟨hx, hy⟩ := Dab.isAt_iff.mp hd
      exact congrArg some (h d (List.mem_reverse.mp (List.mem_of_find?_eq_some hfind)) hx hy)

end

namespace Grid

variable {g : Grid} {x y : Nat}

theorem paint_snoc (g : Grid) (dabs : List Dab) (d : Dab) :
    g.paint (dabs ++ [d]) = (g.paint dabs).setIfInBounds (d.y * g.width + d.x) (some d.colour) := by
  rw [paint, List.foldl_append]
  rfl

theorem size_paint (g : Grid) (dabs : List Dab) : (g.paint dabs).size = g.width * g.height := by
  induction dabs using List.reverseRecOn with
  | nil => exact Array.size_replicate
  | append_singleton dabs d ih => rw [paint_snoc, Array.size_setIfInBounds, ih]

/-- Cells of different columns or rows lie at different places of the grid. -/
theorem place_inj {x' y' : Nat} (hx : x < g.width) (hx' : x' < g.width) :
    y' * g.width + x' = y * g.width + x ↔ x' = x ∧ y' = y := by
  constructor
  · intro h
    have hcolumn := congrArg (· % g.width) h
    simp only [Nat.mul_add_mod_self_right, Nat.mod_eq_of_lt hx, Nat.mod_eq_of_lt hx'] at hcolumn
    subst hcolumn
    exact ⟨rfl, Nat.eq_of_mul_eq_mul_right (Nat.zero_lt_of_lt hx) (Nat.add_right_cancel h)⟩
  · rintro ⟨rfl, rfl⟩
    rfl

theorem place_lt (hx : x < g.width) (hy : y < g.height) : y * g.width + x < g.width * g.height := by
  calc y * g.width + x < y * g.width + g.width := Nat.add_lt_add_left hx _
    _ = (y + 1) * g.width := (Nat.succ_mul ..).symm
    _ ≤ g.height * g.width := Nat.mul_le_mul_right _ hy
    _ = g.width * g.height := Nat.mul_comm ..

/-- A cell shows its last dab. -/
theorem getElem?_paint {dabs : List Dab} (hdabs : ∀ d ∈ dabs, d.x < g.width) (hx : x < g.width) (hy : y < g.height) :
    (g.paint dabs)[y * g.width + x]? = some (seen dabs x y) := by
  induction dabs using List.reverseRecOn with
  | nil =>
      rw [paint, List.foldl_nil, unpainted, Array.getElem?_replicate, if_pos (place_lt hx hy)]
      rfl
  | append_singleton dabs d ih =>
      have ih := ih fun d' hd' => hdabs d' (List.mem_append_left _ hd')
      have hd := hdabs d (List.mem_append_right _ List.mem_cons_self)
      rw [paint_snoc, Array.getElem?_setIfInBounds, seen_snoc, size_paint]
      by_cases hat : d.isAt x y
      · obtain ⟨rfl, rfl⟩ := Dab.isAt_iff.mp hat
        rw [if_pos rfl, if_pos (place_lt hx hy), if_pos hat]
      · have hne : ¬ d.y * g.width + d.x = y * g.width + x := fun h => hat (Dab.isAt_iff.mpr ((place_inj hx hd).mp h))
        rw [if_neg hne, if_neg hat, ih]

/-! ## Pixels -/

/-- The pixel in column `i` of row `j` covers a cell. Whether it is lit does not matter. -/
def Covers (g : Grid) (i j x y : Nat) : Prop := ∃ r ∈ g.rect? (.ofPixel g.scale i j false), (x, y) ∈ r.cells

/-- A cell is on the outline of the pixel in column `i` of row `j`, which has one where there are three cells for it
across and three down. -/
def Outlines (g : Grid) (i j x y : Nat) : Prop := ∃ r ∈ g.rect? (.ofPixel g.scale i j false),
  (r.left + 2 ≤ r.right ∧ r.top + 2 ≤ r.bottom) ∧ (x, y) ∈ r.cells ∧
    (x = r.left ∨ x = r.right ∨ y = r.top ∨ y = r.bottom)

/-- A cell is on the outline of some pixel. -/
def Outlined (g : Grid) (x y : Nat) : Prop := ∃ i j, Frame.OnGrid i j ∧ g.Outlines i j x y

section

variable {i j : Nat}

theorem covers_iff (hexact : g.Exact) (hij : Frame.OnGrid i j) :
    g.Covers i j x y ↔ (x, y) ∈ (g.pixelRect i j).cells := by
  simp [Covers, rect?_ofPixel hexact hij.1 hij.2]

theorem outlines_iff (hexact : g.Exact) (hij : Frame.OnGrid i j) : g.Outlines i j x y ↔
    (x, y) ∈ (g.pixelRect i j).cells ∧ ((g.pixelRect i j).isRoomy && (g.pixelRect i j).onEdge x y) = true := by
  simp only [Outlines, rect?_ofPixel hexact hij.1 hij.2, Option.mem_some_iff, exists_eq_left', Bool.and_eq_true,
    Rect.isRoomy_iff, Rect.onEdge_iff]
  exact and_left_comm

theorem Outlines.covers (h : g.Outlines i j x y) : g.Covers i j x y := by
  obtain ⟨r, hr, -, hmem, -⟩ := h
  exact ⟨r, hr, hmem⟩

/-- An outline has its cells to itself. -/
theorem Outlined.outlines (hexact : g.Exact) (h : g.Outlined x y) (hij : Frame.OnGrid i j) (hc : g.Covers i j x y) :
    g.Outlines i j x y := by
  obtain ⟨i', j', hij', hout⟩ := h
  obtain ⟨hmem, hroomy⟩ := (outlines_iff hexact hij').mp hout
  have hample : g.Ample := ample_of_isRoomy (Bool.and_eq_true_iff.mp hroomy).1
  obtain ⟨rfl, rfl⟩ := hample.pixel_eq hmem ((covers_iff hexact hij).mp hc)
  exact hout

theorem mem_dabs (hexact : g.Exact) (hij : Frame.OnGrid i j) (lit : Bool) {c : Colour} :
    ⟨x, y, c⟩ ∈ g.dabs (.ofPixel g.scale i j lit) ↔ g.Covers i j x y ∧
      c = if (g.pixelRect i j).isRoomy && (g.pixelRect i j).onEdge x y then .darkGrey
        else if lit then .white else .black := by
  rw [covers_iff hexact hij, dabs, rect?_ofPixel hexact hij.1 hij.2]
  simp only [List.mem_map, Prod.exists, Dab.mk.injEq]
  constructor
  · rintro ⟨x', y', hxy, rfl, rfl, rfl⟩
    exact ⟨hxy, rfl⟩
  · rintro ⟨hxy, rfl⟩
    exact ⟨x, y, hxy, rfl, rfl, rfl⟩

theorem colour_of_mem_dabs (hexact : g.Exact) (hij : Frame.OnGrid i j) {lit : Bool} {d : Dab}
    (hd : d ∈ g.dabs (.ofPixel g.scale i j lit)) : (g.Outlined d.x d.y → d.colour = .darkGrey) ∧
      (¬ g.Outlined d.x d.y → d.colour = if lit then .white else .black) := by
  obtain ⟨hcovers, hcolour⟩ := (mem_dabs hexact hij lit).mp hd
  constructor
  · intro hout
    rw [hcolour, if_pos ((outlines_iff hexact hij).mp (hout.outlines hexact hij hcovers)).2]
  · intro hnot
    rw [hcolour, if_neg]
    intro hedge
    exact hnot ⟨i, j, hij, (outlines_iff hexact hij).mpr ⟨(covers_iff hexact hij).mp hcovers, hedge⟩⟩

end

/-! ## Frames -/

/-- What drawing a frame does to the grid. -/
def frameDabs (g : Grid) (f : Frame) : List Dab := (g.frameSquares f).flatMap g.dabs

/-- What drawing the lit pixels of a frame, or the others, does to the grid. -/
def planeDabs (g : Grid) (f : Frame) (lit : Bool) : List Dab :=
  ((f.pixels.filter (·.lit == lit)).map fun p => Square.ofPixel g.scale p.x p.y p.lit).flatMap g.dabs

theorem frameDabs_eq (g : Grid) (f : Frame) : g.frameDabs f = g.planeDabs f false ++ g.planeDabs f true := by
  rw [frameDabs, frameSquares, List.flatMap_cons, List.flatMap_cons, List.flatMap_nil, List.append_nil,
    List.flatMap_append]
  rfl

end Grid

theorem Frame.mem_pixels {f : Frame} {p : Pixel} : p ∈ f.pixels ↔ OnGrid p.x p.y ∧ p.lit = f.lit p.x p.y := by
  obtain ⟨x, y, lit⟩ := p
  simp only [pixels, List.mem_flatMap, List.mem_map, List.mem_range, Pixel.mk.injEq]
  constructor
  · rintro ⟨y', hy, x', hx, rfl, rfl, rfl⟩
    exact ⟨⟨hx, hy⟩, rfl⟩
  · rintro ⟨⟨hx, hy⟩, rfl⟩
    exact ⟨y, hy, x, hx, rfl, rfl, rfl⟩

namespace Grid

variable {g : Grid} {f : Frame} {x y : Nat}

theorem mem_planeDabs {lit : Bool} {d : Dab} : d ∈ g.planeDabs f lit ↔
    ∃ i j, Frame.OnGrid i j ∧ f.lit i j = lit ∧ d ∈ g.dabs (.ofPixel g.scale i j lit) := by
  simp only [planeDabs, List.mem_flatMap, List.mem_map, List.mem_filter, Frame.mem_pixels, beq_iff_eq]
  constructor
  · rintro ⟨square, ⟨p, ⟨⟨hp, hlit⟩, rfl⟩, rfl⟩, hd⟩
    exact ⟨p.x, p.y, hp, hlit.symm, hd⟩
  · rintro ⟨i, j, hij, rfl, hd⟩
    exact ⟨_, ⟨⟨i, j, f.lit i j⟩, ⟨⟨hij, rfl⟩, rfl⟩, rfl⟩, hd⟩

/-- A pixel of the frame that is lit, or one that is not, covers this cell. -/
def CoveredAs (g : Grid) (f : Frame) (lit : Bool) (x y : Nat) : Prop :=
  ∃ i j, Frame.OnGrid i j ∧ f.lit i j = lit ∧ g.Covers i j x y

section

variable (hexact : g.Exact) {lit : Bool}

include hexact

theorem exists_dab_iff : (∃ d ∈ g.planeDabs f lit, d.x = x ∧ d.y = y) ↔ g.CoveredAs f lit x y := by
  constructor
  · rintro ⟨d, hd, rfl, rfl⟩
    obtain ⟨i, j, hij, hlit, hmem⟩ := mem_planeDabs.mp hd
    exact ⟨i, j, hij, hlit, ((mem_dabs hexact hij lit).mp hmem).1⟩
  · rintro ⟨i, j, hij, hlit, hcovers⟩
    have hmem := (mem_dabs hexact hij lit).mpr ⟨hcovers, rfl⟩
    exact ⟨_, mem_planeDabs.mpr ⟨i, j, hij, hlit, hmem⟩, rfl, rfl⟩

theorem seen_planeDabs_of_not_coveredAs (h : ¬ g.CoveredAs f lit x y) : seen (g.planeDabs f lit) x y = none :=
  seen_eq_none fun d hd hxy => h ((exists_dab_iff hexact).mp ⟨d, hd, hxy⟩)

theorem seen_planeDabs_of_outlined (h : g.CoveredAs f lit x y) (hout : g.Outlined x y) :
    seen (g.planeDabs f lit) x y = some .darkGrey := by
  refine seen_eq_some ((exists_dab_iff hexact).mpr h) ?_
  rintro d hd rfl rfl
  obtain ⟨i, j, hij, -, hmem⟩ := mem_planeDabs.mp hd
  exact (colour_of_mem_dabs hexact hij hmem).1 hout

theorem seen_planeDabs_of_not_outlined (h : g.CoveredAs f lit x y) (hout : ¬ g.Outlined x y) :
    seen (g.planeDabs f lit) x y = some (if lit then .white else .black) := by
  refine seen_eq_some ((exists_dab_iff hexact).mpr h) ?_
  rintro d hd rfl rfl
  obtain ⟨i, j, hij, -, hmem⟩ := mem_planeDabs.mp hd
  exact (colour_of_mem_dabs hexact hij hmem).2 hout

open Classical in
/-- Lit pixels are painted over the others, and an outline has its cells to itself. -/
theorem seen_frameDabs : seen (g.frameDabs f) x y =
    if g.Outlined x y then some .darkGrey
    else if g.CoveredAs f true x y then some .white
    else if g.CoveredAs f false x y then some .black
    else none := by
  rw [frameDabs_eq, seen_append]
  by_cases hout : g.Outlined x y
  · obtain ⟨i, j, hij, hcovers⟩ := hout
    have hcoveredAs : g.CoveredAs f (f.lit i j) x y := ⟨i, j, hij, rfl, hcovers.covers⟩
    have hout : g.Outlined x y := ⟨i, j, hij, hcovers⟩
    rw [if_pos hout]
    by_cases htrue : g.CoveredAs f true x y
    · rw [seen_planeDabs_of_outlined hexact htrue hout, Option.some_or]
    · have hfalse : g.CoveredAs f false x y := by
        cases hlit : f.lit i j with
        | false => exact hlit ▸ hcoveredAs
        | true => exact absurd (hlit ▸ hcoveredAs) htrue
      rw [seen_planeDabs_of_not_coveredAs hexact htrue, seen_planeDabs_of_outlined hexact hfalse hout, Option.none_or]
  · rw [if_neg hout]
    by_cases htrue : g.CoveredAs f true x y
    · rw [seen_planeDabs_of_not_outlined hexact htrue hout, if_pos htrue]
      rfl
    · rw [seen_planeDabs_of_not_coveredAs hexact htrue, if_neg htrue, Option.none_or]
      by_cases hfalse : g.CoveredAs f false x y
      · rw [seen_planeDabs_of_not_outlined hexact hfalse hout, if_pos hfalse]
        rfl
      · rw [seen_planeDabs_of_not_coveredAs hexact hfalse, if_neg hfalse]

end

theorem lt_of_mem_frameDabs (hexact : g.Exact) (hw : 0 < g.width) (hh : 0 < g.height) {d : Dab}
    (hd : d ∈ g.frameDabs f) : d.x < g.width := by
  rw [frameDabs_eq, List.mem_append] at hd
  obtain ⟨lit, hd⟩ : ∃ lit, d ∈ g.planeDabs f lit := hd.elim (⟨_, ·⟩) (⟨_, ·⟩)
  obtain ⟨i, j, hij, -, hmem⟩ := mem_planeDabs.mp hd
  have hcells := (covers_iff hexact hij).mp ((mem_dabs hexact hij lit).mp hmem).1
  exact (lt_of_mem_cells hw hh hij.1 hij.2 hcells).1

end Grid

namespace Picture

/-- The cell at column `x` of row `y`. -/
def cell? (p : Picture) (x y : Nat) : Option Cell := p[y]?.bind (·[x]?)

theorem cell?_of {s : Size} (f : Nat → Nat → Cell) {x y : Nat} (hx : x < s.width) (hy : y < s.height) :
    (Picture.of s f).cell? x y = some (f x y) := by
  simp [cell?, Picture.of, hx, hy]

end Picture

section

variable {w h x y : Nat} {scale : Nat} {title : String} {f : Frame}

theorem border?_inside {title : List Char} (hx : x < w) (hy : y < h) :
    border? ⟨w + 2, h + 2⟩ title (x + 1) (y + 1) = none := by
  unfold border?
  rw [if_neg (by omega), if_neg (by simp only; omega), if_neg (by simp only; omega)]

/-- Inside the border, a frame shows the last dab on each cell. -/
theorem cell?_frameOn (hscale : scale < UInt16.size) (hx : x < w) (hy : y < h) :
    (frameOn ⟨w + 2, h + 2⟩ scale title f).cell? (x + 1) (y + 1) =
      some ((seen (Grid.frameDabs ⟨⟨w, h⟩, scale⟩ f) x y).elim (windowGround ' ') Colour.cell) := by
  have hdabs : ∀ d ∈ Grid.frameDabs ⟨⟨w, h⟩, scale⟩ f, d.x < w := fun d hd =>
    Grid.lt_of_mem_frameDabs (Grid.exact_of_lt hscale) (Nat.zero_lt_of_lt hx) (Nat.zero_lt_of_lt hy) hd
  have hpaint := Grid.getElem?_paint (g := ⟨⟨w, h⟩, scale⟩) hdabs hx hy
  unfold Grid.frameDabs at hpaint ⊢
  rw [frameOn, Picture.cell?_of _ (by simp only; omega) (by simp only; omega)]
  simp only [border?_inside hx hy, paintedCell, Nat.add_sub_cancel, hpaint]
  generalize seen _ x y = c
  cases c with
  | none => rfl
  | some c => rfl

end

theorem Colour.cell_inj {c c' : Colour} : c.cell = c'.cell ↔ c = c' :=
  ⟨congrArg Cell.foreground, congrArg cell⟩

theorem Colour.cell_ne_ground (c : Colour) : c.cell ≠ windowGround ' ' :=
  fun h => absurd (congrArg Cell.symbol h) (by simp [cell, windowGround])

theorem shown_eq_cell_iff {shown : Option Colour} {c : Colour} :
    some (shown.elim (windowGround ' ') Colour.cell) = some c.cell ↔ shown = some c := by
  cases shown with
  | none => simp [c.cell_ne_ground.symm]
  | some c' => simp [Colour.cell_inj]

theorem shown_eq_ground_iff {shown : Option Colour} :
    some (shown.elim (windowGround ' ') Colour.cell) = some (windowGround ' ') ↔ shown = none := by
  cases shown with
  | none => simp
  | some c => simp [c.cell_ne_ground]

namespace Grid

variable {g : Grid} {f : Frame} {x y : Nat}

/-- Some pixel covers this cell. -/
def Covered (g : Grid) (x y : Nat) : Prop := ∃ i j, Frame.OnGrid i j ∧ g.Covers i j x y

theorem covered_iff (f : Frame) : g.Covered x y ↔ g.CoveredAs f true x y ∨ g.CoveredAs f false x y := by
  constructor
  · rintro ⟨i, j, hij, hcovers⟩
    cases hlit : f.lit i j with
    | true => exact .inl ⟨i, j, hij, hlit, hcovers⟩
    | false => exact .inr ⟨i, j, hij, hlit, hcovers⟩
  · rintro (⟨i, j, hij, -, hcovers⟩ | ⟨i, j, hij, -, hcovers⟩)
    · exact ⟨i, j, hij, hcovers⟩
    · exact ⟨i, j, hij, hcovers⟩

theorem Outlined.covered (h : g.Outlined x y) : g.Covered x y := by
  obtain ⟨i, j, hij, hout⟩ := h
  exact ⟨i, j, hij, hout.covers⟩

theorem seen_frameDabs_iff (hexact : g.Exact) (f : Frame) (x y : Nat) :
    let shown := seen (g.frameDabs f) x y
    (shown = some .white ↔ g.CoveredAs f true x y ∧ ¬ g.Outlined x y) ∧
    (shown = some .darkGrey ↔ g.Outlined x y) ∧
    (shown = some .black ↔ g.Covered x y ∧ ¬ g.CoveredAs f true x y ∧ ¬ g.Outlined x y) ∧
    (shown = none ↔ ¬ g.Covered x y) := by
  intro shown
  have hcovered : g.Covered x y ↔ _ := covered_iff f
  have hshown : shown = _ := seen_frameDabs hexact
  rw [hshown]
  by_cases hout : g.Outlined x y
  · simp [hout, hout.covered]
  · rw [hcovered]
    by_cases htrue : g.CoveredAs f true x y
    · simp [hout, htrue]
    · by_cases hfalse : g.CoveredAs f false x y
      · simp [hout, htrue, hfalse]
      · simp [hout, htrue, hfalse]

/-- The corner of a pixel without an outline, or the cell next to it, is not on any outline. -/
theorem exists_not_outlined (hexact : g.Exact) {i j : Nat} (hij : Frame.OnGrid i j) :
    ∃ x y, g.Covers i j x y ∧ ¬ g.Outlined x y := by
  cases hroomy : (g.pixelRect i j).isRoomy with
  | false =>
      have hcorner := (covers_iff hexact hij).mpr (g.corner_mem_cells i j)
      refine ⟨_, _, hcorner, fun hout => ?_⟩
      have hedge := ((outlines_iff hexact hij).mp (hout.outlines hexact hij hcorner)).2
      rw [hroomy] at hedge
      cases hedge
  | true =>
      obtain ⟨hwide, hhigh⟩ := Rect.isRoomy_iff.mp hroomy
      have hinner : g.Covers i j ((g.pixelRect i j).left + 1) ((g.pixelRect i j).top + 1) :=
        (covers_iff hexact hij).mpr (Rect.mem_cells.mpr (by omega))
      refine ⟨_, _, hinner, fun hout => ?_⟩
      have hedge := ((outlines_iff hexact hij).mp (hout.outlines hexact hij hinner)).2
      rw [hroomy, Bool.true_and, Rect.onEdge_iff] at hedge
      omega

end Grid

/-- Inside its border a painted frame shows, at every size, what covers each cell: the outline of a pixel, if the cell
is on one; or else that of the pixels there one is lit, that none is, or that there are none. However small the terminal
is, some cell of each lit pixel is white, and none of its cells shows anything else but its own outline. -/
theorem canvas_shows_pixels {w h : Nat} (hw : 0 < w) (hh : 0 < h) (scale : UInt16) (title : String) (f : Frame) :
    let g : Grid := ⟨⟨w, h⟩, scale.toNat⟩
    let picture := frameOn ⟨w + 2, h + 2⟩ scale.toNat title f
    let cell (x y : Nat) := picture.cell? (x + 1) (y + 1)
    let lit (x y : Nat) := ∃ i j, Frame.OnGrid i j ∧ f.lit i j ∧ g.Covers i j x y
    (∀ terminal : Size, terminal.drawn = ⟨w + 2, h + 2⟩ → paintFrame terminal scale.toNat title f = picture) ∧
    (∀ x y, x < w → y < h →
      (cell x y = some Colour.white.cell ↔ lit x y ∧ ¬ g.Outlined x y) ∧
      (cell x y = some Colour.darkGrey.cell ↔ g.Outlined x y) ∧
      (cell x y = some Colour.black.cell ↔ g.Covered x y ∧ ¬ lit x y ∧ ¬ g.Outlined x y) ∧
      (cell x y = some (windowGround ' ') ↔ ¬ g.Covered x y)) ∧
    (∀ i j, Frame.OnGrid i j → f.lit i j →
      (∃ x y, x < w ∧ y < h ∧ g.Covers i j x y ∧ cell x y = some Colour.white.cell) ∧
      ∀ x y, g.Covers i j x y →
        cell x y = some Colour.white.cell ∨ g.Outlines i j x y ∧ cell x y = some Colour.darkGrey.cell) ∧
    (f = .blank → ∀ x y, x < w → y < h → cell x y ≠ some Colour.white.cell) := by
  intro g picture cell lit
  have hexact : g.Exact := Grid.exact_of_lt scale.toNat_lt
  have hcells : ∀ x y, x < w → y < h →
      (cell x y = some Colour.white.cell ↔ lit x y ∧ ¬ g.Outlined x y) ∧
      (cell x y = some Colour.darkGrey.cell ↔ g.Outlined x y) ∧
      (cell x y = some Colour.black.cell ↔ g.Covered x y ∧ ¬ lit x y ∧ ¬ g.Outlined x y) ∧
      (cell x y = some (windowGround ' ') ↔ ¬ g.Covered x y) := by
    intro x y hx hy
    have hcell : cell x y = _ := cell?_frameOn scale.toNat_lt hx hy
    rw [hcell]
    simp only [shown_eq_cell_iff, shown_eq_ground_iff]
    exact Grid.seen_frameDabs_iff hexact f x y
  refine ⟨?_, hcells, ?_, ?_⟩
  · intro terminal hdrawn
    rw [paintFrame, hdrawn]
  · intro i j hij hlit
    have hinside : ∀ x y, g.Covers i j x y → x < w ∧ y < h := fun x y hc =>
      Grid.lt_of_mem_cells (g := g) hw hh hij.1 hij.2 ((Grid.covers_iff hexact hij).mp hc)
    constructor
    · obtain ⟨x, y, hc, hout⟩ := Grid.exists_not_outlined hexact hij
      obtain ⟨hx, hy⟩ := hinside x y hc
      exact ⟨x, y, hx, hy, hc, (hcells x y hx hy).1.mpr ⟨⟨i, j, hij, hlit, hc⟩, hout⟩⟩
    · intro x y hc
      obtain ⟨hx, hy⟩ := hinside x y hc
      by_cases hout : g.Outlined x y
      · exact .inr ⟨hout.outlines hexact hij hc, (hcells x y hx hy).2.1.mpr hout⟩
      · exact .inl ((hcells x y hx hy).1.mpr ⟨⟨i, j, hij, hlit, hc⟩, hout⟩)
  · rintro rfl x y hx hy hwhite
    obtain ⟨⟨i, j, -, hlit, -⟩, -⟩ := (hcells x y hx hy).1.mp hwhite
    rw [Frame.lit_blank] at hlit
    cases hlit

/-- One pixel, on a canvas of so few cells that many pixels share one, and on a canvas with room for outlines. -/
theorem canvas_shows_pixel_small_and_large :
    let f := (Frame.blank.toggle 5 3).2
    (paintFrame ⟨11, 7⟩ 20 "CHIP-8" f).cell? 1 1 = some Colour.white.cell ∧
    (paintFrame ⟨259, 131⟩ 20 "CHIP-8" f).cell? 22 14 = some Colour.white.cell ∧
    (paintFrame ⟨259, 131⟩ 20 "CHIP-8" f).cell? 21 13 = some Colour.darkGrey.cell := by
  intro f
  have hlit : f.lit 5 3 = true := by decide
  have hpixel : Frame.OnGrid 5 3 := by decide
  refine ⟨?_, ?_⟩
  · let g : Grid := ⟨⟨9, 5⟩, 20⟩
    have hexact : g.Exact := Grid.exact_of_lt (by decide)
    have hcovers : g.Covers 5 3 0 0 := (Grid.covers_iff hexact hpixel).mpr (by decide)
    obtain ⟨hpaint, -, hcells, -⟩ := canvas_shows_pixels (w := 9) (h := 5) (by decide) (by decide) 20 "CHIP-8" f
    have hpaint : paintFrame ⟨11, 7⟩ 20 "CHIP-8" f = _ := hpaint ⟨11, 7⟩ (by decide)
    rw [hpaint]
    obtain hwhite | ⟨hout, -⟩ := (hcells 5 3 hpixel hlit).2 0 0 hcovers
    · exact hwhite
    · exact absurd ((Grid.outlines_iff (g := g) hexact hpixel).mp hout).2 (by decide)
  · let g : Grid := ⟨⟨257, 129⟩, 20⟩
    have hexact : g.Exact := Grid.exact_of_lt (by decide)
    have hinner : g.Covers 5 3 21 13 := (Grid.covers_iff hexact hpixel).mpr (by decide)
    have hedge : g.Outlines 5 3 20 12 := (Grid.outlines_iff hexact hpixel).mpr (by decide)
    obtain ⟨hpaint, hshown, hcells, -⟩ :=
      canvas_shows_pixels (w := 257) (h := 129) (by decide) (by decide) 20 "CHIP-8" f
    have hpaint : paintFrame ⟨259, 131⟩ 20 "CHIP-8" f = _ := hpaint ⟨259, 131⟩ (by decide)
    rw [hpaint]
    constructor
    · obtain hwhite | ⟨hout, -⟩ := (hcells 5 3 hpixel hlit).2 21 13 hinner
      · exact hwhite
      · exact absurd ((Grid.outlines_iff (g := g) hexact hpixel).mp hout).2 (by decide)
    · exact (hshown 20 12 (by decide) (by decide)).2.1.mpr ⟨5, 3, hpixel, hedge⟩

end ChipEight
