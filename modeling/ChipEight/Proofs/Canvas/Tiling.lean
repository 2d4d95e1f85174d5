import ChipEight.Proofs.Canvas.Shown

/-!
When pixels have screen cells of their own. The spans of an axis meet where there is a cell for each line between
pixels, and then they share out all cells but the last; on a smaller canvas the first two pixels fall together.
-/

namespace ChipEight

/-! ## Spans that meet -/

section

variable {parts cells n c : Nat}

theorem mark_zero (parts cells : Nat) : mark parts cells 0 = 0 := by
  rw [mark, Nat.zero_mul, Nat.zero_div]

/-- With fewer cells than lines, the second line falls on the cell of the first. -/
theorem mark_one_of_lt (h : cells - 1 < parts) : mark parts cells 1 = 0 := by
  rw [mark, Nat.one_mul, Nat.div_eq_of_lt h]

theorem mark_parts (hparts : 0 < parts) : mark parts cells parts = cells - 1 :=
  Nat.mul_div_cancel_left _ hparts

/-- Each span ends right before the next one begins. -/
theorem spanOf_succ (hparts : 0 < parts) (h : parts ≤ cells - 1) (n : Nat) :
    spanOf parts cells n + 1 = mark parts cells (n + 1) := by
  have hfirst := mark_lt_mark_succ hparts h n
  rw [spanOf, spanEnd, if_pos hfirst]
  omega

/-- A cell before a line lies between two neighbouring lines: the search goes down from the last one. -/
theorem exists_between_marks (h : c < mark parts cells n) :
    ∃ k < n, mark parts cells k ≤ c ∧ c < mark parts cells (k + 1) := by
  induction n with
  | zero =>
      rw [mark_zero] at h
      omega
  | succ n ih =>
      by_cases hc : c < mark parts cells n
      · obtain ⟨k, hk, hbetween⟩ := ih hc
        exact ⟨k, Nat.lt_succ_of_lt hk, hbetween⟩
      · exact ⟨n, Nat.lt_succ_self n, Nat.le_of_not_lt hc, h⟩

/-- Spans that meet leave no cell out but the last. -/
theorem exists_span (hparts : 0 < parts) (h : parts ≤ cells - 1) (hc : c + 1 < cells) :
    ∃ n < parts, mark parts cells n ≤ c ∧ c ≤ spanOf parts cells n := by
  have hlast : c < mark parts cells parts := by
    rw [mark_parts hparts]
    omega
  obtain ⟨n, hn, hfirst, hnext⟩ := exists_between_marks hlast
  have hend := spanOf_succ hparts h n
  exact ⟨n, hn, hfirst, by omega⟩

theorem lt_of_le_spanOf (hparts : 0 < parts) (h : parts ≤ cells - 1) (hn : n < parts) (hc : c ≤ spanOf parts cells n) :
    c + 1 < cells := by
  have hend := spanOf_succ hparts h n
  have hlast : mark parts cells (n + 1) ≤ cells - 1 := mark_le hn
  omega

end

/-! ## Pixels that meet -/

namespace Grid

/-- The cells that drawing a square colours. -/
def touched (g : Grid) (s : Square) : List (Nat × Nat) := (g.dabs s).map fun d => (d.x, d.y)

variable {g : Grid} {i j i' j' x y : Nat}

theorem touched_of_rect {s : Square} {r : Rect} (h : g.rect? s = some r) : g.touched s = r.cells := by
  rw [touched, dabs, h]
  simp [Function.comp_def]

theorem touched_ofPixel (hexact : g.Exact) (hij : Frame.OnGrid i j) (lit : Bool) :
    g.touched (.ofPixel g.scale i j lit) = (g.pixelRect i j).cells :=
  touched_of_rect (rect?_ofPixel hexact hij.1 hij.2 lit)

theorem Ample.exists_pixel (h : g.Ample) (hx : x + 1 < g.width) (hy : y + 1 < g.height) :
    ∃ i j, Frame.OnGrid i j ∧ (x, y) ∈ (g.pixelRect i j).cells := by
  obtain ⟨i, hi, hcolumn⟩ := exists_span (by decide) h.1 hx
  obtain ⟨j, hj, hrow⟩ := exists_span (by decide) h.2 hy
  exact ⟨i, j, ⟨hi, hj⟩, Rect.mem_cells.mpr ⟨hcolumn, hrow⟩⟩

theorem Ample.lt_of_mem (h : g.Ample) (hij : Frame.OnGrid i j) (hc : (x, y) ∈ (g.pixelRect i j).cells) :
    x + 1 < g.width ∧ y + 1 < g.height := by
  obtain ⟨⟨-, hx⟩, -, hy⟩ := Rect.mem_cells.mp hc
  exact ⟨lt_of_le_spanOf (by decide) h.1 hij.1 hx, lt_of_le_spanOf (by decide) h.2 hij.2 hy⟩

theorem Ample.column_lt (h : g.Ample) (hi : i < i') {c c' : Nat × Nat} (hc : c ∈ (g.pixelRect i j).cells)
    (hc' : c' ∈ (g.pixelRect i' j').cells) : c.1 < c'.1 := by
  obtain ⟨⟨-, hright⟩, -⟩ := Rect.mem_cells.mp hc
  obtain ⟨⟨hleft, -⟩, -⟩ := Rect.mem_cells.mp hc'
  exact Nat.lt_of_le_of_lt hright (Nat.lt_of_lt_of_le (spanOf_lt_mark (by decide) h.1 hi) hleft)

theorem Ample.row_lt (h : g.Ample) (hj : j < j') {c c' : Nat × Nat} (hc : c ∈ (g.pixelRect i j).cells)
    (hc' : c' ∈ (g.pixelRect i' j').cells) : c.2 < c'.2 := by
  obtain ⟨-, -, hbottom⟩ := Rect.mem_cells.mp hc
  obtain ⟨-, htop, -⟩ := Rect.mem_cells.mp hc'
  exact Nat.lt_of_le_of_lt hbottom (Nat.lt_of_lt_of_le (spanOf_lt_mark (by decide) h.2 hj) htop)

/-- The first pixel lies in the corner of the canvas, and so does any other whose lines fall together with its own. -/
theorem corner_mem_of_marks (hi : mark 64 g.width i = 0) (hj : mark 32 g.height j = 0) :
    (0, 0) ∈ (g.pixelRect i j).cells := by
  have hcorner := g.corner_mem_cells i j
  simp only [pixelRect, hi, hj] at hcorner ⊢
  exact hcorner

theorem ample_of_apart (h : ∀ i j i' j', Frame.OnGrid i j → Frame.OnGrid i' j' → (i, j) ≠ (i', j') →
    (g.pixelRect i j).cells.Disjoint (g.pixelRect i' j').cells) : g.Ample := by
  have hfirst : (0, 0) ∈ (g.pixelRect 0 0).cells := corner_mem_of_marks (mark_zero _ _) (mark_zero _ _)
  constructor
  · by_contra hfew
    have hbeside : (0, 0) ∈ (g.pixelRect 1 0).cells :=
      corner_mem_of_marks (mark_one_of_lt (Nat.lt_of_not_le hfew)) (mark_zero _ _)
    exact h 0 0 1 0 (by decide) (by decide) (by decide) hfirst hbeside
  · by_contra hfew
    have hbelow : (0, 0) ∈ (g.pixelRect 0 1).cells :=
      corner_mem_of_marks (mark_zero _ _) (mark_one_of_lt (Nat.lt_of_not_le hfew))
    exact h 0 0 0 1 (by decide) (by decide) (by decide) hfirst hbelow

end Grid

/-- At every size and scale the pixels of a frame are drawn as rectangles. They have no cells in common just if there
is a cell for each line between pixels, those at both ends included: 64 by 32 cells are too few. Then they share out
all cells but those of the last column and the last row, and lie side by side in the order of the pixels. -/
theorem pixels_apart_iff (w h : Nat) (scale : UInt16) (f : Frame) :
    let g : Grid := ⟨⟨w, h⟩, scale.toNat⟩
    let square (i j : Nat) := Square.ofPixel scale.toNat i j (f.lit i j)
    let cells (i j : Nat) := g.touched (square i j)
    (∀ i j, Frame.OnGrid i j →
      ∃ r ∈ g.rect? (square i j), cells i j = r.cells ∧ r.left ≤ r.right ∧ r.top ≤ r.bottom) ∧
    ((∀ i j i' j', Frame.OnGrid i j → Frame.OnGrid i' j' → (i, j) ≠ (i', j') → (cells i j).Disjoint (cells i' j')) ↔
      65 ≤ w ∧ 33 ≤ h) ∧
    (65 ≤ w ∧ 33 ≤ h →
      (∀ i j, Frame.OnGrid i j → ∀ c ∈ cells i j, c.1 + 1 < w ∧ c.2 + 1 < h) ∧
      (∀ x y, x + 1 < w → y + 1 < h → ∃! p : Nat × Nat, Frame.OnGrid p.1 p.2 ∧ (x, y) ∈ cells p.1 p.2) ∧
      (∀ i j, Frame.OnGrid (i + 1) j → ∀ c ∈ cells i j, ∀ c' ∈ cells (i + 1) j, c.1 < c'.1) ∧
      ∀ i j, Frame.OnGrid i (j + 1) → ∀ c ∈ cells i j, ∀ c' ∈ cells i (j + 1), c.2 < c'.2) := by
  intro g square cells
  have hexact : g.Exact := Grid.exact_of_lt scale.toNat_lt
  have hample : g.Ample ↔ 65 ≤ w ∧ 33 ≤ h := by
    simp only [Grid.Ample, g]
    omega
  have hcells : ∀ {i j}, Frame.OnGrid i j → cells i j = (g.pixelRect i j).cells := fun hij =>
    Grid.touched_ofPixel hexact hij _
  refine ⟨?_, ⟨?_, ?_⟩, fun hroom => ?_⟩
  · intro i j hij
    exact ⟨_, Grid.rect?_ofPixel hexact hij.1 hij.2 _, hcells hij, le_spanEnd _ _, le_spanEnd _ _⟩
  · intro hapart
    refine hample.mp (Grid.ample_of_apart fun i j i' j' hij hij' hne => ?_)
    rw [← hcells hij, ← hcells hij']
    exact hapart i j i' j' hij hij' hne
  · intro hroom i j i' j' hij hij' hne c hc hc'
    rw [hcells hij] at hc
    rw [hcells hij'] at hc'
    obtain ⟨rfl, rfl⟩ := (hample.mpr hroom).pixel_eq hc hc'
    exact hne rfl
  · have hroom : g.Ample := hample.mpr hroom
    refine ⟨?_, ?_, ?_, ?_⟩
    · intro i j hij c hc
      rw [hcells hij] at hc
      exact hroom.lt_of_mem hij hc
    · intro x y hx hy
      obtain ⟨i, j, hij, hmem⟩ := hroom.exists_pixel hx hy
      refine ⟨(i, j), ⟨hij, hcells hij ▸ hmem⟩, ?_⟩
      rintro ⟨i', j'⟩ ⟨hij', hmem'⟩
      rw [hcells hij'] at hmem'
      obtain ⟨rfl, rfl⟩ := hroom.pixel_eq hmem' hmem
      rfl
    · intro i j hij c hc c' hc'
      have hleft : Frame.OnGrid i j := ⟨Nat.lt_of_succ_lt hij.1, hij.2⟩
      rw [hcells hleft] at hc
      rw [hcells hij] at hc'
      exact hroom.column_lt (Nat.lt_succ_self i) hc hc'
    · intro i j hij c hc c' hc'
      have habove : Frame.OnGrid i j := ⟨hij.1, Nat.lt_of_succ_lt hij.2⟩
      rw [hcells habove] at hc
      rw [hcells hij] at hc'
      exact hroom.row_lt (Nat.lt_succ_self j) hc hc'

/-- On as many cells as there are pixels, the first two pixels are the same cell. -/
example : (⟨⟨64, 32⟩, 20⟩ : Grid).touched (.ofPixel 20 0 0 true) = [(0, 0)] ∧
    (⟨⟨64, 32⟩, 20⟩ : Grid).touched (.ofPixel 20 1 0 true) = [(0, 0)] := by decide

end ChipEight
