import ChipEight.Canvas.Geometry

/-!
Which cells each pixel covers. The lines between pixels fall on cells that depend on the number of cells alone: the
scale cancels. Either the lines of an axis fall on different cells, and then its spans lie side by side, or no span is
longer than a single cell.
-/

namespace ChipEight

/-! ## Spans along an axis -/

/-- The cell that the line before part `n` falls on, when `cells` cells show `parts` parts. -/
def mark (parts cells n : Nat) : Nat := n * (cells - 1) / parts

section

variable {parts cells n n' : Nat}

theorem mark_succ (parts cells n : Nat) : mark parts cells (n + 1) = (n * (cells - 1) + (cells - 1)) / parts := by
  rw [mark, Nat.succ_mul]

theorem mark_le_mark (h : n ≤ n') : mark parts cells n ≤ mark parts cells n' :=
  Nat.div_le_div_right (Nat.mul_le_mul_right _ h)

theorem mark_le (h : n ≤ parts) : mark parts cells n ≤ cells - 1 :=
  Nat.div_le_of_le_mul (Nat.mul_le_mul_right _ h)

theorem mark_lt_mark_succ (hparts : 0 < parts) (h : parts ≤ cells - 1) (n : Nat) :
    mark parts cells n < mark parts cells (n + 1) := by
  rw [mark_succ, Nat.lt_iff_add_one_le, mark, ← Nat.add_div_right _ hparts]
  exact Nat.div_le_div_right (Nat.add_le_add_left h _)

theorem mark_succ_le (hparts : 0 < parts) (h : cells - 1 ≤ parts) (n : Nat) :
    mark parts cells (n + 1) ≤ mark parts cells n + 1 := by
  rw [mark_succ, mark, ← Nat.add_div_right _ hparts]
  exact Nat.div_le_div_right (Nat.add_le_add_left h _)

theorem le_spanEnd (first next : Nat) : first ≤ spanEnd first next := by
  unfold spanEnd
  split <;> omega

theorem spanEnd_le (first next : Nat) : spanEnd first next ≤ max first (next - 1) := by
  unfold spanEnd
  split <;> omega

/-- The last cell of part `n`. -/
def spanOf (parts cells n : Nat) : Nat := spanEnd (mark parts cells n) (mark parts cells (n + 1))

theorem spanOf_lt (hcells : 0 < cells) (h : n < parts) : spanOf parts cells n < cells := by
  have hend := spanEnd_le (mark parts cells n) (mark parts cells (n + 1))
  have hfirst : mark parts cells n ≤ cells - 1 := mark_le (Nat.le_of_lt h)
  have hnext : mark parts cells (n + 1) ≤ cells - 1 := mark_le h
  unfold spanOf
  omega

/-- Where there is a cell for every line, spans lie side by side. -/
theorem spanOf_lt_mark (hparts : 0 < parts) (h : parts ≤ cells - 1) (hn : n < n') :
    spanOf parts cells n < mark parts cells n' := by
  have hfirst := mark_lt_mark_succ hparts h n
  have hnext : mark parts cells (n + 1) ≤ mark parts cells n' := mark_le_mark hn
  rw [spanOf, spanEnd, if_pos hfirst]
  omega

theorem eq_of_mem_spans {c : Nat} (hparts : 0 < parts) (h : parts ≤ cells - 1)
    (hn : mark parts cells n ≤ c ∧ c ≤ spanOf parts cells n)
    (hn' : mark parts cells n' ≤ c ∧ c ≤ spanOf parts cells n') : n = n' := by
  rcases Nat.lt_trichotomy n n' with hlt | heq | hlt
  · have := spanOf_lt_mark hparts h hlt
    omega
  · exact heq
  · have := spanOf_lt_mark hparts h hlt
    omega

/-- A span of more than one cell tells that there is a cell for every line. -/
theorem le_of_mark_lt_spanOf (hparts : 0 < parts) (h : mark parts cells n < spanOf parts cells n) :
    parts ≤ cells - 1 := by
  rcases Nat.le_total parts (cells - 1) with hmany | hfew
  · exact hmany
  · have hnext := mark_succ_le hparts hfew n
    have hend := spanEnd_le (mark parts cells n) (mark parts cells (n + 1))
    unfold spanOf at h
    omega

end

/-! ## Rectangles -/

theorem Rect.mem_cells {r : Rect} {x y : Nat} :
    (x, y) ∈ r.cells ↔ (r.left ≤ x ∧ x ≤ r.right) ∧ r.top ≤ y ∧ y ≤ r.bottom := by
  simp only [cells, rows, columns, List.mem_flatMap, List.mem_map, List.mem_range'_1, Prod.mk.injEq]
  constructor
  · rintro ⟨y', hy, x', hx, rfl, rfl⟩
    omega
  · intro h
    exact ⟨y, by omega, x, by omega, rfl, rfl⟩

theorem Rect.isRoomy_iff {r : Rect} : r.isRoomy = true ↔ r.left + 2 ≤ r.right ∧ r.top + 2 ≤ r.bottom := by
  simp [isRoomy]

theorem Rect.onEdge_iff {r : Rect} {x y : Nat} :
    r.onEdge x y = true ↔ x = r.left ∨ x = r.right ∨ y = r.top ∨ y = r.bottom := by
  simp [onEdge, or_assoc]

theorem side_pos (scale : Nat) : 0 < side scale := Nat.le_max_right scale 1

namespace Grid

/-- The cells that the pixel in column `i` of row `j` covers, lit or not. -/
def pixelRect (g : Grid) (i j : Nat) : Rect :=
  ⟨mark 64 g.width i, mark 32 g.height j, spanOf 64 g.width i, spanOf 32 g.height j⟩

variable {g : Grid}

/-- The cell that shows a point, and whether there is one, does not depend on the scale if the point is given in pixels.
The edges lie inside at every scale. -/
theorem cell?_mul_side (g : Grid) (x y : Int) : g.cell? (x * side g.scale) (y * side g.scale) =
    if 0 ≤ x ∧ x ≤ 64 ∧ -32 ≤ y ∧ y ≤ 0 then some (mark 64 g.width x.toNat, mark 32 g.height (-y).toNat) else none := by
  have hside : (0 : Int) < side g.scale := Int.natCast_pos.mpr (side_pos g.scale)
  have hinside : (0 ≤ x * side g.scale ∧ x * side g.scale ≤ canvasWidth g.scale ∧
      -canvasHeight g.scale ≤ y * side g.scale ∧ y * side g.scale ≤ 0) ↔ 0 ≤ x ∧ x ≤ 64 ∧ -32 ≤ y ∧ y ≤ 0 := by
    have hbottom : -(canvasHeight g.scale : Int) = -32 * side g.scale := by
      rw [canvasHeight, Int.natCast_mul, Int.neg_mul]
      rfl
    have htop : y * side g.scale ≤ 0 * side g.scale ↔ y ≤ 0 := Int.mul_le_mul_right hside
    rw [Int.zero_mul] at htop
    rw [Int.mul_nonneg_iff_of_pos_right hside, canvasWidth, Int.natCast_mul, Int.mul_le_mul_right hside, hbottom,
      Int.mul_le_mul_right hside, htop]
    rfl
  unfold cell?
  simp only [hinside]
  split
  · rename_i h
    have hup : 0 ≤ -y := Int.neg_nonneg.mpr h.2.2.2
    rw [← Int.neg_mul, Int.toNat_mul h.1 (Int.le_of_lt hside), Int.toNat_mul hup (Int.le_of_lt hside),
      Int.toNat_natCast, Nat.mul_right_comm, Nat.mul_right_comm (-y).toNat, canvasWidth, canvasHeight,
      Nat.mul_div_mul_right _ _ (side_pos _), Nat.mul_div_mul_right _ _ (side_pos _)]
    rfl
  · rfl

theorem cell?_corner (g : Grid) {i j : Nat} (hi : i ≤ 64) (hj : j ≤ 32) :
    g.cell? ↑(i * side g.scale) (-↑(j * side g.scale)) = some (mark 64 g.width i, mark 32 g.height j) := by
  have hcell := g.cell?_mul_side i (-j)
  rw [if_pos (by omega), Int.neg_neg, Int.toNat_natCast, Int.toNat_natCast] at hcell
  rw [Int.natCast_mul, Int.natCast_mul, ← Int.neg_mul]
  exact hcell

/-- Every coordinate of the canvas has few enough bits to be exact. -/
def Exact (g : Grid) : Prop := 64 * side g.scale < 1 <<< 53

theorem exact_of_lt (h : g.scale < UInt16.size) : g.Exact := by
  have hscale : g.scale < 65536 := h
  unfold Exact side
  omega

theorem rect?_ofPixel (hexact : g.Exact) {i j : Nat} (hi : i < 64) (hj : j < 32) (lit : Bool) :
    g.rect? (.ofPixel g.scale i j lit) = some (g.pixelRect i j) := by
  have hline : ∀ n ≤ 64, lineAt g.scale n = n * side g.scale := fun n hn =>
    lineAt_of_lt (Nat.lt_of_le_of_lt (Nat.mul_le_mul_right _ hn) hexact)
  have hcorner := g.cell?_corner (Nat.le_of_lt hi) (Nat.le_of_lt hj)
  have hopposite := g.cell?_corner (Nat.succ_le_of_lt hi) (Nat.succ_le_of_lt hj)
  have hleft : (Square.ofPixel g.scale i j lit).left = ↑(i * side g.scale) := by
    simp only [Square.ofPixel, hline i (Nat.le_of_lt hi)]
  have hbottom : (Square.ofPixel g.scale i j lit).bottom = -↑((j + 1) * side g.scale) := by
    simp only [Square.ofPixel, hline (j + 1) (by omega)]
  have htop : -↑((j + 1) * side g.scale) + (side g.scale : Int) = -↑(j * side g.scale) := by
    rw [Nat.succ_mul]
    omega
  have hright : (↑(i * side g.scale) : Int) + side g.scale = ↑((i + 1) * side g.scale) := by
    rw [Nat.succ_mul]
    omega
  have hsize : (Square.ofPixel g.scale i j lit).size = side g.scale := rfl
  rw [rect?, hleft, hbottom, hsize, htop, hright, hcorner, hopposite]
  rfl

/-- There is a cell for each line between pixels, those at both ends included. -/
def Ample (g : Grid) : Prop := 64 ≤ g.width - 1 ∧ 32 ≤ g.height - 1

theorem ample_of_isRoomy {i j : Nat} (h : (g.pixelRect i j).isRoomy = true) : g.Ample := by
  obtain ⟨hwide, hhigh⟩ := Rect.isRoomy_iff.mp h
  exact ⟨le_of_mark_lt_spanOf (by decide) (Nat.lt_of_lt_of_le (Nat.lt_add_of_pos_right (by decide)) hwide),
    le_of_mark_lt_spanOf (by decide) (Nat.lt_of_lt_of_le (Nat.lt_add_of_pos_right (by decide)) hhigh)⟩

/-- With a cell for each line, no two pixels share a cell. -/
theorem Ample.pixel_eq (h : g.Ample) {i j i' j' : Nat} {c : Nat × Nat} (hc : c ∈ (g.pixelRect i j).cells)
    (hc' : c ∈ (g.pixelRect i' j').cells) : i = i' ∧ j = j' := by
  obtain ⟨hx, hy⟩ := Rect.mem_cells.mp hc
  obtain ⟨hx', hy'⟩ := Rect.mem_cells.mp hc'
  exact ⟨eq_of_mem_spans (by decide) h.1 hx hx', eq_of_mem_spans (by decide) h.2 hy hy'⟩

theorem corner_mem_cells (g : Grid) (i j : Nat) :
    ((g.pixelRect i j).left, (g.pixelRect i j).top) ∈ (g.pixelRect i j).cells :=
  Rect.mem_cells.mpr ⟨⟨Nat.le_refl _, le_spanEnd _ _⟩, Nat.le_refl _, le_spanEnd _ _⟩

theorem lt_of_mem_cells (hw : 0 < g.width) (hh : 0 < g.height) {i j x y : Nat} (hi : i < 64) (hj : j < 32)
    (h : (x, y) ∈ (g.pixelRect i j).cells) : x < g.width ∧ y < g.height := by
  obtain ⟨⟨-, hx⟩, -, hy⟩ := Rect.mem_cells.mp h
  exact ⟨Nat.lt_of_le_of_lt hx (spanOf_lt hw hi), Nat.lt_of_le_of_lt hy (spanOf_lt hh hj)⟩

end Grid

end ChipEight
