import ChipEight.Fault

/-!
One picture: 32 rows of 64 pixels. A row is a word whose most significant bit is column 0. Lighting a pixel
twice puts it out again.
-/

namespace ChipEight

structure Frame where
  rows : Vector (BitVec 64) 32
  deriving DecidableEq

structure Pixel where
  x : Nat
  y : Nat
  lit : Bool
  deriving DecidableEq, Repr

namespace Frame

abbrev OnGrid (x y : Nat) : Prop := x < 64 ∧ y < 32

def blank : Frame := ⟨Vector.replicate 32 0⟩

instance : Inhabited Frame := ⟨blank⟩

/-- The row in which only column `x` is lit. -/
def column (x : Nat) : BitVec 64 := BitVec.twoPow 64 (63 - x)

/-- Whether the pixel at column `x` of row `y` is lit; nothing off the grid is. -/
def lit (f : Frame) (x y : Nat) : Bool :=
  if h : y < 32 then f.rows[y].getMsbD x else false

/-- Flips one pixel. The answer tells whether that put it out. Off the grid nothing is flipped. -/
def toggle (f : Frame) (x y : UInt16) : Except ScreenFault Bool × Frame :=
  if h : OnGrid x.toNat y.toNat then
    let row := f.rows[y.toNat] ^^^ column x.toNat
    (.ok (!row.getMsbD x.toNat), ⟨f.rows.set y.toNat row⟩)
  else (.error (.offGrid x y), f)

/-! ## Views of the whole picture -/

def pixels (f : Frame) : List Pixel :=
  (List.range 32).flatMap fun y => (List.range 64).map fun x => ⟨x, y, f.lit x y⟩

def rowCount (row : BitVec 64) : Nat := (List.range 64).countP row.getMsbD

def count (f : Frame) : Nat := (f.rows.toList.map rowCount).foldr (· + ·) 0

def isBlank (f : Frame) : Bool := f.rows.all (· == 0)

def rowText (row : BitVec 64) : String :=
  String.ofList ((List.range 64).map fun x => if row.getMsbD x then '1' else '0')

def text (f : Frame) : String := String.join (f.rows.toList.map fun row => rowText row ++ "\n")

/-- A picture is its pixels. -/
theorem ext_lit {f g : Frame} (h : ∀ i j, OnGrid i j → f.lit i j = g.lit i j) : f = g := by
  obtain ⟨rows⟩ := f
  obtain ⟨rows'⟩ := g
  refine congrArg mk (Vector.ext fun j hj => BitVec.eq_of_getMsbD_eq fun i hi => ?_)
  simpa [lit, hj] using h i j ⟨hi, hj⟩

/-! ## What toggling does -/

theorem getMsbD_column {x : Nat} (hx : x < 64) (j : Nat) : (column x).getMsbD j = decide (j = x) := by
  simp only [column, BitVec.getMsbD_twoPow]
  by_cases h : j = x <;> simp [h] <;> omega

theorem lit_blank (x y : Nat) : blank.lit x y = false := by
  unfold lit blank
  split <;> simp [BitVec.getMsbD_zero]

theorem lit_of_not_onGrid {f : Frame} {x y : Nat} (h : ¬ OnGrid x y) : f.lit x y = false := by
  unfold lit
  split
  · rw [BitVec.getMsbD]
    simp only [Bool.and_eq_false_imp, decide_eq_true_eq]
    omega
  · rfl

/-- A flip puts out exactly a pixel that was lit. -/
theorem toggle_fst (f : Frame) (x y : UInt16) : (f.toggle x y).1 =
    if OnGrid x.toNat y.toNat then .ok (f.lit x.toNat y.toNat) else .error (.offGrid x y) := by
  unfold toggle
  split
  · rename_i h
    simp [lit, h.2, getMsbD_column h.1]
  · rfl

theorem lit_toggle (f : Frame) (x y : UInt16) (i j : Nat) : (f.toggle x y).2.lit i j =
    (f.lit i j ^^ decide (OnGrid i j ∧ i = x.toNat ∧ j = y.toNat)) := by
  unfold toggle
  split
  · rename_i h
    unfold lit
    by_cases hj : j < 32
    · by_cases hjy : j = y.toNat
      · subst hjy
        by_cases hi : i = x.toNat
        · subst hi
          simp [hj, h.1, getMsbD_column h.1]
        · simp [hj, hi, getMsbD_column h.1]
      · simp [hj, hjy, Vector.getElem_set_ne, Ne.symm hjy]
    · simp [hj]
  · rename_i h
    have : ¬ (OnGrid i j ∧ i = x.toNat ∧ j = y.toNat) := by
      rintro ⟨hij, rfl, rfl⟩
      exact h hij
    simp [this]

end Frame

end ChipEight
