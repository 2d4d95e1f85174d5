import ChipEight.Frame
import Mathlib.Algebra.Ring.Nat
import Mathlib.Data.List.Nodup

/-!
The ways to look at a picture: pixel by pixel, as text, by how many pixels are lit, by whether any is. All of them are
read off the words of its rows, and they agree. The pixels and the text leave nothing out.
-/

namespace ChipEight

/-! ## Lists -/

/-- Rows of `n` things each, one after the other, counted through. -/
theorem flatMap_range_map {α : Type} (m n : Nat) (g : Nat → Nat → α) :
    ((List.range m).flatMap fun y => (List.range n).map fun x => g x y) =
      (List.range (m * n)).map fun i => g (i % n) (i / n) := by
  induction m with
  | zero => simp
  | succ m ih =>
      rw [List.range_succ, List.flatMap_append, ih, List.flatMap_singleton, Nat.succ_mul, List.range_add,
        List.map_append, List.map_map]
      refine congrArg _ (List.map_congr_left fun x hx => ?_)
      have hx : x < n := List.mem_range.mp hx
      have hn : 0 < n := Nat.zero_lt_of_lt hx
      simp only [Function.comp]
      rw [Nat.mul_comm m n, Nat.mul_add_mod, Nat.mul_add_div hn, Nat.mod_eq_of_lt hx, Nat.div_eq_of_lt hx, Nat.add_zero]

/-- A count goes up or down by one if the answer for one thing in the list turns into its opposite. -/
theorem countP_flip {l : List Nat} (hl : l.Nodup) {k : Nat} (hk : k ∈ l) {p q : Nat → Bool}
    (h : ∀ i ∈ l, q i = (p i ^^ decide (i = k))) :
    if p k then l.countP q + 1 = l.countP p else l.countP q = l.countP p + 1 := by
  have hperm := List.perm_cons_erase hk
  have hrest : (l.erase k).countP q = (l.erase k).countP p := by
    refine List.countP_congr fun i hi => ?_
    obtain ⟨hne, hi⟩ := hl.mem_erase_iff.mp hi
    simp [h i hi, hne]
  rw [hperm.countP_eq, hperm.countP_eq, List.countP_cons, List.countP_cons, hrest, h k hk]
  cases p k <;> simp

/-! ## Words -/

theorem leftpad_concat {α : Type} (w : Nat) (a c : α) (l : List α) :
    (l ++ [c]).leftpad (w + 1) a = l.leftpad w a ++ [c] := by
  simp [List.leftpad]

/-- Halving a number takes the last digit off its binary numeral. -/
theorem leftpad_toDigits_two_succ (w n : Nat) :
    (Nat.toDigits 2 n).leftpad (w + 2) '0' = (Nat.toDigits 2 (n / 2)).leftpad (w + 1) '0' ++ [(n % 2).digitChar] := by
  by_cases hn : n < 2
  · have hzero : (Nat.toDigits 2 0).leftpad (w + 1) '0' = [].leftpad (w + 1) '0' := by
      simp [List.leftpad, List.replicate_succ']
    rw [Nat.toDigits_of_lt_base hn, Nat.div_eq_of_lt hn, Nat.mod_eq_of_lt hn, hzero]
    exact leftpad_concat _ _ _ []
  · rw [Nat.toDigits_of_base_le (by decide) (Nat.le_of_not_lt hn), leftpad_concat]

/-- The digits of a binary numeral are the bits of the number, the most significant first. -/
theorem leftpad_toDigits_two {w n : Nat} (hn : n < 2 ^ (w + 1)) :
    (Nat.toDigits 2 n).leftpad (w + 1) '0' = (List.range (w + 1)).map fun x => if n.testBit (w - x) then '1' else '0' := by
  induction w generalizing n with
  | zero =>
      have hn : n < 2 := hn
      obtain rfl | rfl : n = 0 ∨ n = 1 := by omega
      · rfl
      · rfl
  | succ w ih =>
      rw [leftpad_toDigits_two_succ, ih (by omega), List.range_succ (n := w + 1), List.map_append, List.map_singleton]
      refine congrArg₂ _ (List.map_congr_left fun x hx => ?_) ?_
      · have hx : x < w + 1 := List.mem_range.mp hx
        rw [← Nat.testBit_succ, Nat.succ_sub (Nat.le_of_lt_succ hx)]
      · rw [Nat.sub_self, Nat.testBit_zero]
        obtain h | h := Nat.mod_two_eq_zero_or_one n
        · rw [h]; rfl
        · rw [h]; rfl

namespace Frame

theorem toList_rowText (row : BitVec 64) : (rowText row).toList = (Nat.toDigits 2 row.toNat).leftpad 64 '0' := by
  rw [rowText, String.toList_ofList, leftpad_toDigits_two row.isLt]
  refine List.map_congr_left fun x hx => ?_
  rw [BitVec.getMsbD_eq_getLsbD, BitVec.testBit_toNat, decide_eq_true (List.mem_range.mp hx), Bool.true_and]

theorem cpopNatRec_eq_countP {w : Nat} (row : BitVec w) (n : Nat) :
    row.cpopNatRec n 0 = (List.range n).countP row.getLsbD := by
  induction n with
  | zero => rfl
  | succ n ih =>
      rw [BitVec.cpopNatRec_succ, BitVec.cpopNatRec_add, ih, List.range_succ, List.countP_append, List.countP_singleton]
      cases row.getLsbD n <;> rfl

theorem rowCount_eq_cpop (row : BitVec 64) : rowCount row = row.cpop.toNat := by
  have hreverse : (List.range 64).reverse = (List.range 64).map fun x => 63 - x := by decide
  rw [BitVec.toNat_cpop, cpopNatRec_eq_countP, ← List.countP_reverse, hreverse, List.countP_map]
  refine List.countP_congr fun x hx => ?_
  rw [BitVec.getMsbD_eq_getLsbD, decide_eq_true (List.mem_range.mp hx), Bool.true_and]
  rfl

theorem toNat_lit (f : Frame) {x y : Nat} (hx : x < 64) (hy : y < 32) :
    (f.lit x y).toNat = ((f.rows[y] >>> (63 - x)).setWidth 8 &&& 1).toNat := by
  rw [lit, dif_pos hy, BitVec.getMsbD_eq_getLsbD, decide_eq_true hx, Bool.true_and, ← BitVec.testBit_toNat]
  rw [Nat.toNat_testBit, BitVec.toNat_and, BitVec.toNat_setWidth, BitVec.toNat_ushiftRight, Nat.shiftRight_eq_div_pow]
  generalize f.rows[y].toNat / 2 ^ (63 - x) = n
  have hone : (1 : BitVec 8).toNat = 1 := rfl
  rw [hone, Nat.and_one_is_mod]
  omega

/-! ## The whole picture -/

theorem map_rows {α : Type} {f : Frame} {g : BitVec 64 → α} {h : Nat → α} (hgh : ∀ y (hy : y < 32), g f.rows[y] = h y) :
    f.rows.toList.map g = (List.range 32).map h := by
  refine List.ext_getElem (by simp) fun y hy _ => ?_
  rw [List.length_map, Vector.length_toList] at hy
  simp [hgh y hy]

theorem pixels_eq (f : Frame) :
    f.pixels = (List.range (32 * 64)).map fun i => ⟨i % 64, i / 64, f.lit (i % 64) (i / 64)⟩ :=
  flatMap_range_map 32 64 fun x y => (⟨x, y, f.lit x y⟩ : Pixel)

/-! ### How many pixels are lit -/

theorem count_eq_countP_pixels (f : Frame) : f.count = f.pixels.countP (·.lit) := by
  have hrows : f.rows.toList.map rowCount = (List.range 32).map fun y => (List.range 64).countP (f.lit · y) := by
    refine map_rows fun y hy => ?_
    simp only [rowCount, lit, hy, dif_pos]
  rw [count, hrows, pixels, List.countP_flatMap]
  simp only [Function.comp_def, List.countP_map]
  rfl

theorem count_eq_sum_cpop (f : Frame) : f.count = (f.rows.toList.map fun row => row.cpop.toNat).sum := by
  rw [count, List.sum, List.map_congr_left fun row _ => rowCount_eq_cpop row]

theorem count_eq_countP (f : Frame) : f.count = (List.range (32 * 64)).countP fun i => f.lit (i % 64) (i / 64) := by
  rw [count_eq_countP_pixels, pixels_eq, List.countP_map]
  rfl

theorem count_eq_zero_iff (f : Frame) : f.count = 0 ↔ ∀ x y, f.lit x y = false := by
  rw [count_eq_countP, List.countP_eq_zero]
  constructor
  · intro h x y
    by_cases hxy : OnGrid x y
    · have hi : f.lit ((64 * y + x) % 64) ((64 * y + x) / 64) ≠ true := h _ (List.mem_range.mpr (by omega))
      rw [Nat.mul_add_mod, Nat.mul_add_div (by decide), Nat.mod_eq_of_lt hxy.1, Nat.div_eq_of_lt hxy.1] at hi
      exact Bool.eq_false_iff.mpr hi
    · exact lit_of_not_onGrid hxy
  · intro h i _
    exact Bool.eq_false_iff.mp (h _ _)

theorem isBlank_iff (f : Frame) : f.isBlank = true ↔ ∀ x y, f.lit x y = false := by
  rw [isBlank, Vector.all_eq_true]
  constructor
  · intro h x y
    unfold lit
    split
    · rename_i hy
      rw [eq_of_beq (h y hy)]
      exact BitVec.getMsbD_zero
    · rfl
  · intro h y hy
    refine beq_iff_eq.mpr (BitVec.eq_of_getMsbD_eq fun x _ => ?_)
    have hlit := h x y
    rw [lit, dif_pos hy] at hlit
    rw [hlit]
    exact BitVec.getMsbD_zero.symm

/-- A flip takes one pixel from the count if it puts that out, and adds one if not. -/
theorem count_toggle (f : Frame) {x y : UInt16} (h : OnGrid x.toNat y.toNat) :
    if f.lit x.toNat y.toNat then (f.toggle x y).2.count + 1 = f.count
    else (f.toggle x y).2.count = f.count + 1 := by
  obtain ⟨hx, hy⟩ := h
  have hmod : (64 * y.toNat + x.toNat) % 64 = x.toNat := by omega
  have hdiv : (64 * y.toNat + x.toNat) / 64 = y.toNat := by omega
  have hmem : 64 * y.toNat + x.toNat ∈ List.range (32 * 64) := List.mem_range.mpr (by omega)
  have hlit : ∀ i ∈ List.range (32 * 64), (f.toggle x y).2.lit (i % 64) (i / 64) =
      (f.lit (i % 64) (i / 64) ^^ decide (i = 64 * y.toNat + x.toNat)) := by
    intro i hi
    have hi := List.mem_range.mp hi
    rw [lit_toggle]
    congr 2
    exact propext ⟨by omega, by omega⟩
  have hflip := countP_flip List.nodup_range hmem (p := fun i => f.lit (i % 64) (i / 64)) hlit
  simp only [hmod, hdiv] at hflip
  rwa [count_eq_countP, count_eq_countP]

/-! ### What a picture reads -/

/-- The words of the rows as binary numerals of 64 digits. -/
def lines (f : Frame) : List (List Char) := f.rows.toList.map fun row => (Nat.toDigits 2 row.toNat).leftpad 64 '0'

theorem toList_text (f : Frame) : f.text.toList = f.lines.flatMap (· ++ ['\n']) := by
  simp only [text, String.toList_join, List.flatMap_map, String.toList_append, toList_rowText, lines]
  rfl

theorem lines_eq (f : Frame) :
    f.lines = (List.range 32).map fun y => (List.range 64).map fun x => if f.lit x y then '1' else '0' := by
  refine map_rows fun y hy => ?_
  rw [← toList_rowText, rowText, String.toList_ofList]
  simp only [lit, hy, dif_pos]

theorem toList_text_eq (f : Frame) : f.text.toList =
    (List.range (32 * 65)).map fun i => if i % 65 = 64 then '\n' else if f.lit (i % 65) (i / 65) then '1' else '0' := by
  rw [toList_text, lines_eq, ← flatMap_range_map 32 65 fun x y => if x = 64 then '\n' else if f.lit x y then '1' else '0',
    List.flatMap_map]
  refine List.flatMap_congr fun y _ => ?_
  rw [List.range_succ (n := 64), List.map_append]
  refine congrArg (· ++ _) (List.map_congr_left fun x hx => ?_)
  have hx : x < 64 := List.mem_range.mp hx
  rw [if_neg (Nat.ne_of_lt hx)]

theorem text_inj {f g : Frame} : f.text = g.text ↔ f = g := by
  constructor
  · intro h
    refine ext_lit fun x y ⟨hx, hy⟩ => ?_
    have hchars := congrArg String.toList h
    rw [toList_text_eq, toList_text_eq] at hchars
    have hchar := List.map_inj_left.mp hchars (65 * y + x) (List.mem_range.mpr (by omega))
    have hmod : (65 * y + x) % 65 = x := by omega
    have hdiv : (65 * y + x) / 65 = y := by omega
    simp only [hmod, hdiv, if_neg (Nat.ne_of_lt hx)] at hchar
    revert hchar
    cases f.lit x y <;> cases g.lit x y <;> simp
  · rintro rfl
    rfl

/-- The pixels of a picture come row by row from the top and each row from the left, every position once; a pixel is a
bit of the word of its row, and is lit if that is set. As text the picture is 32 lines of 64 characters, a line being
the word of its row as a binary numeral, and shows a one where a pixel is lit. The set bits of all words are the lit
pixels; a flip that puts a pixel out makes them one less, any other flip one more. There are none just if the picture
is blank. Pictures with the same pixels are the same, and so are pictures with the same text. -/
theorem views_agree (f g : Frame) :
    (∀ i, f.pixels[i]? = if i < 2048 then some ⟨i % 64, i / 64, f.lit (i % 64) (i / 64)⟩ else none) ∧
    (∀ x y, (hx : x < 64) → (hy : y < 32) → (f.lit x y).toNat = ((f.rows[y] >>> (63 - x)).setWidth 8 &&& 1).toNat) ∧
    (f.text.toList = f.lines.flatMap (· ++ ['\n']) ∧ f.lines.length = 32 ∧ (∀ line ∈ f.lines, line.length = 64) ∧
      ∀ x y, OnGrid x y → (f.lines[y]?.bind (·[x]?)) = some (if f.lit x y then '1' else '0')) ∧
    (f.count = f.pixels.countP (·.lit) ∧ f.count = (f.rows.toList.map fun row => row.cpop.toNat).sum) ∧
    (∀ x y, match f.toggle x y with
      | (.ok true, f') => f'.count + 1 = f.count
      | (.ok false, f') => f'.count = f.count + 1
      | (.error _, f') => f' = f) ∧
    ((f.isBlank = true ↔ f.count = 0) ∧ (f.count = 0 ↔ ∀ x y, f.lit x y = false)) ∧
    (f = g ↔ ∀ x y, OnGrid x y → f.lit x y = g.lit x y) ∧
    (f = g ↔ f.text = g.text) := by
  refine ⟨?_, fun x y hx hy => f.toNat_lit hx hy, ⟨f.toList_text, ?_, ?_, ?_⟩,
    ⟨f.count_eq_countP_pixels, f.count_eq_sum_cpop⟩, ?_, ⟨?_, f.count_eq_zero_iff⟩, ⟨?_, ext_lit⟩, text_inj.symm⟩
  · intro i
    rw [pixels_eq]
    split
    · rename_i hi
      simp [hi]
    · rename_i hi
      simp [hi]
  · simp [lines]
  · simp [lines_eq]
  · rintro x y ⟨hx, hy⟩
    simp [lines_eq, hx, hy]
  · intro x y
    have hanswer := f.toggle_fst x y
    by_cases hxy : OnGrid x.toNat y.toNat
    · have hcount := f.count_toggle hxy
      rw [if_pos hxy] at hanswer
      rcases htoggle : f.toggle x y with ⟨e | erased, f'⟩
      · rw [htoggle] at hanswer
        cases hanswer
      · rw [htoggle] at hanswer hcount
        rw [← Except.ok.inj hanswer] at hcount
        cases erased with
        | true => exact hcount
        | false => exact hcount
    · rw [toggle, dif_neg hxy]
  · rw [isBlank_iff, count_eq_zero_iff]
  · rintro rfl _ _ _
    rfl

end Frame

end ChipEight
