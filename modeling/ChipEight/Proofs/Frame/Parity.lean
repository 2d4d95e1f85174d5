import ChipEight.Frame
import Mathlib.Data.List.DropRight

/-!
A picture counts how often each of its pixels was flipped, up to parity. What was flipped when, and what else was
flipped in between, does not show in it.
-/

namespace ChipEight

inductive Stroke where
  | toggle (x y : UInt16)
  | clear
  deriving DecidableEq

namespace Stroke

/-- The stroke is a flip of the pixel at column `i` of row `j`. -/
def flips (i j : Nat) : Stroke → Bool
  | toggle x y => x.toNat = i ∧ y.toNat = j
  | clear => false

/-- How many of the strokes since the picture was last cleared flip the pixel at column `i` of row `j`. -/
def flipsSinceClear (strokes : List Stroke) (i j : Nat) : Nat := (strokes.rtakeWhile (· ≠ clear)).countP (flips i j)

theorem flipsSinceClear_clear (strokes : List Stroke) (i j : Nat) : flipsSinceClear (strokes ++ [clear]) i j = 0 := by
  simp [flipsSinceClear]

theorem flipsSinceClear_toggle (strokes : List Stroke) (x y : UInt16) (i j : Nat) :
    flipsSinceClear (strokes ++ [toggle x y]) i j =
      flipsSinceClear strokes i j + if x.toNat = i ∧ y.toNat = j then 1 else 0 := by
  simp [flipsSinceClear, List.countP_append, List.countP_singleton, flips]

theorem flipsSinceClear_of_not_mem {strokes : List Stroke} (h : clear ∉ strokes) (i j : Nat) :
    flipsSinceClear strokes i j = strokes.countP (flips i j) := by
  have hall : strokes.rtakeWhile (· ≠ clear) = strokes := by
    rw [List.rtakeWhile_eq_self_iff]
    intro s hs
    exact decide_eq_true (ne_of_mem_of_not_mem hs h)
  rw [flipsSinceClear, hall]

end Stroke

namespace Frame

open Stroke

def stroke (f : Frame) : Stroke → Frame
  | .toggle x y => (f.toggle x y).2
  | .clear => blank

def strokes (f : Frame) (strokes : List Stroke) : Frame := strokes.foldl stroke f

theorem strokes_snoc (f : Frame) (l : List Stroke) (s : Stroke) : f.strokes (l ++ [s]) = (f.strokes l).stroke s :=
  List.foldl_concat ..

theorem toggle_snd_of_not_onGrid {f : Frame} {x y : UInt16} (h : ¬ OnGrid x.toNat y.toNat) : (f.toggle x y).2 = f := by
  unfold toggle
  rw [dif_neg h]

theorem lit_strokes (f : Frame) (l : List Stroke) {i j : Nat} (h : OnGrid i j) :
    (f.strokes l).lit i j = (decide (.clear ∉ l) && f.lit i j ^^ decide (flipsSinceClear l i j % 2 = 1)) := by
  induction l using List.reverseRecOn with
  | nil => simp [strokes, flipsSinceClear]
  | append_singleton l s ih =>
      rw [strokes_snoc]
      cases s with
      | clear => simp [stroke, lit_blank, flipsSinceClear_clear]
      | toggle x y =>
          have hij : (OnGrid i j ∧ i = x.toNat ∧ j = y.toNat) ↔ (x.toNat = i ∧ y.toNat = j) :=
            ⟨fun ⟨_, hi, hj⟩ => ⟨hi.symm, hj.symm⟩, fun ⟨hi, hj⟩ => ⟨h, hi.symm, hj.symm⟩⟩
          rw [stroke, lit_toggle, ih, flipsSinceClear_toggle, decide_eq_decide.mpr hij]
          by_cases hxy : x.toNat = i ∧ y.toNat = j
          · rw [if_pos hxy, decide_eq_true hxy]
            rcases Nat.mod_two_eq_zero_or_one (flipsSinceClear l i j) with hn | hn
            · simp [hn, Nat.add_mod]
            · simp [hn, Nat.add_mod]
          · rw [if_neg hxy, decide_eq_false hxy]
            simp

theorem strokes_perm (f : Frame) {l l' : List Stroke} (hclear : .clear ∉ l) (h : l.Perm l') :
    f.strokes l' = f.strokes l := by
  have hclear' : .clear ∉ l' := fun hm => hclear (h.mem_iff.mpr hm)
  refine ext_lit fun i j hij => ?_
  rw [lit_strokes f l hij, lit_strokes f l' hij, flipsSinceClear_of_not_mem hclear, flipsSinceClear_of_not_mem hclear',
    h.countP_eq]
  simp [hclear, hclear']

/-- A picture that started blank shows, for each pixel, whether it was flipped an odd number of times since it was
last cleared. Flips off the grid are refused and change nothing, and no pixel there is ever lit. A flip puts a pixel
out if, with it, the number is even. Where nothing is cleared, the order of the flips does not matter. -/
theorem lit_eq_parity (l : List Stroke) :
    let f := blank.strokes l
    (∀ x y : UInt16, (f.toggle x y).1 = if x.toNat < 64 ∧ y.toNat < 32
      then .ok (decide (flipsSinceClear (l ++ [.toggle x y]) x.toNat y.toNat % 2 = 0)) else .error (.offGrid x y)) ∧
    (∀ x y : UInt16, ¬ (x.toNat < 64 ∧ y.toNat < 32) → (f.toggle x y).2 = f) ∧
    (∀ i j, (f.lit i j).toNat = if i < 64 ∧ j < 32 then flipsSinceClear l i j % 2 else 0) ∧
    (.clear ∉ l → ∀ l', l.Perm l' → blank.strokes l' = f) := by
  intro f
  have hlit : ∀ i j, OnGrid i j → f.lit i j = decide (flipsSinceClear l i j % 2 = 1) := by
    intro i j hij
    simp [f, lit_strokes blank l hij, lit_blank]
  refine ⟨?_, ?_, ?_, ?_⟩
  · intro x y
    rw [toggle_fst]
    split
    · rename_i hxy
      rw [hlit _ _ hxy, flipsSinceClear_toggle]
      congr 2
      simp
      omega
    · rfl
  · intro x y hxy
    exact toggle_snd_of_not_onGrid hxy
  · intro i j
    split
    · rename_i hij
      rw [hlit i j hij]
      rcases Nat.mod_two_eq_zero_or_one (flipsSinceClear l i j) with hn | hn
      · simp [hn]
      · simp [hn]
    · rename_i hij
      simp [lit_of_not_onGrid hij]
  · intro hclear l' hl
    exact strokes_perm blank hclear hl

end Frame

end ChipEight
