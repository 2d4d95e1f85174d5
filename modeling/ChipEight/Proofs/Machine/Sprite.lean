import ChipEight.Proofs.Machine.Edges
import Mathlib.Data.List.Nodup

/-!
A sprite by its bits: which of them are set, as memory holds them, and where on the grid each of them falls.
-/

namespace ChipEight

/-- Column and row as numbers. -/
def coords (target : UInt16 × UInt16) : Nat × Nat := (target.1.toNat, target.2.toNat)

/-- What the rule makes of a column and a row. -/
def EdgeRule.spot : EdgeRule → Nat × Nat → Nat × Nat
  | keep, p => p
  | wrap, (x, y) => (x % 64, y % 32)

theorem EdgeRule.coords_place (edge : EdgeRule) (target : UInt16 × UInt16) :
    coords (edge.place target) = edge.spot (coords target) := by
  cases edge with
  | keep => rfl
  | wrap =>
      simp only [coords, place, spot, UInt16.toNat_mod]
      rfl

theorem toNat_add_toUInt16 (b : UInt8) {n : Nat} (h : n < 16) : (b.toUInt16 + n.toUInt16).toNat = b.toNat + n := by
  have hb := b.toNat_lt
  have hn : n.toUInt16.toNat = n := Nat.mod_eq_of_lt (by omega)
  rw [UInt16.toNat_add, UInt8.toNat_toUInt16, hn]
  omega

namespace Machine

variable {σ : Type} {m : Machine σ} {x y : Register} {rows : Fin 16} {sprite : List UInt8}

/-- The byte at I + `r`, as long as that lies in memory. -/
def spriteByte (m : Machine σ) (r : Nat) : UInt8 :=
  m.ram.bytes ⟨(m.index.toNat + r) % 4096, Nat.mod_lt _ (by decide)⟩

/-- Bit `c` from the left of row `r` of the sprite at I. -/
def spriteBit (m : Machine σ) (rows : Fin 16) (c r : Nat) : Bool :=
  decide (c < 8 ∧ r < rows) && (m.spriteByte r).toNat.testBit (7 - c)

/-- Column and row of every set bit of the sprite at I, row by row from the left. -/
def setBits (m : Machine σ) (rows : Fin 16) : List (Nat × Nat) :=
  (List.range rows).flatMap fun r => ((List.range 8).filter (m.spriteBit rows · r)).map fun c => (c, r)

/-- Where the set bit in column `c` of row `r` falls when the corner of the sprite is at V`x`, V`y`. -/
def spot (m : Machine σ) (x y : Register) (bit : Nat × Nat) : Nat × Nat :=
  m.rules.edge.spot ((m.v.get x).toNat + bit.1, (m.v.get y).toNat + bit.2)

/-- Where the set bits fall, in the order in which they are drawn. -/
def spots (m : Machine σ) (x y : Register) (rows : Fin 16) : List (Nat × Nat) := (m.setBits rows).map (m.spot x y)

/-! ## The set bits -/

theorem mem_setBits {c r : Nat} : (c, r) ∈ m.setBits rows ↔ m.spriteBit rows c r = true := by
  simp only [setBits, List.mem_flatMap, List.mem_map, List.mem_filter, List.mem_range, Prod.mk.injEq]
  constructor
  · rintro ⟨r', -, c', ⟨-, hbit⟩, rfl, rfl⟩
    exact hbit
  · intro hbit
    have hin : c < 8 ∧ r < rows := of_decide_eq_true (Bool.and_eq_true_iff.mp hbit).1
    exact ⟨r, hin.2, c, ⟨hin.1, hbit⟩, rfl, rfl⟩

theorem lt_of_mem_setBits {bit : Nat × Nat} (h : bit ∈ m.setBits rows) : bit.1 < 8 ∧ bit.2 < rows :=
  of_decide_eq_true (Bool.and_eq_true_iff.mp (mem_setBits.mp h)).1

theorem nodup_setBits (m : Machine σ) (rows : Fin 16) : (m.setBits rows).Nodup := by
  refine List.nodup_flatMap.mpr ⟨fun r _ => ?_, ?_⟩
  · exact (List.nodup_range.filter _).map fun c c' h => congrArg Prod.fst h
  · refine List.nodup_range.imp fun {r r'} hne => ?_
    rintro bit hr hr'
    obtain ⟨c, -, rfl⟩ := List.mem_map.mp hr
    obtain ⟨c', -, h⟩ := List.mem_map.mp hr'
    exact hne (congrArg Prod.snd h).symm

theorem slice?_of_fits (h : Ram.Fits m.index rows) : ∃ sprite, m.ram.slice? m.index rows = some sprite := by
  cases hs : m.ram.slice? m.index rows with
  | none => exact absurd h (Ram.slice?_eq_none_iff.mp hs)
  | some sprite => exact ⟨sprite, rfl⟩

theorem zipIdx_of_slice? (h : m.ram.slice? m.index rows = some sprite) :
    sprite.zipIdx = (List.range rows).map fun r => (m.spriteByte r, r) := by
  unfold Ram.slice? at h
  split at h
  · rename_i hfits
    cases h
    refine List.ext_getElem (by simp) fun r hr hr' => ?_
    have hlt : r < rows := by simpa using hr'
    have hbyte : m.spriteByte r = m.ram.bytes ⟨m.index.toNat + r, by omega⟩ :=
      congrArg m.ram.bytes (Fin.ext (Nat.mod_eq_of_lt (by omega)))
    simp [hbyte]
  · cases h

theorem spriteCells_of_slice? (h : m.ram.slice? m.index rows = some sprite) : spriteCells sprite = m.setBits rows := by
  rw [spriteCells, zipIdx_of_slice? h, List.flatMap_map, setBits]
  refine List.flatMap_congr fun r hr => ?_
  have hr : r < rows := List.mem_range.mp hr
  refine congrArg (List.map fun c => (c, r)) (List.filter_congr fun c hc => ?_)
  have hc : c < 8 := List.mem_range.mp hc
  simp [spriteBit, BitVec.getMsbD, BitVec.getLsbD, hc, hr]

/-! ## Where they fall -/

theorem map_coords_targets (h : m.ram.slice? m.index rows = some sprite) :
    (m.targets x y sprite).map coords = m.spots x y rows := by
  rw [targets, spriteTargets, spriteCells_of_slice? h, spots, List.map_map, List.map_map]
  refine List.map_congr_left fun bit hbit => ?_
  obtain ⟨hc, hr⟩ := lt_of_mem_setBits hbit
  have hx := toNat_add_toUInt16 (m.v.get x) (show bit.1 < 16 by omega)
  have hy := toNat_add_toUInt16 (m.v.get y) (show bit.2 < 16 by omega)
  rw [Function.comp_apply, Function.comp_apply, EdgeRule.coords_place, coords, hx, hy, spot]

/-- A sprite is too small to fall on itself, even when its edges are wrapped. -/
theorem nodup_spots (m : Machine σ) (x y : Register) (rows : Fin 16) : (m.spots x y rows).Nodup := by
  refine List.Nodup.map_on ?_ (m.nodup_setBits rows)
  intro bit hbit bit' hbit' heq
  obtain ⟨hc, hr⟩ := lt_of_mem_setBits hbit
  obtain ⟨hc', hr'⟩ := lt_of_mem_setBits hbit'
  unfold spot at heq
  cases hedge : m.rules.edge with
  | keep =>
      simp only [hedge, EdgeRule.spot, Prod.mk.injEq] at heq
      exact Prod.ext (by omega) (by omega)
  | wrap =>
      simp only [hedge, EdgeRule.spot, Prod.mk.injEq] at heq
      exact Prod.ext (by omega) (by omega)

theorem spots_keep (hedge : m.rules.edge = .keep) (x y : Register) (rows : Fin 16) : m.spots x y rows =
    (m.setBits rows).map fun (c, r) => ((m.v.get x).toNat + c, (m.v.get y).toNat + r) := by
  refine List.map_congr_left fun bit _ => ?_
  rw [spot, hedge]
  rfl

/-- Of a wrapped sprite, the bit that falls on a pixel is found by counting back from there to the corner. -/
theorem mem_spots_wrap (hedge : m.rules.edge = .wrap) {i j : Nat} (h : Frame.OnGrid i j) : (i, j) ∈ m.spots x y rows ↔
    m.spriteBit rows (((i : Int) - (m.v.get x).toNat) % 64).toNat (((j : Int) - (m.v.get y).toNat) % 32).toNat := by
  obtain ⟨hi, hj⟩ := h
  rw [← mem_setBits, spots, List.mem_map]
  simp only [spot, hedge, EdgeRule.spot, Prod.mk.injEq]
  constructor
  · rintro ⟨⟨c, r⟩, hbit, hx, hy⟩
    obtain ⟨hc, hr⟩ := lt_of_mem_setBits hbit
    have hcol : (((i : Int) - (m.v.get x).toNat) % 64).toNat = c := by omega
    have hrow : (((j : Int) - (m.v.get y).toNat) % 32).toNat = r := by omega
    rwa [hcol, hrow]
  · intro hbit
    exact ⟨_, hbit, by simp only; omega, by simp only; omega⟩

theorem onGrid_of_wrap (hedge : m.rules.edge = .wrap) {p : Nat × Nat} (h : p ∈ m.spots x y rows) :
    Frame.OnGrid p.1 p.2 := by
  obtain ⟨bit, -, rfl⟩ := List.mem_map.mp h
  rw [spot, hedge]
  exact ⟨Nat.mod_lt _ (by decide), Nat.mod_lt _ (by decide)⟩

end Machine

end ChipEight
