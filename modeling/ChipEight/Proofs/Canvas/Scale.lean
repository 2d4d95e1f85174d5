import ChipEight.Proofs.Canvas.Shown
import Mathlib.Data.List.Basic

/-!
The scale of a canvas changes nothing that can be seen. Squares and canvas grow together, so that each pixel covers the
same cells, and where it has an outline it has the same one.
-/

namespace ChipEight

section

variable {size : Size} {scale scale' : Nat}

namespace Grid

variable (hexact : Exact ⟨size, scale⟩) (hexact' : Exact ⟨size, scale'⟩)

include hexact hexact'

theorem dabs_ofPixel_same {i j : Nat} (hij : Frame.OnGrid i j) (lit : Bool) :
    dabs ⟨size, scale⟩ (.ofPixel scale i j lit) = dabs ⟨size, scale'⟩ (.ofPixel scale' i j lit) := by
  have hrect := rect?_ofPixel hexact hij.1 hij.2 lit
  have hrect' := rect?_ofPixel hexact' hij.1 hij.2 lit
  simp only at hrect hrect'
  rw [dabs, dabs, hrect, hrect']
  rfl

theorem planeDabs_same (f : Frame) (lit : Bool) : planeDabs ⟨size, scale⟩ f lit = planeDabs ⟨size, scale'⟩ f lit := by
  rw [planeDabs, planeDabs, List.flatMap_map, List.flatMap_map]
  refine List.flatMap_congr fun p hp => ?_
  have hpixel : Frame.OnGrid p.x p.y := (Frame.mem_pixels.mp (List.mem_filter.mp hp).1).1
  exact dabs_ofPixel_same hexact hexact' hpixel p.lit

theorem frameDabs_same (f : Frame) : frameDabs ⟨size, scale⟩ f = frameDabs ⟨size, scale'⟩ f := by
  rw [frameDabs_eq, frameDabs_eq, planeDabs_same hexact hexact', planeDabs_same hexact hexact']

end Grid

/-- With the same dabs a canvas shows the same, since only its size says where they go. -/
theorem frameOn_of_frameDabs {area : Size} {f : Frame}
    (h : Grid.frameDabs ⟨⟨area.width - 2, area.height - 2⟩, scale⟩ f =
      Grid.frameDabs ⟨⟨area.width - 2, area.height - 2⟩, scale'⟩ f) (title : String) :
    frameOn area scale title f = frameOn area scale' title f := by
  unfold Grid.frameDabs at h
  simp only [frameOn]
  rw [h]
  rfl

end

/-- On a terminal of whatever size, a frame under a title gives the same picture at every scale, each cell with the same
symbol in the same colours. -/
theorem picture_same_at_scales (terminal : Size) (scale scale' : UInt16) (title : String) (f : Frame) :
    paintFrame terminal scale.toNat title f = paintFrame terminal scale'.toNat title f :=
  frameOn_of_frameDabs
    (Grid.frameDabs_same (Grid.exact_of_lt scale.toNat_lt) (Grid.exact_of_lt scale'.toNat_lt) f) title

end ChipEight
