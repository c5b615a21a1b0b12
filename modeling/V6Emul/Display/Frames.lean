import V6Emul.Display.Model

/-!
# Frames for the clients

`GetFrame` cuts the region of the frame mode out of a frame, row by row, and turns the
colours around.  The mode is an index into the table of regions and is not checked.
-/

namespace V6Emul

structure FrameModeRegion where
  width : Nat
  height : Nat
  offsetX : Nat
  offsetY : Nat
  deriving DecidableEq, Repr

def borderVisible : Nat := 16

/-- `frame_mode_regions` -/
def frameModeRegions : List FrameModeRegion :=
  [⟨frameW, frameH, 0, 0⟩,
    ⟨512 + borderVisible * 2, 256 + borderVisible * 2, 128 - borderVisible, 40 - borderVisible⟩,
    ⟨512, 256, 128, 40⟩]

namespace FrameModeRegion

def Inside (region : FrameModeRegion) : Prop :=
  region.offsetX + region.width ≤ frameW ∧ region.offsetY + region.height ≤ frameH

instance (region : FrameModeRegion) : Decidable region.Inside :=
  inferInstanceAs (Decidable (_ ∧ _))

/-- The region of a mode; none where the index is outside the table. -/
def ofMode (mode : Int) : Option FrameModeRegion :=
  if mode < 0 then none else frameModeRegions[mode.toNat]?

theorem inside_table : ∀ region ∈ frameModeRegions, region.Inside := by decide

theorem inside_ofMode {mode : Int} {region : FrameModeRegion} (h : ofMode mode = some region) :
    region.Inside := by
  rw [ofMode] at h
  split at h
  · cases h
  · exact inside_table region (List.mem_of_getElem? h)

end FrameModeRegion

/-! ## Crops -/

structure PixelCopy where
  dst : Nat
  src : Nat
  len : Nat

def PixelCopy.Inside (c : PixelCopy) : Prop := c.dst + c.len ≤ frameLen ∧ c.src + c.len ≤ frameLen

/-- What is copied from outside the source is not known; the pixel is left. -/
def PixelCopy.run (c : PixelCopy) (source dst : FrameBuffer) : FrameBuffer := fun i =>
  if c.dst ≤ i.val ∧ i.val < c.dst + c.len then
    if hsrc : c.src + (i.val - c.dst) < frameLen then source ⟨c.src + (i.val - c.dst), hsrc⟩
    else dst i
  else dst i

structure Crop where
  dst : FrameBuffer
  srcOffset : Nat
  dstOffset : Nat
  copies : List PixelCopy

def cropRow (source : FrameBuffer) (region : FrameModeRegion) (s : Crop) : Crop :=
  let c : PixelCopy := ⟨s.dstOffset, s.srcOffset, region.width⟩
  { dst := c.run source s.dst
    srcOffset := s.srcOffset + frameW
    dstOffset := s.dstOffset + region.width
    copies := s.copies ++ [c] }

def cropFrame (source dst : FrameBuffer) (region : FrameModeRegion) : Crop :=
  Runs.after (fun _ => cropRow source region) id
    ⟨dst, region.offsetY * frameW + region.offsetX, 0, []⟩ region.height

theorem cropFrame_inside (source dst : FrameBuffer) {region : FrameModeRegion}
    (h : region.Inside) : ∀ c ∈ (cropFrame source dst region).copies, c.Inside := by
  obtain ⟨hwidth, hheight⟩ := h
  have hrows : (cropFrame source dst region).srcOffset =
        (region.offsetY + region.height) * frameW + region.offsetX ∧
      (cropFrame source dst region).dstOffset = region.height * region.width ∧
      ∀ c ∈ (cropFrame source dst region).copies, c.Inside := by
    refine Runs.after_counted (P := fun y (s : Crop) =>
      s.srcOffset = (region.offsetY + y) * frameW + region.offsetX ∧
        s.dstOffset = y * region.width ∧ ∀ c ∈ s.copies, c.Inside) ?_ ?_
    · rintro y s hy ⟨hsrc, hdst, hcopies⟩
      refine ⟨?_, ?_, ?_⟩
      · simp only [cropRow, hsrc, frameW]
        omega
      · rw [cropRow, hdst, Nat.add_mul, Nat.one_mul]
      · intro c hc
        rcases List.mem_append.mp hc with hbefore | hlast
        · exact hcopies c hbefore
        · rw [List.mem_singleton] at hlast
          have hrow : (y + 1) * region.width ≤ frameH * frameW :=
            Nat.mul_le_mul (by omega) (by omega)
          rw [Nat.add_mul, Nat.one_mul] at hrow
          simp only [frameW, frameH, Nat.reduceMul] at hwidth hheight hrow
          simp only [hlast, PixelCopy.Inside, hsrc, hdst, frameLen, frameW, frameH, Nat.reduceMul]
          omega
    · exact ⟨rfl, (Nat.zero_mul _).symm, fun c hc => absurd hc List.not_mem_nil⟩
  exact hrows.2.2

/-! ## Colours -/

def toArgb (color : Color) : Color :=
  (color &&& 0xFF00FF00#32) ||| ((color &&& 0x00FF0000#32) >>> 16) |||
    ((color &&& 0x000000FF#32) <<< 16)

def convertPixels (len : Nat) (buffer : FrameBuffer) : FrameBuffer := fun i =>
  if i.val < len then toArgb (buffer i) else buffer i

theorem FrameModeRegion.Inside.len_le {region : FrameModeRegion} (h : region.Inside) :
    region.width * region.height ≤ frameLen :=
  Nat.mul_le_mul (Nat.le_of_add_left_le h.1) (Nat.le_of_add_left_le h.2)

end V6Emul
