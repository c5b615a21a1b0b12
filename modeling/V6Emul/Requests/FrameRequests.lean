import V6Emul.Display.Screenshot
import V6Emul.Ipc.Transport
import V6Emul.Requests.Settings

/-!
# Requests for a frame

The pixels of a frame are copied into the buffer for the clients, cut to the region of the
mode and turned to the client's format in place; the reply is a header and their bytes.
-/

namespace V6Emul

open Packed

/-! ## Crops -/

/-- The place in the frame of the pixel that a region has at `i`. -/
def FrameModeRegion.place (region : FrameModeRegion) (i : Nat) : Nat :=
  (region.offsetY + i / region.width) * frameW + region.offsetX + i % region.width

theorem FrameModeRegion.place_row {region : FrameModeRegion} {y i : Nat}
    (hlow : region.width * y ≤ i) (hhigh : i < region.width * (y + 1)) :
    region.place i =
      (region.offsetY + y) * frameW + region.offsetX + (i - region.width * y) := by
  have hrow : i / region.width = y :=
    Nat.div_eq_of_lt_le (by rwa [Nat.mul_comm]) (by rwa [Nat.mul_comm])
  have hsum := Nat.div_add_mod i region.width
  rw [hrow] at hsum
  rw [place, hrow]
  omega

theorem FrameModeRegion.Inside.place_lt {region : FrameModeRegion} (h : region.Inside) {i : Nat}
    (hi : i < region.width * region.height) : region.place i < frameLen := by
  obtain ⟨hwidth, hheight⟩ := h
  have hrow : i / region.width < region.height := Nat.div_lt_of_lt_mul hi
  have hcolumn : i % region.width < region.width :=
    Nat.mod_lt _ (Nat.pos_of_ne_zero fun hzero => by simp [hzero] at hi)
  simp only [frameW, frameH] at hwidth hheight
  simp only [place, frameLen, frameW, frameH]
  omega

theorem cropRow_dst (source dst : FrameBuffer) {region : FrameModeRegion} (h : region.Inside)
    {y : Nat} (hy : y < region.height) {s : Crop}
    (hsrc : s.srcOffset = (region.offsetY + y) * frameW + region.offsetX)
    (hdst : s.dstOffset = region.width * y)
    (hrows : ∀ i : Fin frameLen, s.dst i =
      if i.val < region.width * y then (framePixel source (region.place i)).getD 0 else dst i)
    (i : Fin frameLen) :
    (cropRow source region s).dst i =
      if i.val < region.width * (y + 1) then (framePixel source (region.place i)).getD 0
      else dst i := by
  have hmul : region.width * (y + 1) = region.width * y + region.width := Nat.mul_succ _ _
  have hall : region.width * (y + 1) ≤ region.width * region.height :=
    Nat.mul_le_mul_left _ hy
  simp only [cropRow, PixelCopy.run, hsrc, hdst, hrows]
  by_cases hbefore : i.val < region.width * y
  · simp [hbefore, Nat.not_le.mpr hbefore, Nat.lt_of_lt_of_le hbefore (hmul ▸ Nat.le_add_right _ _)]
  · by_cases hrow : i.val < region.width * y + region.width
    · have hplace := @FrameModeRegion.place_row region y i (Nat.not_lt.mp hbefore) (hmul ▸ hrow)
      have hinside := h.place_lt (Nat.lt_of_lt_of_le (hmul ▸ hrow) hall)
      rw [← hplace]
      simp [hmul, hrow, Nat.not_lt.mp hbefore, hinside, framePixel]
    · simp [hmul, hrow, hbefore]

theorem cropFrame_dst (source dst : FrameBuffer) {region : FrameModeRegion}
    (h : region.Inside) (i : Fin frameLen) :
    (cropFrame source dst region).dst i =
      if i.val < region.width * region.height then (framePixel source (region.place i)).getD 0
      else dst i := by
  have hrows : (cropFrame source dst region).srcOffset =
        (region.offsetY + region.height) * frameW + region.offsetX ∧
      (cropFrame source dst region).dstOffset = region.width * region.height ∧
      ∀ i : Fin frameLen, (cropFrame source dst region).dst i =
        if i.val < region.width * region.height then (framePixel source (region.place i)).getD 0
        else dst i := by
    refine Runs.after_counted (P := fun y (s : Crop) =>
      s.srcOffset = (region.offsetY + y) * frameW + region.offsetX ∧
        s.dstOffset = region.width * y ∧ ∀ i : Fin frameLen, s.dst i =
          if i.val < region.width * y then (framePixel source (region.place i)).getD 0
          else dst i) ?_ ?_
    · rintro y s hy ⟨hsrc, hdst, hdone⟩
      refine ⟨?_, ?_, cropRow_dst source dst h hy hsrc hdst hdone⟩
      · simp only [cropRow, hsrc, frameW]
        omega
      · rw [cropRow, hdst, Nat.mul_succ]
    · simp
  exact hrows.2.2 i

/-! ## Replies -/

def pixelBytes (len : Nat) (buffer : FrameBuffer) : List Byte :=
  (List.range len).flatMap fun i => toLE 4 ((framePixel buffer i).getD 0).toNat

@[simp] theorem length_pixelBytes (len : Nat) (buffer : FrameBuffer) :
    (pixelBytes len buffer).length = 4 * len := by
  simp [pixelBytes, Nat.mul_comm]

/-- The answer to `CMD_GET_FRAME_RAW`; none for a mode outside the table. -/
def Host.rawFrame {δ : Type} (h : Host δ) : Option FrameView :=
  match hregion : FrameModeRegion.ofMode h.frameMode with
  | none => none
  | some region =>
      some {
        width := .ofNat 32 region.width
        height := .ofNat 32 region.height
        pixels := pixelBytes (region.width * region.height) (h.getFrame false).1
        fits := by
          have hlen := (FrameModeRegion.inside_ofMode hregion).len_le
          simp only [length_pixelBytes, rawFrameBodyMax, uint32Max, rawFrameHeaderSize]
          simp only [frameLen, frameW, frameH] at hlen
          omega }

/-- A pixel in the format that the clients are given. -/
def Host.clientColor {δ : Type} (h : Host δ) (color : Color) : Color :=
  if h.colorFormat = 1 then toArgb color else color

theorem FrameModeRegion.place_full {mode : Int} {region : FrameModeRegion}
    (hregion : ofMode mode = some region) (hfull : mode = 0) (i : Nat) : region.place i = i := by
  subst hfull
  obtain rfl : (⟨frameW, frameH, 0, 0⟩ : FrameModeRegion) = region := by
    simpa [ofMode, frameModeRegions] using hregion
  simp only [place, frameW]
  omega

theorem getFrame_pixel {δ : Type} (h : Host δ) (vsync : Bool) {region : FrameModeRegion}
    (hregion : FrameModeRegion.ofMode h.frameMode = some region) {i : Nat}
    (hi : i < region.width * region.height) :
    framePixel (h.getFrame vsync).1 i =
      (framePixel (if vsync then h.display.backBuffer else h.display.frameBuffer)
        (region.place i)).map h.clientColor := by
  have hinside := FrameModeRegion.inside_ofMode hregion
  have hlt := Nat.lt_of_lt_of_le hi hinside.len_le
  have hplace := hinside.place_lt hi
  simp only [Host.getFrame, hregion]
  generalize (if vsync = true then h.display.backBuffer else h.display.frameBuffer) = source
  have hpixel : (if h.frameMode = 0 then source
      else (cropFrame source h.gpuBuffer region).dst) ⟨i, hlt⟩ =
        source ⟨region.place i, hplace⟩ := by
    split
    · rename_i hfull
      simp only [FrameModeRegion.place_full hregion hfull i]
    · simp [cropFrame_dst source _ hinside, hi, framePixel, hplace]
  by_cases hformat : h.colorFormat = 1#8 <;>
    simp [framePixel, hlt, hplace, convertPixels, hi, hpixel, Host.clientColor, hformat]

/--
The reply to a request for a raw frame has the size of the region of the mode and its pixels
row by row, in the format that is set, whatever was asked for before.
-/
theorem rawFrame_payload {δ : Type} (h : Host δ) {region : FrameModeRegion}
    (hregion : FrameModeRegion.ofMode h.frameMode = some region) :
    ∃ frame, h.rawFrame = some frame ∧
      (ServerReply.rawFrame (some frame)).payload =
        (RawFrameHeader.mk .frame (.ofNat 32 region.width) (.ofNat 32 region.height)).toBytes ++
          (List.range (region.width * region.height)).flatMap fun i =>
            toLE 4 (((framePixel h.display.frameBuffer (region.place i)).map
              h.clientColor).getD 0).toNat := by
  have hframe : ∃ frame, h.rawFrame = some frame ∧ frame.width = .ofNat 32 region.width ∧
      frame.height = .ofNat 32 region.height ∧
      frame.pixels = pixelBytes (region.width * region.height) (h.getFrame false).1 := by
    rw [Host.rawFrame]
    split
    · simp_all
    · rename_i region' hregion'
      obtain rfl : region = region' := by simpa [hregion] using hregion'
      exact ⟨_, rfl, rfl, rfl, rfl⟩
  obtain ⟨frame, hraw, hwidth, hheight, hpixels⟩ := hframe
  refine ⟨frame, hraw, ?_⟩
  rw [ServerReply.payload, hwidth, hheight, hpixels, pixelBytes]
  congr 1
  refine List.flatMap_congr fun i hi => ?_
  rw [getFrame_pixel h false hregion (List.mem_range.mp hi)]
  simp

/-- A witness: the active area without its borders, on a host that has just been started. -/
theorem rawFrame_payload_new :
    let host : Host Unit := { Host.new (.ofRam (fun _ => 0) ()) with frameMode := 1 }
    ∃ frame, host.rawFrame = some frame ∧
      (ServerReply.rawFrame (some frame)).payload =
        (RawFrameHeader.mk .frame 544 288).toBytes ++ (List.range (544 * 288)).flatMap fun i =>
          toLE 4 (((framePixel host.display.frameBuffer
            (FrameModeRegion.place ⟨544, 288, 112, 24⟩ i)).map host.clientColor).getD 0).toNat := by
  intro host
  exact @rawFrame_payload Unit host ⟨544, 288, 112, 24⟩ rfl

end V6Emul
