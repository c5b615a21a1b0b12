import V6Emul.Display.Picture

/-!
# Screenshots

A screenshot cuts the active area out of a frame, every pixel or every other one, and
takes the colours apart.  Of a frame that was drawn while nothing changed it shows the
four bit planes in RAM through the palette.
-/

namespace V6Emul

/-! ## The code -/

structure ScreenshotFrame where
  width : Nat
  height : Nat
  rgb : List Byte

/-- A read of the frame; `none` outside of it. -/
def framePixel (frame : FrameBuffer) (k : Nat) : Option Color :=
  if h : k < frameLen then some (frame ⟨k, h⟩) else none

def rgbOf (color : Color) : List Byte :=
  [color.setWidth 8, (color >>> 8).setWidth 8, (color >>> 16).setWidth 8]

def captureScreenshot (frame : FrameBuffer) (displayMode512 : Bool) : Option ScreenshotFrame := do
  let width := if displayMode512 then 512 else 512 / 2
  let pixelStep := if displayMode512 then 1 else 2
  let rows ← (List.range 256).mapM fun y => do
    let row := (40 + y) * frameW
    let pixels ← (List.range width).mapM fun x => do
      let color ← framePixel frame (row + 128 + x * pixelStep)
      return rgbOf color
    return pixels.flatten
  return ⟨width, 256, rows.flatten⟩

/-! ## The picture in RAM -/

/-- A bit of the plane that begins at `plane`: eight pixels of a line are a byte, and the bytes
of a column lie one behind the other, from the bottom up. -/
def planeBit (m : Memory) (plane column row bit : Nat) : Bool :=
  (m.ram.read (column * 256 + row + plane)).getLsbD bit

def shownRow (scroll : Byte) (y : Nat) : Nat := (scroll.toNat + 256 - y) % 256

/-- The palette entry of a pixel: a bit of each plane, or, when a byte holds sixteen pixels, the
bits of two planes for the even ones and of the other two for the odd ones. -/
def shownColorIdx (m : Memory) (scroll : Byte) (displayMode512 : Bool) (x y : Nat) : BitVec 4 :=
  let row := shownRow scroll y
  if displayMode512 then
    let bit plane := planeBit m plane (x / 16) row (7 - x % 16 / 2)
    if x % 2 = 0 then .ofBoolListLE [bit 0xE000, bit 0xC000, false, false]
    else .ofBoolListLE [false, false, bit 0xA000, bit 0x8000]
  else
    let bit plane := planeBit m plane (x / 8) row (7 - x % 8)
    .ofBoolListLE [bit 0xE000, bit 0xC000, bit 0xA000, bit 0x8000]

/-- The colour of a pixel in the three bytes of a picture; the palette holds `BBGGGRRR`. -/
def shownRgb (io : IoState) (m : Memory) (scroll : Byte) (x y : Nat) : List Byte :=
  let color := io.getColor (shownColorIdx m scroll io.displayMode x y)
  [color <<< 5, color >>> 3 <<< 5, color >>> 6 <<< 6]

/-! ## Bits -/

section

variable {a b c e : Byte} {bit : Nat}

theorem getLsbD_planes (hbit : bit < 8) :
    (a ++ b ++ c ++ e : BitVec 32).getLsbD bit = e.getLsbD bit ∧
    (a ++ b ++ c ++ e : BitVec 32).getLsbD (bit + 8) = c.getLsbD bit ∧
    (a ++ b ++ c ++ e : BitVec 32).getLsbD (bit + 16) = b.getLsbD bit ∧
    (a ++ b ++ c ++ e : BitVec 32).getLsbD (bit + 24) = a.getLsbD bit := by
  have hlow : ∀ {w : Nat} (v : BitVec w) (u : Byte), (v ++ u).getLsbD bit = u.getLsbD bit := by
    intro w v u
    rw [BitVec.getLsbD_append, if_pos hbit]
  have hhigh : ∀ {w : Nat} (v : BitVec w) (u : Byte) (k : Nat),
      (v ++ u).getLsbD (k + 8) = v.getLsbD k := by
    intro w v u k
    rw [BitVec.getLsbD_append, if_neg (by omega), Nat.add_sub_cancel]
  refine ⟨hlow _ e, ?_, ?_, ?_⟩
  · rw [hhigh, hlow]
  · rw [hhigh _ e (bit + 8), hhigh, hlow]
  · rw [hhigh _ e (bit + 16), hhigh _ c (bit + 8), hhigh]

theorem bytesToColorIdx256_eq (hbit : bit < 8) :
    bytesToColorIdx256 (a ++ b ++ c ++ e) (BitVec.ofNat 8 bit) =
      .ofBoolListLE [e.getLsbD bit, c.getLsbD bit, b.getLsbD bit, a.getLsbD bit] := by
  have hmod : bit % 256 = bit := Nat.mod_eq_of_lt (by omega)
  obtain ⟨he, hc, hb, ha⟩ := getLsbD_planes (a := a) (b := b) (c := c) (e := e) hbit
  apply BitVec.eq_of_getLsbD_eq
  intro i hi
  obtain rfl | rfl | rfl | rfl : i = 0 ∨ i = 1 ∨ i = 2 ∨ i = 3 := by omega
  all_goals
    simp [bytesToColorIdx256, hmod, BitVec.ofBoolListLE, Nat.add_assoc, he, hc, hb, ha]

theorem bytesToColorIdx512_even (hbit : bit < 8) :
    bytesToColorIdx512 (a ++ b ++ c ++ e) (BitVec.ofNat 8 (2 * bit + 1)) =
      .ofBoolListLE [e.getLsbD bit, c.getLsbD bit, false, false] := by
  have hodd : BitVec.ofNat 8 (2 * bit + 1) &&& 1#8 = 1#8 := by
    revert bit
    decide
  have hhalf : (BitVec.ofNat 8 (2 * bit + 1) >>> 1).toNat = bit := by
    simp
    omega
  obtain ⟨he, hc, -, -⟩ := getLsbD_planes (a := a) (b := b) (c := c) (e := e) hbit
  apply BitVec.eq_of_getLsbD_eq
  intro i hi
  rw [bytesToColorIdx512, if_pos hodd, hhalf]
  obtain rfl | rfl | rfl | rfl : i = 0 ∨ i = 1 ∨ i = 2 ∨ i = 3 := by omega
  all_goals
    simp [BitVec.ofBoolListLE, Nat.add_assoc, he, hc]

theorem bytesToColorIdx512_odd (hbit : bit < 8) :
    bytesToColorIdx512 (a ++ b ++ c ++ e) (BitVec.ofNat 8 (2 * bit)) =
      .ofBoolListLE [false, false, b.getLsbD bit, a.getLsbD bit] := by
  have heven : BitVec.ofNat 8 (2 * bit) &&& 1#8 ≠ 1#8 := by
    revert bit
    decide
  have hhalf : (BitVec.ofNat 8 (2 * bit) >>> 1).toNat = bit := by
    simp
    omega
  obtain ⟨-, -, hb, ha⟩ := getLsbD_planes (a := a) (b := b) (c := c) (e := e) hbit
  have hfour : ∀ v : BitVec 32, v * 4#32 = v <<< 2 := fun v => by
    rw [BitVec.shiftLeft_eq_mul_twoPow]
    rfl
  apply BitVec.eq_of_getLsbD_eq
  intro i hi
  rw [bytesToColorIdx512, if_neg heven, hhalf, hfour]
  obtain rfl | rfl | rfl | rfl : i = 0 ∨ i = 1 ∨ i = 2 ∨ i = 3 := by omega
  all_goals
    simp [BitVec.ofBoolListLE, Nat.add_assoc, hb, ha]
end

theorem rgbOf_vectorColorToArgb (color : Byte) :
    rgbOf (vectorColorToArgb color) = [color <<< 5, color >>> 3 <<< 5, color >>> 6 <<< 6] := by
  revert color
  decide +kernel

/-! ## Places -/

def activePlace (displayMode512 : Bool) (x y : Nat) : Nat :=
  (40 + y) * frameW + 128 + x * if displayMode512 then 1 else 2

section

variable {sc : Scene} {x y : Nat}

theorem screenOffset_toNat (scroll : Byte) {pixel : Nat} (hy : y < 256) (hpixel : pixel < 512) :
    (screenOffset 128 (scrolledLine scroll (40 + y : Nat)) (128 + pixel : Nat)).toNat =
      pixel / 16 * 256 + shownRow scroll y := by
  have hscroll := scroll.isLt
  have hcolumn : ((128 + pixel : Nat) - 128 : Int).tdiv rasterizedPxlsMax = (pixel / 16 : Nat) := by
    rw [Int.tdiv_eq_ediv_of_nonneg (by omega)]
    simp only [rasterizedPxlsMax]
    omega
  have hrow : activeAreaH - 1 - (scrolledLine scroll (40 + y : Nat) - scanActiveAreaTop) =
      (shownRow scroll y : Nat) := by
    simp only [scrolledLine, scanActiveAreaTop, activeAreaH, shownRow]
    rw [Int.tmod_eq_emod_of_nonneg (by omega)]
    omega
  have hlow : shownRow scroll y < 2 ^ 8 := Nat.mod_lt _ (by decide)
  have hhigh : pixel / 16 * 256 + shownRow scroll y < 65536 := by omega
  simp only [screenOffset, hcolumn, hrow]
  rw [BitVec.toNat_setWidth, BitVec.toNat_or, BitVec.toNat_shiftLeft, BitVec.ofInt_natCast,
    BitVec.ofInt_natCast, BitVec.toNat_ofNat, BitVec.toNat_ofNat]
  have hcol : (pixel / 16 % 2 ^ 32) <<< 8 % 2 ^ 32 = 2 ^ 8 * (pixel / 16) := by
    rw [Nat.mod_eq_of_lt (by omega), Nat.shiftLeft_eq, Nat.mod_eq_of_lt (by omega), Nat.mul_comm]
  rw [hcol, Nat.mod_eq_of_lt (b := 2 ^ 32) (by omega), ← Nat.two_pow_add_eq_or_of_lt hlow,
    Nat.mod_eq_of_lt (by omega), Nat.mul_comm]

theorem active_place {pixel : Nat} (hy : y < 256) (hpixel : pixel < 512) :
    Scene.Active ((40 + y) * frameW + 128 + pixel) ∧
      ((40 + y) * frameW + 128 + pixel) / frameW = 40 + y ∧
      ((40 + y) * frameW + 128 + pixel) % frameW = 128 + pixel := by
  rw [Scene.Active]
  simp only [frameW]
  omega

theorem screenBytes_active {pixel : Nat} (hleft : sc.borderLeft = 128) (hy : y < 256)
    (hpixel : pixel < 512) :
    let byte plane := sc.mem.ram.read (pixel / 16 * 256 + shownRow sc.scrollIdx y + plane)
    sc.screenBytes ((40 + y) * frameW + 128 + pixel) =
      byte 0x8000 ++ byte 0xA000 ++ byte 0xC000 ++ byte 0xE000 := by
  obtain ⟨-, hline, hcolumn⟩ := active_place hy hpixel
  have hoffset := screenOffset_toNat sc.scrollIdx hy hpixel
  simp only [Scene.screenBytes, hline, hcolumn, hleft, Memory.getScreenBytes, hoffset]

theorem start_active {pixel : Nat} :
    mode256.start (((40 + y) * frameW + 128 + pixel : Nat) - 128) = (7 - pixel % 16 / 2 : Nat) ∧
      mode512.start (((40 + y) * frameW + 128 + pixel : Nat) - 128) = (15 - pixel % 16 : Nat) := by
  have hplace : (((40 + y) * frameW + 128 + pixel : Nat) - 128 : Int) =
      (16 * (48 * (40 + y) + pixel / 16) : Nat) + (pixel % 16 : Nat) := by
    simp only [frameW]
    omega
  have hbit : pixel % 16 < 16 := Nat.mod_lt _ (by decide)
  rw [hplace, mode256_start (by omega) (by omega) hbit, mode512_start (by omega) (by omega) hbit]
  omega

theorem color_shown (hleft : sc.borderLeft = 128) (hy : y < 256)
    (hx : x < if sc.io.displayMode then 512 else 256) :
    sc.color (activePlace sc.io.displayMode x y) =
      sc.io.getColor (shownColorIdx sc.mem sc.scrollIdx sc.io.displayMode x y) := by
  cases hmode : sc.io.displayMode with
  | false =>
      have hx : x < 256 := by simpa [hmode] using hx
      have hpixel : x * 2 < 512 := by omega
      have hcolumn : x * 2 / 16 = x / 8 := by omega
      have hbit : x * 2 % 16 / 2 = x % 8 := by omega
      simp only [activePlace, Scene.color, (active_place hy hpixel).1, if_true, Scene.mode, hmode,
        Scene.bitIdx, hleft, Bool.false_eq_true, if_false, screenBytes_active hleft hy hpixel,
        start_active.1, BitVec.ofInt_natCast]
      simp only [mode256]
      rw [bytesToColorIdx256_eq (by omega), hcolumn, hbit]
      rfl
  | true =>
      have hpixel : x < 512 := by simpa [hmode] using hx
      simp only [activePlace, if_true, Nat.mul_one, Scene.color, (active_place hy hpixel).1,
        Scene.mode, hmode, Scene.bitIdx, hleft, Bool.true_eq_false, if_false,
        screenBytes_active hleft hy hpixel, start_active.2, BitVec.ofInt_natCast]
      simp only [mode512, shownColorIdx, if_true]
      by_cases heven : x % 2 = 0
      · have hbit : 15 - x % 16 = 2 * (7 - x % 16 / 2) + 1 := by omega
        rw [hbit, bytesToColorIdx512_even (by omega), if_pos heven]
        rfl
      · have hbit : 15 - x % 16 = 2 * (7 - x % 16 / 2) := by omega
        rw [hbit, bytesToColorIdx512_odd (by omega), if_neg heven]
        rfl

end

/-! ## Screenshots -/

theorem mapM_some_of_forall {α β : Type} {f : α → Option β} {g : α → β} {l : List α}
    (h : ∀ a ∈ l, f a = some (g a)) : l.mapM f = some (l.map g) := by
  induction l with
  | nil => rfl
  | cons a l ih =>
      simp only [List.mem_cons, forall_eq_or_imp] at h
      simp [h.1, ih h.2]

theorem captureScreenshot_picture {sc : Scene} (hleft : sc.borderLeft = 128) :
    captureScreenshot sc.picture sc.io.displayMode =
      some ⟨if sc.io.displayMode then 512 else 256, 256, (List.range 256).flatMap fun y =>
        (List.range (if sc.io.displayMode then 512 else 256)).flatMap fun x =>
          shownRgb sc.io sc.mem sc.scrollIdx x y⟩ := by
  have hpixel : ∀ y ∈ List.range 256,
      ∀ x ∈ List.range (if sc.io.displayMode then 512 else 256),
      (do let color ← framePixel sc.picture (((40 + y) * frameW) + 128 +
            x * if sc.io.displayMode then 1 else 2)
          return rgbOf color) = some (shownRgb sc.io sc.mem sc.scrollIdx x y) := by
    intro y hy x hx
    rw [List.mem_range] at hy hx
    have hinside : activePlace sc.io.displayMode x y < frameLen := by
      simp only [activePlace, frameLen, frameW, frameH]
      split <;> simp_all <;> omega
    change (do let color ← framePixel sc.picture (activePlace sc.io.displayMode x y)
               return rgbOf color) = _
    simp [framePixel, hinside, Scene.picture, color_shown hleft hy hx, rgbOf_vectorColorToArgb,
      shownRgb]
  have hrow : ∀ y ∈ List.range 256,
      (do let pixels ← (List.range (if sc.io.displayMode then 512 else 256)).mapM fun x => do
            let color ← framePixel sc.picture (((40 + y) * frameW) + 128 +
              x * if sc.io.displayMode then 1 else 2)
            return rgbOf color
          return pixels.flatten) =
        some ((List.range (if sc.io.displayMode then 512 else 256)).flatMap fun x =>
          shownRgb sc.io sc.mem sc.scrollIdx x y) := by
    intro y hy
    rw [mapM_some_of_forall (hpixel y hy)]
    rfl
  simp only [captureScreenshot, Nat.reduceDiv]
  rw [mapM_some_of_forall hrow]
  rfl

/--
A frame that is drawn while nothing is pending gives the screenshot of the bit planes: in
each mode every pixel of the active area is the palette colour of its bits in RAM.
-/
theorem screenshot_shows_planes {δ : Type} (dev : Devices δ) {r : Raster δ}
    (hidx : r.display.idx = 0) (hquiet : r.scene.Quiet) (hleft : r.display.borderLeft = 128) :
    let width := if r.io.state.displayMode then 512 else 256
    captureScreenshot (r.rasterizeCalls dev Raster.slicesPerFrame).display.frameBuffer
        r.io.state.displayMode =
      some ⟨width, 256, (List.range 256).flatMap fun y => (List.range width).flatMap fun x =>
        shownRgb r.io.state r.mem r.display.update.scrollIdx x y⟩ := by
  rw [Raster.rasterizeCalls_picture dev hidx hquiet hleft]
  exact @captureScreenshot_picture r.scene hleft

/-- A witness: one column of a plane set, an initial display, the scroll register as it is then. -/
theorem screenshot_shows_planes_new :
    let io : Io Unit := .new ()
    let ram : Ram := fun k => if 0xE000 ≤ k.val ∧ k.val < 0xE100 then 0xF0 else 0
    let r : Raster Unit := ⟨⟨.ofRam ram, io⟩, .new⟩
    captureScreenshot (r.rasterizeCalls .silent Raster.slicesPerFrame).display.frameBuffer false =
      some ⟨256, 256, (List.range 256).flatMap fun y => (List.range 256).flatMap fun x =>
        shownRgb r.io.state r.mem 255 x y⟩ := by
  intro io ram r
  exact screenshot_shows_planes .silent (r := r) rfl ⟨rfl, rfl, rfl, rfl⟩ rfl

end V6Emul
