import V6Emul.Display.Beam

/-!
# The picture

While nothing is pending a frame shows one picture, a function of the memory, the
ports and the scroll position.  The rasteriser draws it slice by slice with the
beam wrapping at the end; the redraw draws it in one go.
-/

namespace V6Emul

variable {δ : Type}

/-! ## What is shown -/

structure Scene where
  mem : Memory
  io : IoState
  scrollIdx : Byte
  borderLeft : Int

namespace Scene

def mode (sc : Scene) : PixelMode := if sc.io.displayMode = false then mode256 else mode512

def Active (k : Nat) : Prop :=
  40 ≤ k / frameW ∧ k / frameW < 296 ∧ 128 ≤ k % frameW ∧ k % frameW < 640

instance (k : Nat) : Decidable (Active k) := inferInstanceAs (Decidable (_ ∧ _))

def screenBytes (sc : Scene) (k : Nat) : BitVec 32 :=
  sc.mem.getScreenBytes (screenOffset sc.borderLeft
    (scrolledLine sc.scrollIdx (k / frameW : Nat)) (k % frameW : Nat))

def bitIdx (sc : Scene) (k : Nat) : Int := sc.mode.start (k - sc.borderLeft)

def color (sc : Scene) (k : Nat) : Byte :=
  if Active k then
    sc.io.getColor (sc.mode.colorIdx (sc.screenBytes k) (BitVec.ofInt 8 (sc.bitIdx k)))
  else sc.io.getBorderColor

def picture (sc : Scene) : FrameBuffer := fun k => vectorColorToArgb (sc.color k)

/-- No commit is pending, and the scroll register has been read. -/
structure Quiet (sc : Scene) : Prop where
  outCommit : Bus.running sc.io.outCommitTimer = false
  paletteCommit : Bus.running sc.io.paletteCommitTimer = false
  displayMode : Bus.running sc.io.displayModeTimer = false
  scroll : sc.scrollIdx = sc.io.ports.portA

end Scene

namespace Raster

def scene (r : Raster δ) : Scene :=
  ⟨r.mem, r.io.state, r.display.update.scrollIdx, r.display.borderLeft⟩

structure Painted (sc : Scene) (fb : FrameBuffer) (k : Nat) (r : Raster δ) : Prop where
  scene : r.scene = sc
  buffer : ∀ i : Fin frameLen,
    r.display.frameBuffer i = if i.val < k then sc.picture i else fb i
  beam : k < frameLen → r.display.idx = k

section Painting

variable {sc : Scene} {fb : FrameBuffer} {k n : Nat} {r : Raster δ}

/-! ## Pixels -/

theorem Painted.store (h : Painted sc fb k r) (hk : k < frameLen) :
    Painted sc fb (k + 1) (r.store (sc.color k)) := by
  have hidx := h.beam hk
  constructor
  · exact h.scene
  · intro i
    have hstored : (r.store (sc.color k)).display.frameBuffer i =
        if (i.val : Int) = r.display.idx then vectorColorToArgb (sc.color k)
        else r.display.frameBuffer i := rfl
    rw [hstored, hidx, h.buffer i]
    rcases Nat.lt_trichotomy i.val k with hlt | heq | hgt
    · rw [if_neg (by omega), if_pos hlt, if_pos (by omega)]
    · rw [if_pos (by omega), if_pos (by omega), ← heq]
      rfl
    · rw [if_neg (by omega), if_neg (by omega), if_neg (by omega)]
  · intro _
    change (r.display.store _).idx = _
    rw [Display.store, hidx]
    exact Display.idx_setIdx _ hk

theorem Painted.rasterLine (h : Painted sc fb k r) (hk : k < frameLen) :
    r.display.rasterLine = (k / frameW : Nat) := by
  rw [Display.rasterLine, h.beam hk]
  exact Int.ofNat_tdiv k frameW

theorem Painted.rasterPixel (h : Painted sc fb k r) (hk : k < frameLen) :
    r.display.rasterPixel = (k % frameW : Nat) := by
  rw [Display.rasterPixel, h.beam hk]
  exact Int.ofNat_tmod k frameW

theorem Painted.congr (h : Painted sc fb k r) {r' : Raster δ} (hscene : r'.scene = r.scene)
    (hbuffer : r'.display.frameBuffer = r.display.frameBuffer)
    (hbeam : k < frameLen → r'.display.idx = r.display.idx) : Painted sc fb k r' := by
  constructor
  · exact hscene.trans h.scene
  · intro i
    rw [hbuffer]
    exact h.buffer i
  · intro hk
    exact (hbeam hk).trans (h.beam hk)

theorem Painted.wrapFrame (h : Painted sc fb k r) (hidx : r.display.idx = k) (hk : k ≤ frameLen) :
    Painted sc fb k (r.setDisplay Display.wrapFrame) := by
  have hrest : k < frameLen → r.display.idx.tmod frameLen = k := by
    intro hlt
    rw [hidx]
    exact Int.tmod_eq_of_lt (Int.natCast_nonneg k) (Int.ofNat_lt.mpr hlt)
  have hplace := Display.idx_setIdx r.display hk
  apply h.congr
  · simp only [Raster.scene, setDisplay, Display.wrapFrame]
    split <;> rfl
  · simp only [setDisplay, Display.wrapFrame]
    split <;> rfl
  · intro hlt
    have hback : (r.display.setIdx (r.display.idx.tmod frameLen)).idx = r.display.idx := by
      rw [hrest hlt, hplace, hidx]
    simp only [setDisplay, Display.wrapFrame]
    split <;> exact hback

theorem tryToCommit_quiet (dev : Devices δ) (colorIdx : BitVec 4) (hsc : r.scene.Quiet) :
    r.tryToCommit dev colorIdx = r :=
  tryToCommit_idle dev colorIdx ⟨hsc.outCommit, hsc.paletteCommit, hsc.displayMode⟩

theorem latchScroll_quiet (line : Int) (hsc : r.scene.Quiet) : r.latchScroll line = r := by
  have hscroll : r.io.state.ports.portA = r.display.update.scrollIdx := hsc.scroll.symm
  unfold latchScroll
  split
  · simp only [setDisplay, hscroll]
  · rfl

/-! ## Border -/

theorem Painted.borderColor (h : Painted sc fb k r) {i : Nat} (hi : ¬ Scene.Active i) :
    r.io.state.getBorderColor = sc.color i := by
  have hio : r.io.state = sc.io := congrArg Scene.io h.scene
  rw [Scene.color, if_neg hi, hio]

theorem fillBorder_painted (h : Painted sc fb k r) (hn : k + n ≤ frameLen)
    (hborder : ∀ i < n, ¬ Scene.Active (k + i)) : Painted sc fb (k + n) (r.fillBorder n) := by
  refine Runs.after_counted (P := fun i (s : Raster δ) => Painted sc fb (k + i) s) ?_ h
  intro i s hi hs
  rw [h.borderColor (hborder i hi)]
  exact hs.store (by omega)

theorem fillBorderPortHandling_painted (dev : Devices δ) (hquiet : sc.Quiet)
    (h : Painted sc fb k r) (hn : k + n ≤ frameLen)
    (hborder : ∀ i < n, ¬ Scene.Active (k + i)) :
    Painted sc fb (k + n) (r.fillBorderPortHandling dev n) := by
  refine Runs.after_counted (P := fun i (s : Raster δ) => Painted sc fb (k + i) s) ?_ h
  intro i s hi hs
  have hidx := hs.beam (by omega)
  have hstored := hs.store (by omega)
  have hnext : (s.store (sc.color (k + i))).display.idx = (k + i + 1 : Nat) := by
    change (s.display.store _).idx = _
    rw [Display.store, hidx]
    exact Display.idx_setIdx _ (k := k + i + 1) (by omega)
  rw [borderPixel, tryToCommit_quiet dev _ (hs.scene ▸ hquiet), hs.borderColor (hborder i hi)]
  exact hstored.wrapFrame hnext (by omega)

end Painting

end Raster

/-! ## Bits of a slice -/

section Bits

variable {offset : Int} {i : Nat}

theorem slice_tmod (hpos : 0 ≤ offset) (haligned : offset % 16 = 0) (hi : i < 16) :
    (offset + i).tmod rasterizedPxlsMax = i := by
  rw [Int.tmod_eq_emod_of_nonneg (by omega)]
  simp only [rasterizedPxlsMax]
  omega

theorem mode256_start (hpos : 0 ≤ offset) (haligned : offset % 16 = 0) (hi : i < 16) :
    mode256.start (offset + i) = 7 - (i / 2 : Nat) := by
  have hshift : (i : Int) >>> (1 : Nat) = (i / 2 : Nat) := by
    rw [Int.shiftRight_eq_div_pow]
    exact Int.natCast_div i 2 |>.symm
  simp only [mode256, slice_tmod hpos haligned hi, hshift]

theorem mode512_start (hpos : 0 ≤ offset) (haligned : offset % 16 = 0) (hi : i < 16) :
    mode512.start (offset + i) = 15 - i := by
  simp only [mode512, slice_tmod hpos haligned hi]

theorem Scene.mode_next (sc : Scene) (hpos : 0 ≤ offset) (haligned : offset % 16 = 0)
    (hi : i + 1 < 16) :
    sc.mode.next i (sc.mode.start (offset + i)) = sc.mode.start (offset + (i + 1 : Nat)) ∧
      0 ≤ sc.mode.start (offset + (i + 1 : Nat)) := by
  have hi' : i < 16 := by omega
  unfold Scene.mode
  split
  · rw [mode256_start hpos haligned hi', mode256_start hpos haligned hi]
    simp only [mode256]
    omega
  · rw [mode512_start hpos haligned hi', mode512_start hpos haligned hi]
    simp only [mode512]
    omega

end Bits

namespace Scene

variable {j i : Nat}

theorem slice_place (hi : i < 16) :
    (16 * j + i) / frameW = 16 * j / frameW ∧ (16 * j + i) % frameW = 16 * j % frameW + i := by
  simp only [frameW]
  omega

theorem active_slice (hi : i < 16) : Active (16 * j + i) ↔ Active (16 * j) := by
  obtain ⟨hline, hpixel⟩ := slice_place (j := j) hi
  rw [Active, Active, hline, hpixel]
  simp only [frameW]
  omega

theorem screenBytes_slice {sc : Scene} (hleft : sc.borderLeft = 128) (hactive : Active (16 * j))
    (hi : i < 16) : sc.screenBytes (16 * j + i) = sc.screenBytes (16 * j) := by
  obtain ⟨hline, hpixel⟩ := slice_place (j := j) hi
  obtain ⟨-, -, hright, -⟩ := hactive
  have hcolumn : (((16 * j % frameW + i : Nat) : Int) - 128).tdiv rasterizedPxlsMax =
      (((16 * j % frameW : Nat) : Int) - 128).tdiv rasterizedPxlsMax := by
    rw [Int.tdiv_eq_ediv_of_nonneg (by omega), Int.tdiv_eq_ediv_of_nonneg (by omega)]
    simp only [rasterizedPxlsMax, frameW]
    omega
  simp only [screenBytes, screenOffset, hline, hpixel, hleft, hcolumn]

end Scene

namespace Raster

section Active

variable {sc : Scene} {fb : FrameBuffer} {j : Nat} {r : Raster δ}

structure Scanned (sc : Scene) (fb : FrameBuffer) (j i : Nat) (s : Scan δ) : Prop where
  painted : Painted sc fb (16 * j + i) s.raster
  bits : i < 16 → s.screenBytes = sc.screenBytes (16 * j) ∧ s.bitIdx = sc.bitIdx (16 * j + i)

theorem startScan_scanned (h : Painted sc fb (16 * j) r) (hj : 16 * j < frameLen) :
    Scanned sc fb j 0 (startScan sc.mode r) := by
  have hidx := h.beam hj
  have hline := h.rasterLine hj
  have hpixel := h.rasterPixel hj
  refine ⟨h, fun _ => ⟨?_, ?_⟩⟩
  · rw [← h.scene]
    simp only [startScan, getScreenBytes, Display.rasterLineScrolled, hline, hpixel]
    rfl
  · have hborder : r.display.borderLeft = sc.borderLeft := congrArg Scene.borderLeft h.scene
    simp only [startScan, hidx, hborder]
    rfl

theorem Scanned.bitIdx_next {s : Scan δ} {i : Nat} (h : Scanned sc fb j i s)
    (hleft : sc.borderLeft = 128) (hactive : Scene.Active (16 * j)) (hi : i + 1 < 16) :
    sc.mode.next i s.bitIdx = sc.bitIdx (16 * j + (i + 1)) ∧
      0 ≤ sc.bitIdx (16 * j + (i + 1)) := by
  obtain ⟨-, -, hright, -⟩ := hactive
  have hpos : (0 : Int) ≤ (16 * j : Nat) - 128 := by
    simp only [frameW] at hright
    omega
  have hnext := sc.mode_next hpos (by omega) hi
  have hhere : ((16 * j + i : Nat) : Int) - sc.borderLeft = (16 * j : Nat) - 128 + i := by
    rw [hleft]
    omega
  have hthere : ((16 * j + (i + 1) : Nat) : Int) - sc.borderLeft =
      (16 * j : Nat) - 128 + (i + 1 : Nat) := by
    rw [hleft]
    omega
  rw [(h.bits (by omega)).2, Scene.bitIdx, Scene.bitIdx, hhere, hthere]
  exact hnext

theorem Scanned.turn {s : Scan δ} {i : Nat} (h : Scanned sc fb j i s)
    (hleft : sc.borderLeft = 128) (hactive : Scene.Active (16 * j)) (hi : i < 16)
    (hj : 16 * j + i < frameLen) (lineScrolled pixel : Int) :
    Scanned sc fb j (i + 1) (reload sc.mode lineScrolled pixel
      { s with
        bitIdx := sc.mode.next i s.bitIdx
        raster := s.raster.store (s.raster.io.state.getColor
          (sc.mode.colorIdx s.screenBytes (BitVec.ofInt 8 s.bitIdx))) }) := by
  obtain ⟨hbytes, hbit⟩ := h.bits hi
  have hcolor : s.raster.io.state.getColor
      (sc.mode.colorIdx s.screenBytes (BitVec.ofInt 8 s.bitIdx)) = sc.color (16 * j + i) := by
    have hio : s.raster.io.state = sc.io := congrArg Scene.io h.painted.scene
    rw [Scene.color, if_pos ((Scene.active_slice hi).mpr hactive), hio, hbytes, hbit,
      Scene.screenBytes_slice hleft hactive hi]
  rw [hcolor]
  constructor
  · rw [reload_raster]
    exact h.painted.store hj
  · intro hnext
    obtain ⟨hbitNext, hnonneg⟩ := h.bitIdx_next hleft hactive hnext
    have hkeep : ¬ sc.mode.next i s.bitIdx < 0 := by
      rw [hbitNext]
      exact Int.not_lt.mpr hnonneg
    rw [reload, if_neg hkeep]
    exact ⟨hbytes, hbitNext⟩

theorem fillActiveArea_painted (h : Painted sc fb (16 * j) r) (hleft : sc.borderLeft = 128)
    (hactive : Scene.Active (16 * j)) (hj : 16 * j + 16 ≤ frameLen) :
    Painted sc fb (16 * j + 16) (r.fillActiveArea sc.mode 16) := by
  have hscanned : Scanned sc fb j 16 (Runs.after (activePixel sc.mode r.display.rasterLineScrolled)
      id (startScan sc.mode r) 16) := by
    refine Runs.after_counted (P := fun i (s : Scan δ) => Scanned sc fb j i s) ?_
      (startScan_scanned h (by omega))
    intro i s hi hs
    exact hs.turn hleft hactive hi (by omega) _ _
  exact hscanned.painted

theorem fillActiveAreaPortHandling_painted (dev : Devices δ) (hquiet : sc.Quiet)
    (h : Painted sc fb (16 * j) r) (hleft : sc.borderLeft = 128)
    (hactive : Scene.Active (16 * j)) (hj : 16 * j + 16 ≤ frameLen) :
    Painted sc fb (16 * j + 16) (r.fillActiveAreaPortHandling dev sc.mode 16) := by
  have hscanned : Scanned sc fb j 16 (Runs.after (activePixelPortHandling dev sc.mode
      r.display.rasterLine r.display.rasterLineScrolled) id (startScan sc.mode r) 16) := by
    refine Runs.after_counted (P := fun i (s : Scan δ) => Scanned sc fb j i s) ?_
      (startScan_scanned h (by omega))
    intro i s hi hs
    have hscene : s.raster.scene.Quiet := hs.painted.scene ▸ hquiet
    have hturn := hs.turn hleft hactive hi (by omega) r.display.rasterLineScrolled
      s.raster.display.rasterPixel
    simp only [activePixelPortHandling, latchScroll_quiet _ hscene, tryToCommit_quiet dev _ hscene]
    exact hturn
  exact hscanned.painted

end Active

/-! ## Slices and frames -/

section Frames

variable {sc : Scene} {fb : FrameBuffer} {j : Nat} {r : Raster δ}

theorem drawSlice_aligned (active border : Int → Raster δ → Raster δ)
    (h : Painted sc fb (16 * j) r) (hleft : sc.borderLeft = 128) (hj : 16 * j < frameLen) :
    drawSlice active border r = if Scene.Active (16 * j) then active 16 r else border 16 r := by
  have hline := h.rasterLine hj
  have hpixel := h.rasterPixel hj
  have hborder : r.display.borderLeft = 128 := (congrArg Scene.borderLeft h.scene).trans hleft
  have hright : r.display.activeAreaRight = 640 := by
    rw [Display.activeAreaRight, hborder]
    rfl
  by_cases hactive : Scene.Active (16 * j)
  · rw [if_pos hactive]
    obtain ⟨htop, hbottom, hfirst, hlast⟩ := hactive
    have hscan : scanActiveAreaTop ≤ r.display.rasterLine ∧
        r.display.rasterLine < scanActiveAreaTop + activeAreaH := by
      rw [hline]
      simp only [scanActiveAreaTop, activeAreaH]
      omega
    have harea : r.display.borderLeft ≤ r.display.rasterPixel ∧
        r.display.rasterPixel < r.display.activeAreaRight := by
      rw [hpixel, hborder, hright]
      omega
    have hwhole : min (r.display.activeAreaRight - r.display.rasterPixel) 16 = 16 := by
      rw [hpixel, hright]
      simp only [frameW] at hlast ⊢
      omega
    simp [drawSlice, hscan, harea, hwhole, rasterizedPxlsMax]
  · rw [if_neg hactive]
    by_cases hscan : scanActiveAreaTop ≤ r.display.rasterLine ∧
        r.display.rasterLine < scanActiveAreaTop + activeAreaH
    · have harea : ¬ (r.display.borderLeft ≤ r.display.rasterPixel ∧
          r.display.rasterPixel < r.display.activeAreaRight) := by
        intro hinside
        apply hactive
        rw [hline] at hscan
        rw [hpixel, hborder, hright] at hinside
        simp only [scanActiveAreaTop, activeAreaH] at hscan
        refine ⟨?_, ?_, ?_, ?_⟩ <;> omega
      by_cases hbeyond : r.display.activeAreaRight ≤ r.display.rasterPixel
      · simp [drawSlice, hscan, harea, hbeyond, rasterizedPxlsMax]
      · have hwhole : min (r.display.borderLeft - r.display.rasterPixel) 16 = 16 := by
          rw [hpixel, hborder, hright] at harea
          rw [hpixel, hright] at hbeyond
          rw [hpixel, hborder]
          simp only [frameW] at *
          omega
        simp [drawSlice, hscan, harea, hbeyond, hwhole, rasterizedPxlsMax]
    · simp [drawSlice, hscan, rasterizedPxlsMax]

theorem drawSlice_painted {active border : Int → Raster δ → Raster δ}
    (hactive : Scene.Active (16 * j) → Painted sc fb (16 * j + 16) (active 16 r))
    (hborder : (∀ i < 16, ¬ Scene.Active (16 * j + i)) →
      Painted sc fb (16 * j + 16) (border 16 r))
    (h : Painted sc fb (16 * j) r) (hleft : sc.borderLeft = 128) (hj : 16 * j < frameLen) :
    Painted sc fb (16 * j + 16) (drawSlice active border r) := by
  rw [drawSlice_aligned active border h hleft hj]
  split
  · rename_i hinside
    exact hactive hinside
  · rename_i houtside
    apply hborder
    intro i hi hinside
    exact houtside ((Scene.active_slice hi).mp hinside)

theorem rasterizeActiveArea_mode (dev : Devices δ) (n : Int) (r : Raster δ) :
    r.rasterizeActiveArea dev n = r.fillActiveAreaPortHandling dev r.scene.mode n ∨
      r.rasterizeActiveArea dev n = r.fillActiveArea r.scene.mode n := by
  by_cases hmode : r.io.state.displayMode = false
  · have hscene : r.scene.mode = mode256 := if_pos hmode
    simp only [rasterizeActiveArea, if_pos hmode, hscene]
    split
    · exact .inl rfl
    · exact .inr rfl
  · have hscene : r.scene.mode = mode512 := if_neg hmode
    simp only [rasterizeActiveArea, if_neg hmode, hscene]
    split
    · exact .inl rfl
    · exact .inr rfl

theorem redrawActiveArea_mode (n : Int) (r : Raster δ) :
    r.redrawActiveArea n = r.fillActiveArea r.scene.mode n := by
  by_cases hmode : r.io.state.displayMode = false
  · have hscene : r.scene.mode = mode256 := if_pos hmode
    rw [redrawActiveArea, if_pos hmode, hscene]
    rfl
  · have hscene : r.scene.mode = mode512 := if_neg hmode
    rw [redrawActiveArea, if_neg hmode, hscene]
    rfl

theorem rasterize_painted (dev : Devices δ) (hquiet : sc.Quiet) (hleft : sc.borderLeft = 128)
    (h : Painted sc fb (16 * j) r) (hj : 16 * j + 16 ≤ frameLen) :
    Painted sc fb (16 * j + 16) (r.rasterize dev) := by
  have hbegin : Painted sc fb (16 * j) r.beginRasterize := ⟨h.scene, h.buffer, h.beam⟩
  apply drawSlice_painted _ _ hbegin hleft (by omega)
  · intro hactive
    rcases r.beginRasterize.rasterizeActiveArea_mode dev 16 with hslow | hfast
    · rw [hslow, hbegin.scene]
      exact fillActiveAreaPortHandling_painted dev hquiet hbegin hleft hactive hj
    · rw [hfast, hbegin.scene]
      exact fillActiveArea_painted hbegin hleft hactive hj
  · intro hborder
    simp only [rasterizeBorder]
    split
    · exact fillBorderPortHandling_painted dev (n := 16) hquiet hbegin hj hborder
    · exact fillBorder_painted (n := 16) hbegin hj hborder

theorem redrawSlice_painted (hleft : sc.borderLeft = 128) (h : Painted sc fb (16 * j) r)
    (hj : 16 * j + 16 ≤ frameLen) :
    Painted sc fb (16 * j + 16) (drawSlice redrawActiveArea fillBorder r) := by
  apply drawSlice_painted _ _ h hleft (by omega)
  · intro hactive
    rw [redrawActiveArea_mode, h.scene]
    exact fillActiveArea_painted h hleft hactive hj
  · intro hborder
    exact fillBorder_painted (n := 16) h hj hborder

def rasterizeCalls (dev : Devices δ) (n : Nat) (r : Raster δ) : Raster δ :=
  Runs.after (fun _ => rasterize dev) id r n

theorem rasterizeCalls_painted (dev : Devices δ) (hquiet : sc.Quiet) (hleft : sc.borderLeft = 128)
    (h : Painted sc fb 0 r) {n : Nat} (hn : 16 * n ≤ frameLen) :
    Painted sc fb (16 * n) (r.rasterizeCalls dev n) := by
  refine Runs.after_counted (P := fun i (s : Raster δ) => Painted sc fb (16 * i) s) ?_ h
  intro i s hi hs
  exact rasterize_painted dev hquiet hleft hs (by omega)

theorem redrawSlices_painted (hleft : sc.borderLeft = 128) (h : Painted sc fb 0 r) {n : Nat}
    (hn : 16 * n ≤ frameLen) : Painted sc fb (16 * n) (r.redrawSlices n) := by
  refine Runs.after_counted (P := fun i (s : Raster δ) => Painted sc fb (16 * i) s) ?_ h
  intro i s hi hs
  exact redrawSlice_painted hleft hs (by omega)

theorem Painted.complete (h : Painted sc fb frameLen r) : r.display.frameBuffer = sc.picture := by
  funext i
  rw [h.buffer i, if_pos i.isLt]

theorem frameBuffer_setIdx (idx : Int) (r : Raster δ) :
    (r.setDisplay (Display.setIdx idx)).display.frameBuffer = r.display.frameBuffer := rfl

end Frames

theorem frameLen_eq_slices : 16 * slicesPerFrame = frameLen := by decide

theorem painted_start {r : Raster δ} (hidx : r.display.idx = 0) :
    Painted r.scene r.display.frameBuffer 0 r :=
  ⟨rfl, fun _ => (if_neg (Nat.not_lt_zero _)).symm, fun _ => hidx⟩

theorem frameBuffUpdate_picture {r : Raster δ} (hleft : r.display.borderLeft = 128) :
    r.frameBuffUpdate.display.frameBuffer = r.scene.picture := by
  have hstart : Painted r.scene r.display.frameBuffer 0 (r.setDisplay (Display.setIdx 0)) :=
    painted_start (r := r.setDisplay (Display.setIdx 0)) (Display.idx_setIdx _ (Nat.zero_le _))
  have hdrawn := redrawSlices_painted hleft hstart (Nat.le_of_eq frameLen_eq_slices)
  rw [frameLen_eq_slices] at hdrawn
  rw [frameBuffUpdate, frameBuffer_setIdx]
  exact hdrawn.complete

theorem rasterizeCalls_picture (dev : Devices δ) {r : Raster δ} (hidx : r.display.idx = 0)
    (hquiet : r.scene.Quiet) (hleft : r.display.borderLeft = 128) :
    (r.rasterizeCalls dev slicesPerFrame).display.frameBuffer = r.scene.picture := by
  have hdrawn := rasterizeCalls_painted dev hquiet hleft (painted_start hidx)
    (Nat.le_of_eq frameLen_eq_slices)
  rw [frameLen_eq_slices] at hdrawn
  exact hdrawn.complete

theorem rasterizeCalls_eq_frameBuffUpdate (dev : Devices δ) {r : Raster δ}
    (hidx : r.display.idx = 0) (hquiet : r.scene.Quiet) (hleft : r.display.borderLeft = 128) :
    (r.rasterizeCalls dev slicesPerFrame).display.frameBuffer =
      r.frameBuffUpdate.display.frameBuffer :=
  (rasterizeCalls_picture dev hidx hquiet hleft).trans (frameBuffUpdate_picture hleft).symm

def planesShown : Raster Unit :=
  let io := (Io.new ()).state
  let io := { io with
    palette := fun i => BitVec.ofNat 8 (13 * i.toNat)
    displayMode := true
    ports := { io.ports with portA := 0x20 } }
  ⟨⟨.ofRam fun i => BitVec.ofNat 8 (i.val / 3), (Io.new ()).setState io⟩,
    { Display.new with update := { DisplayUpdate.init with scrollIdx := 0x20 } }⟩

/-- A witness: both show that scene, with two colours side by side. -/
theorem rasterizeCalls_eq_frameBuffUpdate_drawn :
    (planesShown.rasterizeCalls .silent slicesPerFrame).display.frameBuffer =
        planesShown.frameBuffUpdate.display.frameBuffer ∧
      planesShown.frameBuffUpdate.display.frameBuffer ⟨100 * 768 + 200, by decide⟩ ≠
        planesShown.frameBuffUpdate.display.frameBuffer ⟨100 * 768 + 201, by decide⟩ := by
  refine ⟨rasterizeCalls_eq_frameBuffUpdate .silent rfl ⟨rfl, rfl, rfl, rfl⟩ rfl, ?_⟩
  rw [frameBuffUpdate_picture rfl]
  decide +kernel

end Raster

end V6Emul
