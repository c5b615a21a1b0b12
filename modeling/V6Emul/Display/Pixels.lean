import V6Emul.Display.Commit
import V6Emul.Display.Picture

/-!
# A slice pixel by pixel

The loops for a piece have no state of their own at the end of a turn that a longer
loop would not have, so the first pixels of a slice are those of shorter pieces.
Each pixel either counts the timers or leaves the bus as it is.
-/

namespace V6Emul

variable {δ : Type}

def Bus.drew (b : Bus δ) : Bus δ := { b with io := b.io.log .pixel }

theorem Io.Armed.nonneg {s : Io δ} (h : s.Armed) : 0 ≤ s.state.outCommitTimer.toInt := by
  rcases h with hstopped | hpending
  · rw [hstopped]
    decide
  · rw [hpending]
    decide

namespace Bus

theorem brdColorIdx_tryToCommit (dev : Devices δ) (colorIdx : BitVec 4) {b : Bus δ}
    (h : b.io.Settled) :
    (b.tryToCommit dev colorIdx).io.state.brdColorIdx = b.io.state.brdColorIdx := by
  simp only [tryToCommit, countOut_of_settled dev h, setIoState, Io.setState, countDisplayMode,
    countPalette, IoState.setColor]
  repeat' split
  all_goals rfl

end Bus

namespace Raster

/-! ## Pieces -/

def handlesPorts (r : Raster δ) : Bool :=
  decide (0 < r.io.state.outCommitTimer.toInt) ||
    decide (0 < r.io.state.paletteCommitTimer.toInt) ||
    decide (r.display.rasterLine = scanActiveAreaTop ∧
      r.display.rasterPixel < r.display.borderLeft + rasterizedPxlsMax)

def activeScan (dev : Devices δ) (k : Nat) (r : Raster δ) : Scan δ :=
  Runs.after
    (if r.handlesPorts then
      activePixelPortHandling dev r.scene.mode r.display.rasterLine r.display.rasterLineScrolled
    else activePixel r.scene.mode r.display.rasterLineScrolled)
    id (startScan r.scene.mode r) k

theorem activeScan_succ (dev : Devices δ) (k : Nat) (r : Raster δ) :
    r.activeScan dev (k + 1) = (if r.handlesPorts then
      activePixelPortHandling dev r.scene.mode r.display.rasterLine r.display.rasterLineScrolled
    else activePixel r.scene.mode r.display.rasterLineScrolled) k (r.activeScan dev k) := rfl

theorem rasterizeActiveArea_eq (dev : Devices δ) (k : Nat) (r : Raster δ) :
    r.rasterizeActiveArea dev k = (r.activeScan dev k).raster := by
  by_cases hmode : r.io.state.displayMode = false
  · have hscene : r.scene.mode = mode256 := if_pos hmode
    simp only [rasterizeActiveArea, activeScan, handlesPorts, if_pos hmode, hscene]
    split <;> rfl
  · have hscene : r.scene.mode = mode512 := if_neg hmode
    simp only [rasterizeActiveArea, activeScan, handlesPorts, if_neg hmode, hscene]
    split <;> rfl

theorem rasterizeBorder_eq (dev : Devices δ) (n : Int) {r : Raster δ}
    (h : 0 ≤ r.io.state.outCommitTimer.toInt) :
    r.rasterizeBorder dev n = r.fillBorderPortHandling dev n := by
  simp only [rasterizeBorder, h, decide_true, Bool.true_or, if_true]

def piece (dev : Devices δ) (isActive : Bool) (n : Nat) (r : Raster δ) : Raster δ :=
  if isActive then r.rasterizeActiveArea dev n else r.rasterizeBorder dev n

def pieceColorIdx (dev : Devices δ) (isActive : Bool) (k : Nat) (r : Raster δ) : BitVec 4 :=
  if isActive then
    let s := r.activeScan dev k
    r.scene.mode.colorIdx s.screenBytes (BitVec.ofInt 8 s.bitIdx)
  else (r.rasterizeBorder dev (k + 1 : Nat)).io.state.brdColorIdx

theorem piece_zero (dev : Devices δ) (isActive : Bool) (r : Raster δ) :
    r.piece dev isActive 0 = r := by
  cases isActive with
  | true => exact rasterizeActiveArea_eq dev 0 r
  | false =>
      simp only [piece, Bool.false_eq_true, if_false, rasterizeBorder]
      split <;> rfl

theorem piece_border_succ (dev : Devices δ) {r : Raster δ} (k : Nat)
    (h : 0 ≤ r.io.state.outCommitTimer.toInt) :
    r.piece dev false (k + 1) = (r.piece dev false k).borderPixel dev := by
  simp only [piece, Bool.false_eq_true, if_false, rasterizeBorder_eq dev _ h]
  rfl

theorem piece_active_succ (dev : Devices δ) {r : Raster δ} (k : Nat) :
    (r.piece dev true (k + 1)).toBus =
      if r.handlesPorts then
        ((r.piece dev true k).toBus.tryToCommit dev (r.pieceColorIdx dev true k)).drew
      else (r.piece dev true k).toBus.drew := by
  simp only [piece, pieceColorIdx, if_true, rasterizeActiveArea_eq]
  rw [activeScan_succ]
  split
  · rw [activePixelPortHandling, reload_raster]
    have hlatch : ((r.activeScan dev k).raster.latchScroll r.display.rasterLine).toBus =
        (r.activeScan dev k).raster.toBus := by
      unfold latchScroll
      split <;> rfl
    simp only [tryToCommit, hlatch]
    rfl
  · rw [activePixel, reload_raster]
    rfl

theorem piece_settled (dev : Devices δ) (isActive : Bool) {n : Nat} (hpos : 0 < n) {r : Raster δ}
    (h : r.io.Armed) : (r.piece dev isActive n).io.Settled := by
  have hactive := (rasterizeActiveArea_draws dev hpos h).settled
  have hborder := (rasterizeBorder_draws dev hpos h).settled
  rw [piece]
  split
  · exact hactive
  · exact hborder

def PieceSkips (isActive : Bool) (r : Raster δ) : Prop := isActive = true ∧ r.handlesPorts = false

theorem piece_skip (dev : Devices δ) {isActive : Bool} {r : Raster δ} (k : Nat)
    (h : r.PieceSkips isActive) :
    (r.piece dev isActive (k + 1)).toBus = (r.piece dev isActive k).toBus.drew := by
  obtain ⟨rfl, hports⟩ := h
  rw [piece_active_succ, hports]
  rfl

theorem piece_count (dev : Devices δ) {isActive : Bool} {r : Raster δ} (k : Nat)
    (hout : 0 ≤ r.io.state.outCommitTimer.toInt) (h : ¬ r.PieceSkips isActive) :
    ∃ colorIdx, (r.piece dev isActive (k + 1)).toBus =
        ((r.piece dev isActive k).toBus.tryToCommit dev colorIdx).drew ∧
      ((r.piece dev isActive k).io.Settled → colorIdx = r.pieceColorIdx dev isActive k) := by
  cases isActive with
  | true =>
      have hports : r.handlesPorts = true := by
        by_contra hports
        exact h ⟨rfl, Bool.eq_false_of_not_eq_true hports⟩
      rw [piece_active_succ, hports]
      exact ⟨_, rfl, fun _ => rfl⟩
  | false =>
      have hbus : (r.piece dev false (k + 1)).toBus = ((r.piece dev false k).toBus.tryToCommit dev
          (r.piece dev false k).io.state.brdColorIdx).drew :=
        congrArg toBus (piece_border_succ dev k hout)
      refine ⟨_, hbus, fun hsettled => ?_⟩
      have hshown : r.pieceColorIdx dev false k =
          (r.piece dev false (k + 1)).toBus.io.state.brdColorIdx := rfl
      have hkept := Bus.brdColorIdx_tryToCommit dev (r.piece dev false k).io.state.brdColorIdx hsettled
      rw [hshown, hbus]
      exact hkept.symm

/-- The pixel behind `r` shows entry `colorIdx` of the palette that `r'` has. -/
def Shows (colorIdx : BitVec 4) (r r' : Raster δ) : Prop :=
  ∀ i : Fin frameLen, (i.val : Int) = r.display.idx →
    r'.display.frameBuffer i = vectorColorToArgb (r'.io.state.getColor colorIdx)

theorem frameBuffer_wrapFrame (d : Display) : d.wrapFrame.frameBuffer = d.frameBuffer := by
  simp only [Display.wrapFrame]
  split <;> rfl

theorem store_shows {r r' : Raster δ} (hidx : r'.display.idx = r.display.idx) (colorIdx : BitVec 4) :
    Shows colorIdx r (r'.store (r'.io.state.getColor colorIdx)) := by
  intro i hi
  exact if_pos (hi.trans hidx.symm)

theorem borderPixel_shows (dev : Devices δ) (r : Raster δ) :
    Shows (r.borderPixel dev).io.state.brdColorIdx r (r.borderPixel dev) := by
  have hplace : (r.tryToCommit dev r.io.state.brdColorIdx).display.idx = r.display.idx := rfl
  have hstored := store_shows hplace
    (r.tryToCommit dev r.io.state.brdColorIdx).io.state.brdColorIdx
  intro i hi
  rw [borderPixel, setDisplay, frameBuffer_wrapFrame]
  exact hstored i hi

theorem piece_shows (dev : Devices δ) (isActive : Bool) {r : Raster δ} (k : Nat)
    (hout : 0 ≤ r.io.state.outCommitTimer.toInt) :
    Shows (r.pieceColorIdx dev isActive k) (r.piece dev isActive k)
      (r.piece dev isActive (k + 1)) := by
  cases isActive with
  | true =>
      simp only [piece, pieceColorIdx, if_true, rasterizeActiveArea_eq]
      rw [activeScan_succ]
      split
      · rw [activePixelPortHandling, reload_raster]
        refine store_shows ?_ _
        simp only [display_tryToCommit, latchScroll]
        split <;> rfl
      · rw [activePixel, reload_raster]
        exact store_shows rfl _
  | false =>
      have hpixel := borderPixel_shows dev (r.piece dev false k)
      rw [← piece_border_succ dev k hout] at hpixel
      exact hpixel

structure KeepsSettings (r r' : Raster δ) : Prop where
  borderLeft : r'.display.borderLeft = r.display.borderLeft
  irqCommitPxl : r'.display.irqCommitPxl = r.display.irqCommitPxl

theorem KeepsSettings.trans {r s t : Raster δ} (h : KeepsSettings r s) (h' : KeepsSettings s t) :
    KeepsSettings r t :=
  ⟨h'.borderLeft.trans h.borderLeft, h'.irqCommitPxl.trans h.irqCommitPxl⟩

theorem borderPixel_display (dev : Devices δ) {r : Raster δ} {k : Nat} (hidx : r.display.idx = k)
    (hk : k < frameLen) :
    (r.borderPixel dev).display.idx = ((k + 1) % frameLen : Nat) ∧
      (r.borderPixel dev).display.update.irq = (r.display.update.irq ||
        decide ((((k + 1) % frameLen : Nat) : Int) = r.display.irqCommitPxl)) ∧
      KeepsSettings r (r.borderPixel dev) := by
  have hstored : ((r.tryToCommit dev r.io.state.brdColorIdx).store
      (r.tryToCommit dev r.io.state.brdColorIdx).io.state.getBorderColor).display.idx =
        (k + 1 : Nat) := by
    change (r.display.store _).idx = _
    rw [Display.store, hidx]
    exact Display.idx_setIdx _ (k := k + 1) hk
  obtain ⟨hplace, hirq, hborder, hpixel⟩ := Display.wrapFrame_spec hstored
  rw [borderPixel, setDisplay]
  exact ⟨hplace, hirq, hborder, hpixel⟩

/-! ## Slices -/

def firstPiece (r : Raster δ) : Bool × Nat :=
  let line := r.display.rasterLine
  let pixel := r.display.rasterPixel
  let right := r.display.activeAreaRight
  let isActiveScan := decide (scanActiveAreaTop ≤ line ∧ line < scanActiveAreaTop + activeAreaH)
  let isActiveArea := isActiveScan && decide (r.display.borderLeft ≤ pixel ∧ pixel < right)
  if isActiveArea then (true, (min (right - pixel) rasterizedPxlsMax).toNat)
  else if !isActiveScan || decide (right ≤ pixel) then (false, 16)
  else (false, (min (r.display.borderLeft - pixel) rasterizedPxlsMax).toNat)

theorem firstPiece_pos (r : Raster δ) : 0 < r.firstPiece.2 ∧ r.firstPiece.2 ≤ 16 := by
  simp only [firstPiece, rasterizedPxlsMax]
  split
  · rename_i hactive
    simp only [Bool.and_eq_true, decide_eq_true_eq] at hactive
    omega
  · split
    · simp
    · rename_i hactive hborder
      simp only [Bool.and_eq_true, decide_eq_true_eq, Bool.or_eq_true, Bool.not_eq_true',
        decide_eq_false_iff_not] at hactive hborder
      omega

def rasterizePixels (dev : Devices δ) (k : Nat) (r : Raster δ) : Raster δ :=
  let r := r.beginRasterize
  let (isActive, n) := r.firstPiece
  if k ≤ n then r.piece dev isActive k
  else (r.piece dev isActive n).piece dev (!isActive) (k - n)

/-- The palette entry that pixel `k` of a `Rasterize` call is drawn in, counted from 0. -/
def shownColorIdx (dev : Devices δ) (k : Nat) (r : Raster δ) : BitVec 4 :=
  let r := r.beginRasterize
  let (isActive, n) := r.firstPiece
  if k < n then r.pieceColorIdx dev isActive k
  else (r.piece dev isActive n).pieceColorIdx dev (!isActive) (k - n)

theorem rasterizePixels_zero (dev : Devices δ) (r : Raster δ) :
    r.rasterizePixels dev 0 = r.beginRasterize := by
  simp only [rasterizePixels, Nat.zero_le, if_true, piece_zero]

theorem drawSlice_rest (first second : Int → Raster δ → Raster δ) {n : Int} (hpos : 0 < n)
    (hn : n ≤ 16) (r : Raster δ) :
    (if n < rasterizedPxlsMax then second (rasterizedPxlsMax - n) (first n r) else first n r) =
      if 16 ≤ n.toNat then first (16 : Nat) r
      else second (16 - n.toNat : Nat) (first n.toNat r) := by
  have hlength : ((n.toNat : Nat) : Int) = n := Int.toNat_of_nonneg (Int.le_of_lt hpos)
  simp only [rasterizedPxlsMax]
  split
  · have hrest : ((16 - n.toNat : Nat) : Int) = 16 - n := by omega
    rw [if_neg (by omega), hrest, hlength]
  · have hwhole : n = 16 := by omega
    rw [if_pos (by omega), hwhole]
    rfl

theorem rasterizePixels_slice (dev : Devices δ) (r : Raster δ) :
    r.rasterizePixels dev 16 = r.rasterize dev := by
  rw [rasterizePixels, rasterize]
  generalize r.beginRasterize = r
  have hbounds := r.firstPiece_pos
  simp only [firstPiece, drawSlice, rasterizedPxlsMax] at hbounds ⊢
  split
  · rename_i hactive
    simp only [hactive, if_true] at hbounds
    exact (drawSlice_rest (rasterizeActiveArea dev) (rasterizeBorder dev)
      (n := min (r.display.activeAreaRight - r.display.rasterPixel) 16)
      (by omega) (by omega) r).symm
  · rename_i hactive
    simp only [hactive, Bool.false_eq_true, if_false] at hbounds
    split
    · rfl
    · rename_i hborder
      simp only [hborder, Bool.false_eq_true, if_false] at hbounds
      exact (drawSlice_rest (rasterizeBorder dev) (rasterizeActiveArea dev)
        (n := min (r.display.borderLeft - r.display.rasterPixel) 16)
        (by omega) (by omega) r).symm

def Skips (dev : Devices δ) (k : Nat) (r : Raster δ) : Prop :=
  let r := r.beginRasterize
  let (isActive, n) := r.firstPiece
  if k < n then r.PieceSkips isActive else (r.piece dev isActive n).PieceSkips (!isActive)

theorem rasterizePixels_skip (dev : Devices δ) {r : Raster δ} {k : Nat} (h : r.Skips dev k) :
    (r.rasterizePixels dev (k + 1)).toBus = (r.rasterizePixels dev k).toBus.drew := by
  simp only [rasterizePixels, Skips] at h ⊢
  generalize r.beginRasterize = r at h ⊢
  rcases Nat.lt_or_ge k r.firstPiece.2 with hfirst | hrest
  · rw [if_pos hfirst] at h
    rw [if_pos (Nat.succ_le_of_lt hfirst), if_pos (Nat.le_of_lt hfirst)]
    exact piece_skip dev k h
  · rw [if_neg (Nat.not_lt.mpr hrest)] at h
    rw [if_neg (Nat.not_le.mpr (Nat.lt_succ_of_le hrest)), Nat.succ_sub hrest, piece_skip dev _ h]
    rcases Nat.lt_or_eq_of_le hrest with hinside | hseam
    · rw [if_neg (Nat.not_le.mpr hinside)]
    · rw [← hseam, Nat.sub_self, piece_zero, if_pos (Nat.le_refl _)]

theorem rasterizePixels_count (dev : Devices δ) {r : Raster δ} (harmed : r.io.Armed) {k : Nat}
    (h : ¬ r.Skips dev k) :
    ∃ colorIdx, (r.rasterizePixels dev (k + 1)).toBus =
        ((r.rasterizePixels dev k).toBus.tryToCommit dev colorIdx).drew ∧
      ((r.rasterizePixels dev k).io.Settled → colorIdx = r.shownColorIdx dev k) := by
  simp only [rasterizePixels, Skips, shownColorIdx] at h ⊢
  have harmed : r.beginRasterize.io.Armed := harmed
  generalize r.beginRasterize = r at h harmed ⊢
  have hpos := r.firstPiece_pos.1
  rcases Nat.lt_or_ge k r.firstPiece.2 with hfirst | hrest
  · rw [if_pos hfirst] at h
    rw [if_pos (Nat.succ_le_of_lt hfirst), if_pos (Nat.le_of_lt hfirst), if_pos hfirst]
    exact piece_count dev k harmed.nonneg h
  · rw [if_neg (Nat.not_lt.mpr hrest)] at h
    have hsecond := piece_count dev (k - r.firstPiece.2)
      (piece_settled dev r.firstPiece.1 hpos harmed).armed.nonneg h
    rw [if_neg (Nat.not_le.mpr (Nat.lt_succ_of_le hrest)), Nat.succ_sub hrest,
      if_neg (Nat.not_lt.mpr hrest)]
    rcases Nat.lt_or_eq_of_le hrest with hinside | hseam
    · rw [if_neg (Nat.not_le.mpr hinside)]
      exact hsecond
    · rw [← hseam, Nat.sub_self, piece_zero] at hsecond
      rw [← hseam, Nat.sub_self, if_pos (Nat.le_refl _)]
      exact hsecond

theorem rasterizePixels_shows (dev : Devices δ) {r : Raster δ} (harmed : r.io.Armed) (k : Nat) :
    Shows (r.shownColorIdx dev k) (r.rasterizePixels dev k) (r.rasterizePixels dev (k + 1)) := by
  simp only [rasterizePixels, shownColorIdx]
  have harmed : r.beginRasterize.io.Armed := harmed
  generalize r.beginRasterize = r at harmed ⊢
  rcases Nat.lt_or_ge k r.firstPiece.2 with hfirst | hrest
  · rw [if_pos (Nat.succ_le_of_lt hfirst), if_pos (Nat.le_of_lt hfirst), if_pos hfirst]
    exact piece_shows dev _ k harmed.nonneg
  · have hsettled := piece_settled dev r.firstPiece.1 r.firstPiece_pos.1 harmed
    have hsecond := piece_shows dev (!r.firstPiece.1) (k - r.firstPiece.2)
      hsettled.armed.nonneg
    rw [if_neg (Nat.not_le.mpr (Nat.lt_succ_of_le hrest)), Nat.succ_sub hrest,
      if_neg (Nat.not_lt.mpr hrest)]
    rcases Nat.lt_or_eq_of_le hrest with hinside | hseam
    · rw [if_neg (Nat.not_le.mpr hinside)]
      exact hsecond
    · rw [← hseam, Nat.sub_self, piece_zero] at hsecond
      rw [← hseam, Nat.sub_self, if_pos (Nat.le_refl _)]
      exact hsecond

end Raster

end V6Emul
