import V6Emul.Display.Slice

/-!
# The beam

`BeamAt frame k` says where the beam stands inside a frame and `Beam t` how many
pixels it has drawn since a reset.  Only the border wraps the index; the other
routines are entered at places from which sixteen pixels stay inside the frame.
-/

namespace V6Emul

variable {δ : Type}

/-! ## Positions -/

namespace Display

structure BeamAt (frame : BitVec 64) (k : Nat) (d : Display) : Prop where
  frameNum : d.update.frameNum = frame
  idx : d.idx = k
  sound : d.fault = false

def Beam (t : Nat) (d : Display) : Prop :=
  d.BeamAt (BitVec.ofNat 64 (t / frameLen)) (t % frameLen)

theorem frame_inside {t n : Nat} (h : t % frameLen + n < frameLen) :
    (t + n) / frameLen = t / frameLen ∧ (t + n) % frameLen = t % frameLen + n := by
  simp only [frameLen, frameW, frameH, Nat.reduceMul] at *
  omega

theorem frame_end {t : Nat} (h : t % frameLen + 1 = frameLen) :
    (t + 1) / frameLen = t / frameLen + 1 := by
  simp only [frameLen, frameW, frameH, Nat.reduceMul] at *
  omega

theorem idx_setIdx (d : Display) {k : Nat} (h : k ≤ frameLen) : (d.setIdx k).idx = k := by
  have hrange : (k : Int) < 2 ^ 31 := by
    have hlen : frameLen = 239616 := rfl
    omega
  exact BitVec.toInt_ofInt_eq_self (by decide) (by omega) hrange

theorem wrapFrame_spec {d : Display} {k : Nat} (hidx : d.idx = k) :
    d.wrapFrame.idx = (k % frameLen : Nat) ∧
      d.wrapFrame.update.irq =
        (d.update.irq || decide (((k % frameLen : Nat) : Int) = d.irqCommitPxl)) ∧
      d.wrapFrame.borderLeft = d.borderLeft ∧ d.wrapFrame.irqCommitPxl = d.irqCommitPxl := by
  have hrest : d.idx.tmod frameLen = (k % frameLen : Nat) := by
    rw [hidx]
    exact Int.ofNat_tmod k frameLen
  have hplace : (d.setIdx (k % frameLen : Nat)).idx = (k % frameLen : Nat) :=
    idx_setIdx d (Nat.le_of_lt (Nat.mod_lt k (by decide)))
  simp only [wrapFrame, hrest, hplace]
  split <;> exact ⟨hplace, rfl, rfl, rfl⟩

section Positions

variable {frame : BitVec 64} {k : Nat} {d : Display}

theorem BeamAt.rasterLine (h : d.BeamAt frame k) : d.rasterLine = (k / frameW : Nat) := by
  rw [Display.rasterLine, h.idx]
  exact Int.ofNat_tdiv k frameW

theorem BeamAt.setIdx (h : d.BeamAt frame k) {k' : Nat} (hk : k' ≤ frameLen) :
    (d.setIdx k').BeamAt frame k' := ⟨h.frameNum, idx_setIdx d hk, h.sound⟩

theorem BeamAt.rasterPixel (h : d.BeamAt frame k) : d.rasterPixel = (k % frameW : Nat) := by
  rw [Display.rasterPixel, h.idx]
  exact Int.ofNat_tmod k frameW

theorem BeamAt.store (h : d.BeamAt frame k) (hk : k < frameLen) (color : Color) :
    (d.store color).BeamAt frame (k + 1) := by
  constructor
  · exact h.frameNum
  · rw [Display.store, h.idx]
    exact idx_setIdx _ hk
  · have hinside : decide (0 ≤ d.idx ∧ d.idx < frameLen) = true := by
      rw [h.idx, decide_eq_true_eq]
      omega
    rw [Display.store, Display.setIdx, h.sound, hinside]
    rfl

end Positions

theorem Beam.wrapFrame {t : Nat} {d : Display}
    (h : d.BeamAt (BitVec.ofNat 64 (t / frameLen)) (t % frameLen + 1)) :
    d.wrapFrame.Beam (t + 1) := by
  have hle : t % frameLen + 1 ≤ frameLen := Nat.mod_lt t (by decide)
  have hnew : d.idx.tdiv frameLen = ((t % frameLen + 1) / frameLen : Nat) := by
    rw [h.idx]
    exact Int.ofNat_tdiv _ frameLen
  have hrest : d.idx.tmod frameLen = ((t % frameLen + 1) % frameLen : Nat) := by
    rw [h.idx]
    exact Int.ofNat_tmod _ frameLen
  have hmod : (t % frameLen + 1) % frameLen = (t + 1) % frameLen := Nat.mod_add_mod t frameLen 1
  rw [Display.wrapFrame, hnew, hrest, hmod]
  have hidx := idx_setIdx d (Nat.le_of_lt (Nat.mod_lt (t + 1) (by decide : 0 < frameLen)))
  rcases Nat.lt_or_eq_of_le hle with hinside | hend
  · have hsame := (frame_inside hinside).1
    have hnone : (t % frameLen + 1) / frameLen = 0 := Nat.div_eq_of_lt hinside
    rw [hnone, if_neg (by decide)]
    refine ⟨?_, hidx, h.sound⟩
    rw [hsame]
    exact h.frameNum
  · have hnext := frame_end hend
    have hone : (t % frameLen + 1) / frameLen = 1 := by rw [hend]; decide
    rw [hone, if_pos (by decide)]
    refine ⟨?_, hidx, h.sound⟩
    rw [hnext, BitVec.ofNat_add, ← h.frameNum]
    rfl

end Display

/-! ## Pieces -/

namespace Raster

open Display

@[simp] theorem display_tryToCommit (dev : Devices δ) (colorIdx : BitVec 4) (r : Raster δ) :
    (r.tryToCommit dev colorIdx).display = r.display := rfl

section Pieces

variable {frame : BitVec 64} {k n : Nat} {r : Raster δ}

theorem latchScroll_beamAt (line : Int) (h : r.display.BeamAt frame k) :
    (r.latchScroll line).display.BeamAt frame k := by
  unfold latchScroll
  split
  · exact ⟨h.frameNum, h.idx, h.sound⟩
  · exact h

theorem fillBorder_beamAt (h : r.display.BeamAt frame k) (hn : k + n ≤ frameLen) :
    (r.fillBorder n).display.BeamAt frame (k + n) := by
  refine Runs.after_counted (P := fun i (s : Raster δ) => s.display.BeamAt frame (k + i)) ?_ h
  intro i s hi hs
  exact hs.store (by omega) _

theorem fillActiveArea_beamAt (mode : PixelMode) (h : r.display.BeamAt frame k)
    (hn : k + n ≤ frameLen) : (r.fillActiveArea mode n).display.BeamAt frame (k + n) := by
  refine Runs.after_counted (P := fun i (s : Scan δ) => s.raster.display.BeamAt frame (k + i))
    (s := startScan mode r) ?_ h
  intro i s hi hs
  rw [activePixel, reload_raster]
  exact hs.store (by omega) _

theorem fillActiveAreaPortHandling_beamAt (dev : Devices δ) (mode : PixelMode)
    (h : r.display.BeamAt frame k) (hn : k + n ≤ frameLen) :
    (r.fillActiveAreaPortHandling dev mode n).display.BeamAt frame (k + n) := by
  refine Runs.after_counted (P := fun i (s : Scan δ) => s.raster.display.BeamAt frame (k + i))
    (s := startScan mode r) ?_ h
  intro i s hi hs
  have hlatched := latchScroll_beamAt r.display.rasterLine hs
  rw [activePixelPortHandling, reload_raster]
  exact hlatched.store (by omega) _

theorem rasterizeActiveArea_beamAt (dev : Devices δ) (h : r.display.BeamAt frame k)
    (hn : k + n ≤ frameLen) : (r.rasterizeActiveArea dev n).display.BeamAt frame (k + n) := by
  simp only [rasterizeActiveArea]
  repeat' split
  · exact fillActiveAreaPortHandling_beamAt dev mode256 h hn
  · exact fillActiveAreaPortHandling_beamAt dev mode512 h hn
  · exact fillActiveArea_beamAt mode256 h hn
  · exact fillActiveArea_beamAt mode512 h hn

theorem redrawActiveArea_beamAt (h : r.display.BeamAt frame k) (hn : k + n ≤ frameLen) :
    (r.redrawActiveArea n).display.BeamAt frame (k + n) := by
  unfold redrawActiveArea
  split
  · exact fillActiveArea_beamAt mode256 h hn
  · exact fillActiveArea_beamAt mode512 h hn

end Pieces

section Slices

variable {t n : Nat} {r : Raster δ}

theorem beam_of_beamAt {d : Display} (hn : t % frameLen + n < frameLen)
    (h : d.BeamAt (BitVec.ofNat 64 (t / frameLen)) (t % frameLen + n)) : d.Beam (t + n) := by
  obtain ⟨hdiv, hmod⟩ := frame_inside hn
  rw [Beam, hdiv, hmod]
  exact h

theorem fillBorderPortHandling_beam (dev : Devices δ) (h : r.display.Beam t) :
    (r.fillBorderPortHandling dev n).display.Beam (t + n) := by
  refine Runs.after_counted (P := fun i (s : Raster δ) => s.display.Beam (t + i)) ?_ h
  intro i s _ hs
  exact Beam.wrapFrame (hs.store (Nat.mod_lt _ (by decide)) _)

theorem rasterizeBorder_beam (dev : Devices δ) (h : r.display.Beam t) (hn : n ≤ 16) :
    (r.rasterizeBorder dev n).display.Beam (t + n) := by
  simp only [rasterizeBorder]
  split
  · exact fillBorderPortHandling_beam dev h
  · rename_i hquiet
    have hinside : t % frameLen + n < frameLen := by
      have hline : ¬ r.display.rasterLine = 311 := by
        intro hlast
        simp [hlast] at hquiet
      have hlt := Nat.mod_lt t (by decide : 0 < frameLen)
      rw [h.rasterLine] at hline
      simp only [frameLen, frameW, frameH, Nat.reduceMul] at *
      omega
    exact beam_of_beamAt hinside (fillBorder_beamAt h (Nat.le_of_lt hinside))

theorem ActiveLine.inside {frame : BitVec 64} {k : Nat} (hline : r.ActiveLine)
    (h : r.display.BeamAt frame k) : k + 16 < frameLen := by
  have hbelow := hline.2
  rw [h.rasterLine] at hbelow
  simp only [frameLen, frameW, frameH, scanActiveAreaTop, activeAreaH, Nat.reduceMul] at *
  omega

theorem rasterizeActiveArea_beam (dev : Devices δ) (h : r.display.Beam t)
    (hn : t % frameLen + n < frameLen) :
    (r.rasterizeActiveArea dev n).display.Beam (t + n) :=
  beam_of_beamAt hn (rasterizeActiveArea_beamAt dev h (Nat.le_of_lt hn))

theorem Cut.beam (dev : Devices δ) (h : r.display.Beam t) {u : Raster δ}
    (hcut : Cut (rasterizeActiveArea dev) (rasterizeBorder dev) r u) :
    u.display.Beam (t + 16) := by
  cases hcut with
  | active hline => exact rasterizeActiveArea_beam dev (n := 16) h (hline.inside h)
  | border => exact rasterizeBorder_beam dev (n := 16) h (by decide)
  | activeBorder m n hline hm hn hsum =>
      have hinside := hline.inside h
      have hfirst := rasterizeActiveArea_beam dev (n := m) h (by omega)
      have hboth := rasterizeBorder_beam dev (n := n) hfirst (by omega)
      rwa [Nat.add_assoc, hsum] at hboth
  | borderActive m n hline hm hn hsum =>
      have hinside := hline.inside h
      have hfirst := rasterizeBorder_beam dev (n := m) h (by omega)
      have hmod := (frame_inside (t := t) (n := m) (by omega)).2
      have hboth := rasterizeActiveArea_beam dev (n := n) hfirst (by omega)
      rwa [Nat.add_assoc, hsum] at hboth

theorem rasterize_beam (dev : Devices δ) (h : r.display.Beam t) :
    (r.rasterize dev).display.Beam (t + 16) :=
  Cut.beam dev (r := r.beginRasterize) ⟨h.frameNum, h.idx, h.sound⟩ (drawSlice_cut _ _ _)

/-! ## Redrawing -/

theorem Cut.beamAt {frame : BitVec 64} {k : Nat} (h : r.display.BeamAt frame k)
    (hk : k + 16 ≤ frameLen) {u : Raster δ} (hcut : Cut redrawActiveArea fillBorder r u) :
    u.display.BeamAt frame (k + 16) := by
  cases hcut with
  | active _ => exact redrawActiveArea_beamAt (n := 16) h hk
  | border => exact fillBorder_beamAt (n := 16) h hk
  | activeBorder m n _ hm hn hsum =>
      have hfirst := redrawActiveArea_beamAt (n := m) h (by omega)
      have hboth := fillBorder_beamAt (n := n) hfirst (by omega)
      rwa [Nat.add_assoc, hsum] at hboth
  | borderActive m n _ hm hn hsum =>
      have hfirst := fillBorder_beamAt (n := m) h (by omega)
      have hboth := redrawActiveArea_beamAt (n := n) hfirst (by omega)
      rwa [Nat.add_assoc, hsum] at hboth

theorem redrawSlices_beamAt {frame : BitVec 64} (h : r.display.BeamAt frame 0)
    (hn : 16 * n ≤ frameLen) : (r.redrawSlices n).display.BeamAt frame (16 * n) := by
  refine Runs.after_counted (P := fun i (s : Raster δ) => s.display.BeamAt frame (16 * i)) ?_ h
  intro i s hi hs
  exact (drawSlice_cut redrawActiveArea fillBorder s).beamAt (k := 16 * i) hs (by omega)

theorem frameBuffUpdate_beam (h : r.display.Beam t) : r.frameBuffUpdate.display.Beam t := by
  have hstart : (r.setDisplay (Display.setIdx 0)).display.BeamAt
      (BitVec.ofNat 64 (t / frameLen)) 0 := BeamAt.setIdx h (Nat.zero_le _)
  have hdrawn := redrawSlices_beamAt (n := slicesPerFrame) hstart (by decide)
  rw [frameBuffUpdate, h.idx]
  exact hdrawn.setIdx (Nat.le_of_lt (Nat.mod_lt t (by decide)))

end Slices

/-! ## The frame counter -/

theorem frameNum_fillBorder (n : Int) (r : Raster δ) :
    (r.fillBorder n).display.update.frameNum = r.display.update.frameNum :=
  Runs.after_invariant (fun s : Raster δ => s.display.update.frameNum = r.display.update.frameNum)
    rfl (fun _ h => h) _

theorem frameNum_fillActiveArea (mode : PixelMode) (n : Int) (r : Raster δ) :
    (r.fillActiveArea mode n).display.update.frameNum = r.display.update.frameNum := by
  refine Runs.after_invariant
    (fun s : Scan δ => s.raster.display.update.frameNum = r.display.update.frameNum) rfl ?_ _
  intro _ h
  rw [activePixel, reload_raster]
  exact h

theorem frameNum_redrawActiveArea (n : Int) (r : Raster δ) :
    (r.redrawActiveArea n).display.update.frameNum = r.display.update.frameNum := by
  unfold redrawActiveArea
  split
  · exact frameNum_fillActiveArea mode256 n r
  · exact frameNum_fillActiveArea mode512 n r

theorem Cut.frameNum {r u : Raster δ} (hcut : Cut redrawActiveArea fillBorder r u) :
    u.display.update.frameNum = r.display.update.frameNum := by
  cases hcut <;> simp only [frameNum_redrawActiveArea, frameNum_fillBorder]

theorem frameNum_redrawSlices (n : Nat) (r : Raster δ) :
    (r.redrawSlices n).display.update.frameNum = r.display.update.frameNum := by
  refine Runs.after_invariant
    (fun s : Raster δ => s.display.update.frameNum = r.display.update.frameNum) rfl ?_ n
  intro _ h
  exact (drawSlice_cut redrawActiveArea fillBorder _).frameNum.trans h

theorem frameNum_setIdx (idx : Int) (r : Raster δ) :
    (r.setDisplay (Display.setIdx idx)).display.update.frameNum = r.display.update.frameNum := rfl

theorem frameNum_frameBuffUpdate (r : Raster δ) :
    r.frameBuffUpdate.display.update.frameNum = r.display.update.frameNum := by
  rw [frameBuffUpdate, frameNum_setIdx, frameNum_redrawSlices, frameNum_setIdx]

/-! ## Screen bytes -/

theorem screenAddrs_inside (offset : Addr) : ∀ a ∈ screenAddrs offset, a < memoryGlobalLen := by
  intro a ha
  have hoffset := offset.isLt
  have hlen : memoryGlobalLen = 33 * 65536 := by decide
  simp only [screenAddrs, List.map_cons, List.map_nil, List.mem_cons, List.not_mem_nil,
    or_false] at ha
  omega

end Raster

end V6Emul
