import V6Emul.Display.Model

/-!
# How a slice is cut

A slice lies in the border, lies in the active area, or is cut once where the two
meet.  Every piece has at least one pixel and the pieces together have sixteen.
-/

namespace V6Emul

structure IoState.Idle (s : IoState) : Prop where
  outCommit : Bus.running s.outCommitTimer = false
  paletteCommit : Bus.running s.paletteCommitTimer = false
  displayMode : Bus.running s.displayModeTimer = false

namespace Raster

variable {δ : Type}

def ActiveLine (r : Raster δ) : Prop :=
  scanActiveAreaTop ≤ r.display.rasterLine ∧
    r.display.rasterLine < scanActiveAreaTop + activeAreaH

theorem ActiveLine.place {r : Raster δ} (h : r.ActiveLine) :
    ∃ k : Nat, r.display.idx = k ∧ 40 ≤ k / frameW ∧ k / frameW < 296 ∧
      r.display.rasterLine = (k / frameW : Nat) ∧ r.display.rasterPixel = (k % frameW : Nat) := by
  obtain ⟨htop, hbottom⟩ := h
  have hnonneg : 0 ≤ r.display.idx := by
    by_contra hneg
    have hline : 0 ≤ -(r.display.idx.tdiv frameW) :=
      Int.neg_tdiv .. ▸ Int.tdiv_nonneg (by omega) (by decide)
    simp only [Display.rasterLine, scanActiveAreaTop] at htop
    omega
  obtain ⟨k, hk⟩ := Int.eq_ofNat_of_zero_le hnonneg
  have hline : r.display.rasterLine = (k / frameW : Nat) := by
    rw [Display.rasterLine, hk]
    exact Int.ofNat_tdiv k frameW
  have hpixel : r.display.rasterPixel = (k % frameW : Nat) := by
    rw [Display.rasterPixel, hk]
    exact Int.ofNat_tmod k frameW
  simp only [hline, scanActiveAreaTop, activeAreaH] at htop hbottom
  exact ⟨k, hk, by omega, by omega, hline, hpixel⟩

inductive Cut (active border : Int → Raster δ → Raster δ) (r : Raster δ) : Raster δ → Prop where
  | active : r.ActiveLine → Cut active border r (active 16 r)
  | activeBorder (m n : Nat) : r.ActiveLine → 0 < m → 0 < n → m + n = 16 →
      Cut active border r (border n (active m r))
  | border : Cut active border r (border 16 r)
  | borderActive (m n : Nat) : r.ActiveLine → 0 < m → 0 < n → m + n = 16 →
      Cut active border r (active n (border m r))

theorem exists_cut {n : Int} (hpos : 0 < n) (hlt : n < 16) :
    ∃ k l : Nat, 0 < k ∧ 0 < l ∧ k + l = 16 ∧ n = k ∧ 16 - n = l :=
  ⟨n.toNat, (16 - n).toNat, by omega, by omega, by omega, by omega, by omega⟩

theorem drawSlice_cut (active border : Int → Raster δ → Raster δ) (r : Raster δ) :
    Cut active border r (drawSlice active border r) := by
  unfold drawSlice
  by_cases hscan : scanActiveAreaTop ≤ r.display.rasterLine ∧
      r.display.rasterLine < scanActiveAreaTop + activeAreaH
  · by_cases harea : r.display.borderLeft ≤ r.display.rasterPixel ∧
        r.display.rasterPixel < r.display.activeAreaRight
    · simp only [hscan, harea, and_self, decide_true, Bool.and_self, if_true, rasterizedPxlsMax]
      by_cases hlt : min (r.display.activeAreaRight - r.display.rasterPixel) 16 < 16
      · obtain ⟨m, n, hm, hn, hsum, hfirst, hrest⟩ := exists_cut (by omega) hlt
        rw [if_pos hlt, hrest, hfirst]
        exact .activeBorder m n hscan hm hn hsum
      · have hwhole : min (r.display.activeAreaRight - r.display.rasterPixel) 16 = 16 := by omega
        rw [if_neg hlt, hwhole]
        exact .active hscan
    · simp only [hscan, harea, and_self, decide_true, decide_false, Bool.true_and, Bool.not_true,
        Bool.false_or, decide_eq_true_eq, Bool.false_eq_true, if_false, rasterizedPxlsMax]
      by_cases hright : r.display.activeAreaRight ≤ r.display.rasterPixel
      · simp only [hright, if_true]
        exact .border
      · simp only [hright, if_false]
        by_cases hlt : min (r.display.borderLeft - r.display.rasterPixel) 16 < 16
        · obtain ⟨m, n, hm, hn, hsum, hfirst, hrest⟩ := exists_cut (by omega) hlt
          rw [if_pos hlt, hrest, hfirst]
          exact .borderActive m n hscan hm hn hsum
        · have hwhole : min (r.display.borderLeft - r.display.rasterPixel) 16 = 16 := by omega
          rw [if_neg hlt, hwhole]
          exact .border
  · simp only [hscan, decide_false, Bool.false_and, Bool.not_false, Bool.true_or, if_true,
      Bool.false_eq_true, if_false, rasterizedPxlsMax]
    exact .border

/-! ## Turns of the loops -/

theorem tryToCommit_idle (dev : Devices δ) (colorIdx : BitVec 4) {r : Raster δ}
    (h : r.io.state.Idle) : r.tryToCommit dev colorIdx = r := by
  obtain ⟨hout, hpalette, hmode⟩ := h
  simp [tryToCommit, Bus.tryToCommit, Bus.countOut, Bus.countPalette, Bus.countDisplayMode,
    Bus.setIoState, Io.setState, hout, hpalette, hmode]

theorem latchScroll_io (line : Int) (r : Raster δ) : (r.latchScroll line).io = r.io := by
  unfold latchScroll
  split <;> rfl

theorem reload_raster (mode : PixelMode) (lineScrolled pixel : Int) (s : Scan δ) :
    (reload mode lineScrolled pixel s).raster = s.raster := by
  unfold reload
  split <;> rfl

end Raster

end V6Emul
