import V6Emul.Display.Pixels
import V6Emul.Hardware.PortService

/-!
# The interrupt of a frame

A `Rasterize` call drops the request of the call before it, and a pixel of border
raises it when it brings the beam to `irqCommitPxl`.  A pixel of active area never
does.  The machine cycle of the turn is handed the request, and no other cycle is.
-/

namespace V6Emul

variable {δ : Type}

open Raster (slicesPerFrame)

namespace Raster

/-! ## Pieces -/

/-- Pixel `k` of the frame lies in the active area of a display with this left border. -/
def ActiveAt (borderLeft : Int) (k : Nat) : Prop :=
  40 ≤ k / frameW ∧ k / frameW < 296 ∧ borderLeft ≤ (k % frameW : Nat) ∧
    (k % frameW : Nat) < borderLeft + activeAreaW

instance (borderLeft : Int) (k : Nat) : Decidable (ActiveAt borderLeft k) :=
  inferInstanceAs (Decidable (_ ∧ _))

section Pieces

variable {r : Raster δ} {k n : Nat}

theorem piece_active_display (dev : Devices δ) (hidx : r.display.idx = k) (hn : k + n ≤ frameLen) :
    (r.piece dev true n).display.idx = (k + n : Nat) ∧
      (r.piece dev true n).display.update.irq = r.display.update.irq ∧
      KeepsSettings r (r.piece dev true n) := by
  simp only [piece, if_true, rasterizeActiveArea_eq]
  induction n with
  | zero => exact ⟨hidx, rfl, rfl, rfl⟩
  | succ n ih =>
      obtain ⟨hplace, hirq, hborder, hpixel⟩ := ih (by omega)
      have hstored {s : Raster δ} (color : Byte) (hs : s.display.idx = (k + n : Nat)) :
          (s.store color).display.idx = (k + (n + 1) : Nat) := by
        change (s.display.store _).idx = _
        rw [Display.store, hs]
        exact Display.idx_setIdx _ (k := k + n + 1) hn
      rw [activeScan_succ]
      split
      · rw [activePixelPortHandling, reload_raster, latchScroll]
        split
        · exact ⟨hstored _ hplace, hirq, hborder, hpixel⟩
        · exact ⟨hstored _ hplace, hirq, hborder, hpixel⟩
      · rw [activePixel, reload_raster]
        exact ⟨hstored _ hplace, hirq, hborder, hpixel⟩

theorem piece_border_display (dev : Devices δ) (hout : 0 ≤ r.io.state.outCommitTimer.toInt)
    (hidx : r.display.idx = k) (hn : k + n ≤ frameLen) (hk : k < frameLen) :
    (r.piece dev false n).display.idx = ((k + n) % frameLen : Nat) ∧
      ((r.piece dev false n).display.update.irq = true ↔ r.display.update.irq = true ∨
        ∃ i < n, (((k + i + 1) % frameLen : Nat) : Int) = r.display.irqCommitPxl) ∧
      KeepsSettings r (r.piece dev false n) := by
  induction n with
  | zero =>
      rw [piece_zero, Nat.add_zero, Nat.mod_eq_of_lt hk]
      refine ⟨hidx, ?_, rfl, rfl⟩
      simp
  | succ n ih =>
      obtain ⟨hplace, hirq, hkept⟩ := ih (by omega)
      rw [Nat.mod_eq_of_lt (by omega)] at hplace
      obtain ⟨hnext, hraised, hkept'⟩ := borderPixel_display dev hplace (by omega)
      rw [piece_border_succ dev n hout, hraised, hkept.irqCommitPxl, Bool.or_eq_true, hirq,
        decide_eq_true_eq, or_assoc]
      refine ⟨hnext, or_congr_right ?_, hkept.trans hkept'⟩
      constructor
      · rintro (⟨i, hi, hreached⟩ | hreached)
        · exact ⟨i, by omega, hreached⟩
        · exact ⟨n, by omega, hreached⟩
      · rintro ⟨i, hi, hreached⟩
        rcases Nat.lt_or_eq_of_le (Nat.le_of_lt_succ hi) with hlt | rfl
        · exact .inl ⟨i, hlt, hreached⟩
        · exact .inr hreached

end Pieces

/-! ## Slices -/

section Slices

variable {r : Raster δ} {k : Nat}

theorem firstPiece_activeAt (hidx : r.display.idx = k) (haligned : k % 16 = 0) {i : Nat}
    (hi : i < 16) :
    ActiveAt r.display.borderLeft (k + i) ↔
      if i < r.firstPiece.2 then r.firstPiece.1 = true else r.firstPiece.1 = false := by
  have hrow : r.display.rasterLine = (k / 768 : Nat) := by
    rw [Display.rasterLine, hidx]
    exact Int.ofNat_tdiv k frameW
  have hcolumn : r.display.rasterPixel = (k % 768 : Nat) := by
    rw [Display.rasterPixel, hidx]
    exact Int.ofNat_tmod k frameW
  have hright : r.display.activeAreaRight = r.display.borderLeft + 512 := rfl
  have hrow' : (k + i) / 768 = k / 768 := by omega
  have hcolumn' : (k + i) % 768 = k % 768 + i := by omega
  simp only [ActiveAt, firstPiece, rasterizedPxlsMax, hrow, hcolumn, hrow', hcolumn', hright,
    frameW, activeAreaW, activeAreaH, scanActiveAreaTop]
  by_cases hline : (24 + 16 : Int) ≤ (k / 768 : Nat) ∧ ((k / 768 : Nat) : Int) < 24 + 16 + 256
  · by_cases hinside : r.display.borderLeft ≤ (k % 768 : Nat) ∧
        ((k % 768 : Nat) : Int) < r.display.borderLeft + 512
    · simp only [hline, hinside, and_self, decide_true, Bool.and_self, if_true, Bool.true_eq_false]
      split <;> simp only [iff_true, iff_false] <;> omega
    · by_cases hbeyond : r.display.borderLeft + 512 ≤ (k % 768 : Nat)
      · simp only [hline, hinside, hbeyond, and_self, decide_true, decide_false, Bool.and_false,
          Bool.or_true, Bool.false_eq_true, if_true, if_false, hi, iff_false]
        omega
      · simp only [hline, hinside, hbeyond, and_self, decide_true, decide_false, Bool.and_false,
          Bool.not_true, Bool.or_self, Bool.false_eq_true, if_false]
        split <;> simp only [iff_true, iff_false] <;> omega
  · simp only [hline, decide_false, Bool.false_and, Bool.not_false, Bool.true_or,
      Bool.false_eq_true, if_false, if_true, hi, iff_false]
    omega

theorem frame_room (haligned : k % 16 = 0) (hk : k < frameLen) : k + 16 ≤ frameLen := by
  simp only [frameLen, frameW, frameH] at *
  omega

theorem activeAt_room {borderLeft : Int} {i : Nat} (h : ActiveAt borderLeft (k + i)) (hi : i < 16) :
    k + 16 < frameLen := by
  obtain ⟨-, hrow, -⟩ := h
  simp only [frameLen, frameW, frameH] at *
  omega

theorem rasterize_display (dev : Devices δ) (harmed : r.io.Armed) (hidx : r.display.idx = k)
    (haligned : k % 16 = 0) (hk : k < frameLen) :
    (r.rasterize dev).display.idx = ((k + 16) % frameLen : Nat) ∧
      ((r.rasterize dev).display.update.irq = true ↔ ∃ i < 16,
        ¬ ActiveAt r.display.borderLeft (k + i) ∧
          (((k + i + 1) % frameLen : Nat) : Int) = r.display.irqCommitPxl) ∧
      KeepsSettings r (r.rasterize dev) := by
  have hroom := frame_room haligned hk
  have hsides (i : Nat) (hi : i < 16) := firstPiece_activeAt (r := r.beginRasterize) hidx haligned hi
  obtain ⟨hpos, hlength⟩ := r.beginRasterize.firstPiece_pos
  have hsettled := piece_settled dev r.beginRasterize.firstPiece.1 hpos (r := r.beginRasterize) harmed
  rw [← rasterizePixels_slice, rasterizePixels]
  obtain ⟨isActive, n, hpiece⟩ : ∃ isActive n, r.beginRasterize.firstPiece = (isActive, n) :=
    ⟨_, _, rfl⟩
  rw [hpiece] at hsides hpos hlength hsettled
  simp only [hpiece]
  have hbegin : r.beginRasterize.display.idx = k := hidx
  have hclear : r.beginRasterize.display.update.irq = false := rfl
  have hborder : r.beginRasterize.display.borderLeft = r.display.borderLeft := rfl
  have hpixel : r.beginRasterize.display.irqCommitPxl = r.display.irqCommitPxl := rfl
  have hsame : KeepsSettings r r.beginRasterize := ⟨rfl, rfl⟩
  rw [hborder] at hsides
  cases isActive with
  | true =>
      obtain ⟨hplace, hirq, hkept⟩ := piece_active_display dev hbegin (n := n) (by omega)
      split
      · rename_i hwhole
        obtain rfl : n = 16 := by omega
        have hinside : k + 16 < frameLen :=
          activeAt_room ((hsides 0 (by decide)).mpr rfl) (by omega)
        rw [Nat.mod_eq_of_lt hinside, hirq, hclear]
        refine ⟨hplace, ?_, hsame.trans hkept⟩
        simp only [Bool.false_eq_true, false_iff]
        rintro ⟨i, hi, hoff, -⟩
        exact hoff ((hsides i hi).mpr (if_pos hi ▸ rfl))
      · obtain ⟨hplace', hirq', hkept'⟩ := piece_border_display dev hsettled.armed.nonneg hplace
          (n := 16 - n) (by omega) (by omega)
        have hend : k + n + (16 - n) = k + 16 := by omega
        rw [hend] at hplace'
        refine ⟨hplace', hirq'.trans ?_, hsame.trans (hkept.trans hkept')⟩
        rw [hirq, hclear, hkept.irqCommitPxl, hpixel]
        simp only [Bool.false_eq_true, false_or]
        constructor
        · rintro ⟨i, hi, hreached⟩
          have hoff : ¬ ActiveAt r.display.borderLeft (k + (n + i)) := fun hactive => by
            simpa using (hsides (n + i) (by omega)).mp hactive
          exact ⟨n + i, by omega, hoff, Nat.add_assoc k n i ▸ hreached⟩
        · rintro ⟨i, hi, hoff, hreached⟩
          have hbehind : n ≤ i := by
            by_contra hbefore
            exact hoff ((hsides i hi).mpr (if_pos (Nat.not_le.mp hbefore) ▸ rfl))
          have hplace : k + n + (i - n) = k + i := by omega
          exact ⟨i - n, by omega, hplace ▸ hreached⟩
  | false =>
      have hnonneg : 0 ≤ r.beginRasterize.io.state.outCommitTimer.toInt := Io.Armed.nonneg harmed
      obtain ⟨hplace, hirq, hkept⟩ := piece_border_display dev hnonneg hbegin (n := n) (by omega) hk
      have hbefore : (∃ i < n, (((k + i + 1) % frameLen : Nat) : Int) = r.display.irqCommitPxl) ↔
          ∃ i < 16, ¬ ActiveAt r.display.borderLeft (k + i) ∧
            (((k + i + 1) % frameLen : Nat) : Int) = r.display.irqCommitPxl := by
        constructor
        · rintro ⟨i, hi, hreached⟩
          have hoff : ¬ ActiveAt r.display.borderLeft (k + i) := fun hactive => by
            simpa [hi] using (hsides i (by omega)).mp hactive
          exact ⟨i, by omega, hoff, hreached⟩
        · rintro ⟨i, hi, hoff, hreached⟩
          have hfirst : i < n := by
            by_contra hbehind
            exact hoff ((hsides i hi).mpr (if_neg hbehind ▸ rfl))
          exact ⟨i, hfirst, hreached⟩
      rw [hclear, hpixel] at hirq
      simp only [Bool.false_eq_true, false_or, hbefore] at hirq
      split
      · rename_i hwhole
        obtain rfl : n = 16 := by omega
        exact ⟨hplace, hirq, hsame.trans hkept⟩
      · rw [Nat.mod_eq_of_lt (by omega)] at hplace
        obtain ⟨hplace', hirq', hkept'⟩ := piece_active_display dev hplace (n := 16 - n) (by omega)
        have hinside : k + 16 < frameLen :=
          activeAt_room (hsides 15 (by decide) |>.mpr (if_neg (by omega) ▸ rfl)) (by omega)
        have hend : k + n + (16 - n) = k + 16 := by omega
        rw [hend] at hplace'
        rw [Nat.mod_eq_of_lt hinside]
        refine ⟨hplace', ?_, hsame.trans (hkept.trans hkept')⟩
        change (piece dev true (16 - n) (r.beginRasterize.piece dev false n)).display.update.irq =
          true ↔ _
        rw [hirq']
        exact hirq

end Slices

end Raster

namespace Hardware

/-! ## Turns -/

/-- `IsIRQ()` behind the `Rasterize` call of a turn; its machine cycle is handed this. -/
def isIrq (dev : Devices δ) (h : Hardware δ) : Bool := (h.rasterize dev).display.update.irq

/-- The sixteen pixels of the turn bring the beam to `irqCommitPxl`. -/
def Reaches (h : Hardware δ) : Prop :=
  ∃ i < 16, (h.display.idx + (i + 1 : Nat)).tmod frameLen = h.display.irqCommitPxl

/-- The states before the turns of a run.  What lies between two turns (the end of an
instruction, the debugger, requests) leaves the display and the slot of the ports. -/
structure Turns (dev : Devices δ) (h : Nat → Hardware δ) : Prop where
  armed : (h 0).io.Armed
  display : ∀ t, (h (t + 1)).display = ((h t).machineCycle dev).display
  outCommitTimer : ∀ t, (h (t + 1)).io.state.outCommitTimer =
    ((h t).machineCycle dev).io.state.outCommitTimer

theorem armed_machineCycle (dev : Devices δ) {h : Hardware δ} (harmed : h.io.Armed) :
    (h.machineCycle dev).io.Armed := by
  obtain ⟨-, hsettled⟩ := h.raster.rasterize_events dev harmed
  exact (executeMachineCycle_io dev (h := h.rasterize dev) hsettled).1

section Frame

variable {dev : Devices δ} {h : Nat → Hardware δ} {j p : Nat}

theorem rasterize_slice (dev : Devices δ) {h : Hardware δ} (harmed : h.io.Armed) {i : Nat}
    (hplace : h.display.idx = (16 * (i % slicesPerFrame) : Nat)) :
    (h.raster.rasterize dev).display.idx = ((16 * (i % slicesPerFrame) + 16) % frameLen : Nat) ∧
      ((h.raster.rasterize dev).display.update.irq = true ↔ ∃ k < 16,
        ¬ Raster.ActiveAt h.raster.display.borderLeft (16 * (i % slicesPerFrame) + k) ∧
          (((16 * (i % slicesPerFrame) + k + 1) % frameLen : Nat) : Int) =
            h.raster.display.irqCommitPxl) ∧
      Raster.KeepsSettings h.raster (h.raster.rasterize dev) := by
  have hlt : i % slicesPerFrame < slicesPerFrame := Nat.mod_lt _ (by decide)
  have hframe := Raster.frameLen_eq_slices
  exact Raster.rasterize_display dev harmed hplace (by omega) (by omega)

theorem Turns.beam (hturns : Turns dev h) (hidx : (h 0).display.idx = (16 * j : Nat))
    (hj : j < slicesPerFrame) (t : Nat) :
    (h t).io.Armed ∧ (h t).display.idx = (16 * ((j + t) % slicesPerFrame) : Nat) ∧
      Raster.KeepsSettings (h 0).raster (h t).raster := by
  induction t with
  | zero =>
      rw [Nat.add_zero, Nat.mod_eq_of_lt hj]
      exact ⟨hturns.armed, hidx, rfl, rfl⟩
  | succ t ih =>
      obtain ⟨harmed, hplace, hkept⟩ := ih
      have hslot : (h (t + 1)).io.Armed := by
        have hcycle := armed_machineCycle dev harmed
        rwa [Io.Armed, ← hturns.outCommitTimer t] at hcycle
      obtain ⟨hnext, -, hsettings⟩ := rasterize_slice dev harmed hplace
      have hdisplay : (h (t + 1)).raster.display = ((h t).raster.rasterize dev).display :=
        hturns.display t
      refine ⟨hslot, ?_, hkept.trans ⟨?_, ?_⟩⟩
      · change (h (t + 1)).raster.display.idx = _
        rw [hdisplay, hnext]
        simp only [slicesPerFrame, frameLen, frameW, frameH, Nat.reduceMul, Nat.reduceDiv]
        omega
      · rw [hdisplay, hsettings.borderLeft]
      · rw [hdisplay, hsettings.irqCommitPxl]

/-- The pixel in front of `irqCommitPxl`, around the end of the frame. -/
def pixelBefore (p : Nat) : Nat := (p + (frameLen - 1)) % frameLen

theorem pixelBefore_iff {k : Nat} (hk : k < frameLen) (hp : p < frameLen) :
    (k + 1) % frameLen = p ↔ k = pixelBefore p := by
  simp only [pixelBefore, frameLen, frameW, frameH, Nat.reduceMul, Nat.reduceSub] at *
  omega

/-- A turn requests the interrupt when its slice has the pixel in front of `irqCommitPxl` and
that is border. -/
theorem Turns.isIrq_iff (hturns : Turns dev h) (hidx : (h 0).display.idx = (16 * j : Nat))
    (hj : j < slicesPerFrame) (hpixel : (h 0).display.irqCommitPxl = p) (hp : p < frameLen) (t : Nat) :
    (h t).isIrq dev = true ↔ ¬ Raster.ActiveAt (h 0).display.borderLeft (pixelBefore p) ∧
      (j + t) % slicesPerFrame = pixelBefore p / 16 := by
  obtain ⟨harmed, hplace, hkept⟩ := hturns.beam hidx hj t
  obtain ⟨-, hirq, -⟩ := rasterize_slice dev harmed hplace
  have hborder : (h t).raster.display.borderLeft = (h 0).display.borderLeft := hkept.borderLeft
  have hcommit : (h t).raster.display.irqCommitPxl = p := hkept.irqCommitPxl.trans hpixel
  have hreached (i : Nat) (hi : i < 16) :
      (((16 * ((j + t) % slicesPerFrame) + i + 1) % frameLen : Nat) : Int) = p ↔
        16 * ((j + t) % slicesPerFrame) + i = pixelBefore p := by
    have hlt : (j + t) % slicesPerFrame < slicesPerFrame := Nat.mod_lt _ (by decide)
    have hframe := Raster.frameLen_eq_slices
    rw [Int.ofNat_inj]
    exact pixelBefore_iff (by omega) hp
  change ((h t).raster.rasterize dev).display.update.irq = true ↔ _
  rw [hirq, hborder, hcommit]
  constructor
  · rintro ⟨i, hi, hoff, hpixel⟩
    rw [hreached i hi] at hpixel
    rw [hpixel] at hoff
    exact ⟨hoff, by omega⟩
  · rintro ⟨hoff, hslice⟩
    have hhere : 16 * ((j + t) % slicesPerFrame) + pixelBefore p % 16 = pixelBefore p := by omega
    have hlt : pixelBefore p % 16 < 16 := Nat.mod_lt _ (by decide)
    exact ⟨pixelBefore p % 16, hlt, by rwa [hhere], (hreached _ hlt).mpr hhere⟩

theorem Turns.reaches_iff (hturns : Turns dev h) (hidx : (h 0).display.idx = (16 * j : Nat))
    (hj : j < slicesPerFrame) (hpixel : (h 0).display.irqCommitPxl = p) (hp : p < frameLen) (t : Nat) :
    (h t).Reaches ↔ (j + t) % slicesPerFrame = pixelBefore p / 16 := by
  obtain ⟨-, hplace, hkept⟩ := hturns.beam hidx hj t
  have hcommit : (h t).display.irqCommitPxl = p := hkept.irqCommitPxl.trans hpixel
  have hlt : (j + t) % slicesPerFrame < slicesPerFrame := Nat.mod_lt _ (by decide)
  have hframe := Raster.frameLen_eq_slices
  have hmod (i : Nat) : ((16 * ((j + t) % slicesPerFrame) : Nat) + ((i + 1 : Nat) : Int)).tmod
      frameLen = ((16 * ((j + t) % slicesPerFrame) + i + 1) % frameLen : Nat) :=
    Int.ofNat_tmod (16 * ((j + t) % slicesPerFrame) + i + 1) frameLen
  rw [Reaches, hplace, hcommit]
  constructor
  · rintro ⟨i, hi, hreached⟩
    rw [hmod, Int.ofNat_inj, pixelBefore_iff (by omega) hp] at hreached
    omega
  · intro hslice
    refine ⟨pixelBefore p % 16, Nat.mod_lt _ (by decide), ?_⟩
    rw [hmod, Int.ofNat_inj, pixelBefore_iff (by omega) hp]
    omega

/-- In a frame of turns, the one that brings the beam to `irqCommitPxl` and no other requests
the interrupt if the pixel in front of it is border; else none does. -/
theorem Turns.frame_isIrq (hturns : Turns dev h) (hidx : (h 0).display.idx = (16 * j : Nat))
    (hj : j < slicesPerFrame) (hpixel : (h 0).display.irqCommitPxl = p) (hp : p < frameLen) :
    (¬ Raster.ActiveAt (h 0).display.borderLeft (pixelBefore p) →
      ∃ t < slicesPerFrame, (h t).Reaches ∧
        ∀ t' < slicesPerFrame, (h t').isIrq dev = true ↔ t' = t) ∧
    (Raster.ActiveAt (h 0).display.borderLeft (pixelBefore p) →
      ∀ t < slicesPerFrame, (h t).isIrq dev = false) := by
  constructor
  · intro hborder
    have hlt : pixelBefore p < frameLen := Nat.mod_lt _ (by decide)
    have hunique {t : Nat} (ht : t < slicesPerFrame) : (j + t) % slicesPerFrame = pixelBefore p / 16 ↔
        t = (pixelBefore p / 16 + (slicesPerFrame - j)) % slicesPerFrame := by
      simp only [slicesPerFrame, frameLen, frameW, frameH, Nat.reduceMul, Nat.reduceDiv] at *
      omega
    have hfound : (pixelBefore p / 16 + (slicesPerFrame - j)) % slicesPerFrame < slicesPerFrame :=
      Nat.mod_lt _ (by decide)
    refine ⟨_, hfound, ?_, fun t' ht' => ?_⟩
    · exact (hturns.reaches_iff hidx hj hpixel hp _).mpr ((hunique hfound).mpr rfl)
    · rw [hturns.isIrq_iff hidx hj hpixel hp, hunique ht']
      exact and_iff_right hborder
  · intro hactive t _
    by_contra hraised
    exact ((hturns.isIrq_iff hidx hj hpixel hp t).mp (Bool.eq_true_of_not_eq_false hraised)).1 hactive

end Frame

def cycles (dev : Devices δ) (h : Hardware δ) : Nat → Hardware δ :=
  Runs.after (fun _ => machineCycle dev) id h

theorem turns_cycles (dev : Devices δ) {h : Hardware δ} (harmed : h.io.Armed) :
    Turns dev (h.cycles dev) := ⟨harmed, fun _ => rfl, fun _ => rfl⟩

def withIrqCommitPxl (irqCommitPxl : Int) : Hardware Unit :=
  (ofRam (fun _ => 0) ()).handle (.setDisplayIrqCommitPxl irqCommitPxl)

theorem frame_isIrq_default :
    ∃ t < slicesPerFrame, ((withIrqCommitPxl 112).cycles .silent t).Reaches ∧
      ∀ t' < slicesPerFrame, ((withIrqCommitPxl 112).cycles .silent t').isIrq .silent = true ↔
        t' = t :=
  ((turns_cycles .silent (h := withIrqCommitPxl 112) (.inl rfl)).frame_isIrq (j := 0) (p := 112)
    rfl (by decide) rfl (by decide)).1 (by decide)

/-- In the middle of the active area no turn of the frame requests it. -/
theorem frame_isIrq_missed :
    (77100 : Nat) < frameLen ∧ (withIrqCommitPxl 77100).display.irqCommitPxl = (77100 : Nat) ∧
    (withIrqCommitPxl 77100).display.borderLeft = borderLeftDefault ∧
    (withIrqCommitPxl 77100).display.idx = 0 ∧
    ∀ t < slicesPerFrame, ((withIrqCommitPxl 77100).cycles .silent t).isIrq .silent = false := by
  have hturns := turns_cycles .silent (h := withIrqCommitPxl 77100) (.inl rfl)
  refine ⟨by decide, rfl, rfl, rfl, fun t _ => ?_⟩
  by_contra hraised
  have hborder := ((hturns.isIrq_iff (j := 0) (p := 77100) rfl (by decide) rfl (by decide) t).mp
    (Bool.eq_true_of_not_eq_false hraised)).1
  exact hborder (by decide)

end Hardware

end V6Emul
