import V6Emul.Display.Pixels
import V6Emul.Hardware.Model

/-!
# The latency of an `OUT`

An `OUT` reaches its port on the first pixel behind its machine cycle, a palette
entry changes on the fifth and the display mode on the eighth.  A slice has sixteen
pixels, so all of it happens in the `Rasterize` call that follows.
-/

namespace V6Emul

variable {δ : Type}

/-! ## Counting a pixel -/

def IoState.registers (s : IoState) : IoState :=
  { s with
    palette := fun _ => 0
    displayMode := false
    outCommitTimer := 0
    paletteCommitTimer := 0
    displayModeTimer := 0 }

namespace Bus

def registers (b : Bus δ) : Memory × IoState × δ := (b.mem, b.io.state.registers, b.io.devices)

theorem registers_portOutHandling (dev : Devices δ) (port value : Byte) {b b' : Bus δ}
    (h : b.registers = b'.registers) :
    (b.portOutHandling dev port value).registers = (b'.portOutHandling dev port value).registers := by
  obtain ⟨mem, ⟨state, _, _, _, devices, _⟩⟩ := b
  obtain ⟨mem', ⟨state', _, _, _, devices', _⟩⟩ := b'
  obtain ⟨rfl, hstate, rfl⟩ : mem = mem' ∧ state.registers = state'.registers ∧ devices = devices' := by
    simpa [registers] using h
  cases state
  cases state'
  simp only [IoState.registers, IoState.mk.injEq, true_and] at hstate
  obtain ⟨rfl, rfl, rfl, rfl, rfl, rfl, rfl, rfl, rfl, rfl⟩ := hstate
  unfold portOutHandling
  split
  case h_1 =>
    simp only [registers, setIoState, Io.setState, IoState.writeControl, IoState.latchRuslat]
    split <;> rfl
  all_goals rfl

structure KeepsTimers (s s' : IoState) : Prop where
  palette : s'.palette = s.palette
  displayMode : s'.displayMode = s.displayMode
  outCommitTimer : s'.outCommitTimer = s.outCommitTimer
  paletteCommitTimer : s'.paletteCommitTimer = s.paletteCommitTimer
  displayModeTimer : s'.displayModeTimer = s.displayModeTimer

theorem portOutHandling_keepsTimers (dev : Devices δ) (port value : Byte) (b : Bus δ) :
    KeepsTimers b.io.state (b.portOutHandling dev port value).io.state := by
  unfold portOutHandling
  split
  case h_1 =>
    simp only [setIoState, Io.setState, IoState.writeControl, IoState.latchRuslat]
    split <;> exact ⟨rfl, rfl, rfl, rfl, rfl⟩
  all_goals exact ⟨rfl, rfl, rfl, rfl, rfl⟩

theorem hwColor_portOutHandling (dev : Devices δ) {port : Byte} (value : Byte)
    (h : isPaletteEntry port = true) (b : Bus δ) :
    (b.portOutHandling dev port value).io.state.hwColor = value := by
  have hport : port = 0x0C ∨ port = 0x0D ∨ port = 0x0E ∨ port = 0x0F := by
    simp only [isPaletteEntry, Bool.and_eq_true, decide_eq_true_eq] at h
    bv_omega
  rcases hport with rfl | rfl | rfl | rfl <;> rfl

theorem reqDisplayMode_portOutHandling (dev : Devices δ) (value : Byte) (b : Bus δ) :
    (b.portOutHandling dev portOutDisplayMode value).io.state.reqDisplayMode =
      value.getLsbD 4 := rfl

def count (timer : Byte) : Byte := if running timer then timer - 1 else timer

theorem toInt_count (timer : Byte) :
    (count timer).toInt = if 0 < timer.toInt then timer.toInt - 1 else timer.toInt := by
  have hstep : 0 < timer.toInt → (timer - 1).toInt = timer.toInt - 1 := by
    intro hpos
    have hone : (1 : Byte).toInt = 1 := by decide
    have hle := BitVec.toInt_le (x := timer)
    rw [BitVec.toInt_sub, hone, Int.bmod_eq_of_le] <;> omega
  by_cases hpos : 0 < timer.toInt
  · rw [count, running, if_pos (decide_eq_true hpos), if_pos hpos, hstep hpos]
  · rw [count, running, if_neg (by simpa using hpos), if_neg hpos]

theorem running_of_one {timer : Byte} (h : timer = 1) : running timer = true := by
  rw [h]
  decide

theorem countPalette_eq (colorIdx : BitVec 4) (s : IoState) :
    countPalette colorIdx s = { s with
      paletteCommitTimer := count s.paletteCommitTimer
      palette := if s.paletteCommitTimer = 1 then
        Function.update s.palette colorIdx.toFin s.hwColor else s.palette } := by
  simp only [countPalette, count]
  split
  · simp only [sub_eq_zero]
    split <;> rfl
  · rename_i hstopped
    rw [if_neg fun hone => hstopped (running_of_one hone)]

theorem countDisplayMode_eq (s : IoState) :
    countDisplayMode s = { s with
      displayModeTimer := count s.displayModeTimer
      displayMode := if s.displayModeTimer = 1 then s.reqDisplayMode else s.displayMode } := by
  simp only [countDisplayMode, count]
  split
  · simp only [sub_eq_zero]
    split <;> rfl
  · rename_i hstopped
    rw [if_neg fun hone => hstopped (running_of_one hone)]

structure Counted (dev : Devices δ) (colorIdx : BitVec 4) (b b' : Bus δ) : Prop where
  outCommitTimer : b'.io.state.outCommitTimer = count b.io.state.outCommitTimer
  paletteCommitTimer : b'.io.state.paletteCommitTimer = count b.io.state.paletteCommitTimer
  displayModeTimer : b'.io.state.displayModeTimer = count b.io.state.displayModeTimer
  registers : b'.registers = if b.io.state.outCommitTimer = 1 then
    (b.portOutHandling dev b.io.state.outport b.io.state.outbyte).registers else b.registers
  palette : b'.io.state.palette = if b.io.state.paletteCommitTimer = 1 then
    Function.update b.io.state.palette colorIdx.toFin b'.io.state.hwColor else b.io.state.palette
  displayMode : b'.io.state.displayMode = if b.io.state.displayModeTimer = 1 then
    b'.io.state.reqDisplayMode else b.io.state.displayMode

theorem Counted.drew {dev : Devices δ} {colorIdx : BitVec 4} {b b' : Bus δ}
    (h : Counted dev colorIdx b b') : Counted dev colorIdx b b'.drew :=
  ⟨h.outCommitTimer, h.paletteCommitTimer, h.displayModeTimer, h.registers, h.palette,
    h.displayMode⟩

theorem countOut_spec (dev : Devices δ) (b : Bus δ) :
    (b.countOut dev).io.state.outCommitTimer = count b.io.state.outCommitTimer ∧
      (b.countOut dev).registers = (if b.io.state.outCommitTimer = 1 then
        (b.portOutHandling dev b.io.state.outport b.io.state.outbyte).registers
        else b.registers) ∧
      (b.countOut dev).io.state.palette = b.io.state.palette ∧
      (b.countOut dev).io.state.displayMode = b.io.state.displayMode ∧
      (b.countOut dev).io.state.paletteCommitTimer = b.io.state.paletteCommitTimer ∧
      (b.countOut dev).io.state.displayModeTimer = b.io.state.displayModeTimer := by
  by_cases hone : b.io.state.outCommitTimer = 1
  · have hkept := portOutHandling_keepsTimers dev b.io.state.outport b.io.state.outbyte b.committing
    have hsame : b.committing.registers = b.registers := rfl
    have hregisters := registers_portOutHandling dev b.io.state.outport b.io.state.outbyte hsame
    rw [countOut_of_due dev hone, if_pos hone, hone]
    exact ⟨hkept.outCommitTimer, hregisters, hkept.palette, hkept.displayMode,
      hkept.paletteCommitTimer, hkept.displayModeTimer⟩
  · rw [if_neg hone]
    simp only [countOut, count]
    split
    · simp only [sub_eq_zero, if_neg hone]
      exact ⟨rfl, rfl, rfl, rfl, rfl, rfl⟩
    · exact ⟨rfl, rfl, rfl, rfl, rfl, rfl⟩

theorem tryToCommit_counted (dev : Devices δ) (colorIdx : BitVec 4) (b : Bus δ) :
    Counted dev colorIdx b (b.tryToCommit dev colorIdx) := by
  obtain ⟨hout, hregisters, hpalette, hmode, hpaletteTimer, hmodeTimer⟩ := b.countOut_spec dev
  rw [tryToCommit, setIoState, countPalette_eq, countDisplayMode_eq]
  constructor
  · exact hout
  · exact congrArg count hpaletteTimer
  · exact congrArg count hmodeTimer
  · exact hregisters
  · simp only [Io.setState, hpaletteTimer, hpalette]
  · simp only [Io.setState, hmodeTimer, hmode]

end Bus

namespace Raster

/-! ## Pixels of a slice -/

section Slice

variable {r : Raster δ} {k m : Nat}

theorem pixel_counted (dev : Devices δ) (harmed : r.io.Armed) (h : ¬ r.Skips dev k) :
    ∃ colorIdx, Bus.Counted dev colorIdx (r.rasterizePixels dev k).toBus
        (r.rasterizePixels dev (k + 1)).toBus ∧
      ((r.rasterizePixels dev k).io.Settled → colorIdx = r.shownColorIdx dev k) := by
  obtain ⟨colorIdx, hbus, hshown⟩ := rasterizePixels_count dev harmed h
  have hcounted := Bus.tryToCommit_counted dev colorIdx (r.rasterizePixels dev k).toBus
  exact ⟨colorIdx, hbus ▸ hcounted.drew, hshown⟩

theorem pixel_skipped (dev : Devices δ) (h : r.Skips dev k) :
    (r.rasterizePixels dev (k + 1)).io.state = (r.rasterizePixels dev k).io.state ∧
      (r.rasterizePixels dev (k + 1)).toBus.registers =
        (r.rasterizePixels dev k).toBus.registers := by
  rw [rasterizePixels_skip dev h]
  exact ⟨rfl, rfl⟩

theorem pixels_skipped (dev : Devices δ) (hmk : m ≤ k) (h : ∀ j, m ≤ j → j < k → r.Skips dev j) :
    (r.rasterizePixels dev k).io.state = (r.rasterizePixels dev m).io.state := by
  induction k with
  | zero => rw [Nat.le_zero.mp hmk]
  | succ k ih =>
      rcases Nat.lt_or_eq_of_le hmk with hlt | heq
      · have hmk' := Nat.le_of_lt_succ hlt
        rw [(pixel_skipped dev (h k hmk' (Nat.lt_succ_self k))).1]
        exact ih hmk' fun j hj hjk => h j hj (Nat.lt_succ_of_lt hjk)
      · rw [heq]

/-- The pixels that skip the timers are those behind the seam of a piece whose loop does, where
neither the timer of the slot nor that of the palette is running. -/
theorem Skips.stopped (dev : Devices δ) (h : r.Skips dev k) :
    (r.rasterizePixels dev k).io.state.outCommitTimer.toInt ≤ 0 ∧
      (r.rasterizePixels dev k).io.state.paletteCommitTimer.toInt ≤ 0 := by
  have hstopped {r : Raster δ} (hports : r.handlesPorts = false) :
      r.io.state.outCommitTimer.toInt ≤ 0 ∧ r.io.state.paletteCommitTimer.toInt ≤ 0 := by
    simp only [handlesPorts, Bool.or_eq_false_iff, decide_eq_false_iff_not, Int.not_lt] at hports
    exact hports.1
  simp only [Skips] at h
  rcases Nat.lt_or_ge k r.beginRasterize.firstPiece.2 with hfirst | hrest
  · rw [if_pos hfirst] at h
    have hall : ∀ j, 0 ≤ j → j < k → r.Skips dev j := by
      intro j _ hj
      simp only [Skips, if_pos (Nat.lt_trans hj hfirst)]
      exact h
    rw [pixels_skipped dev (Nat.zero_le k) hall, rasterizePixels_zero]
    exact hstopped h.2
  · rw [if_neg (Nat.not_lt.mpr hrest)] at h
    have hall : ∀ j, r.beginRasterize.firstPiece.2 ≤ j → j < k → r.Skips dev j := by
      intro j hj _
      simp only [Skips, if_neg (Nat.not_lt.mpr hj)]
      exact h
    have hseam : r.rasterizePixels dev r.beginRasterize.firstPiece.2 = r.beginRasterize.piece dev
        r.beginRasterize.firstPiece.1 r.beginRasterize.firstPiece.2 := if_pos (Nat.le_refl _)
    rw [pixels_skipped dev hrest hall, hseam]
    exact hstopped h.2

end Slice

/-! ## The three laws -/

structure Issued (port value : Byte) (s : IoState) : Prop where
  outCommitTimer : s.outCommitTimer = 1
  outport : s.outport = port
  outbyte : s.outbyte = value
  palette : isPaletteEntry port → s.paletteCommitTimer.toInt = paletteCommitTimeDefault
  displayMode : port = portOutDisplayMode → s.displayModeTimer = displayModeCommitTime

section Laws

variable {port value : Byte} {r : Raster δ} {k : Nat}

theorem Issued.armed (h : Issued port value r.io.state) : r.io.Armed := .inr h.outCommitTimer

theorem Issued.registers (dev : Devices δ) (h : Issued port value r.io.state) (k : Nat) :
    (r.rasterizePixels dev k).io.state.outCommitTimer = (if k < 1 then 1 else 0) ∧
      (r.rasterizePixels dev k).toBus.registers = if k < 1 then r.toBus.registers
        else (r.toBus.portOutHandling dev port value).registers := by
  induction k with
  | zero =>
      rw [rasterizePixels_zero]
      exact ⟨h.outCommitTimer, rfl⟩
  | succ k ih =>
      obtain ⟨hout, hregisters⟩ := ih
      rw [if_neg (by omega), if_neg (by omega)]
      by_cases hskip : r.Skips dev k
      · have hstopped := (Skips.stopped dev hskip).1
        rcases Nat.eq_zero_or_pos k with rfl | hk
        · rw [hout] at hstopped
          exact absurd hstopped (by decide)
        · rw [if_neg (by omega)] at hout hregisters
          obtain ⟨hstate, hsame⟩ := pixel_skipped dev hskip
          rw [hstate, hsame]
          exact ⟨hout, hregisters⟩
      · obtain ⟨colorIdx, hcounted, -⟩ := pixel_counted dev h.armed hskip
        rw [hcounted.outCommitTimer, hcounted.registers, hout]
        rcases Nat.eq_zero_or_pos k with rfl | hk
        · have hslot : (r.rasterizePixels dev 0).io.state.outport = port ∧
              (r.rasterizePixels dev 0).io.state.outbyte = value := by
            rw [rasterizePixels_zero]
            exact ⟨h.outport, h.outbyte⟩
          rw [hslot.1, hslot.2]
          exact ⟨by decide, Bus.registers_portOutHandling dev port value hregisters⟩
        · rw [if_neg (by omega)] at hregisters ⊢
          exact ⟨by decide, hregisters⟩

theorem Issued.register (dev : Devices δ) (h : Issued port value r.io.state) (hk : 0 < k)
    {α : Type} (field : IoState → α) (hfield : ∀ s, field s = field s.registers) :
    field (r.rasterizePixels dev k).io.state =
      field (r.toBus.portOutHandling dev port value).io.state := by
  have hregisters := (h.registers dev k).2
  rw [if_neg (by omega)] at hregisters
  have hstate : (r.rasterizePixels dev k).io.state.registers =
      (r.toBus.portOutHandling dev port value).io.state.registers :=
    congrArg (fun registers => registers.2.1) hregisters
  rw [hfield, hstate, ← hfield]

theorem Issued.settled (dev : Devices δ) (h : Issued port value r.io.state) (hk : 0 < k) :
    (r.rasterizePixels dev k).io.Settled := by
  have hout := (h.registers dev k).1
  rw [if_neg (by omega)] at hout
  exact hout

theorem paletteCommitTimer_pixels (dev : Devices δ) (harmed : r.io.Armed)
    (hcount : ∀ j < k, ¬ r.Skips dev j) :
    (r.rasterizePixels dev k).io.state.paletteCommitTimer.toInt =
      if r.io.state.paletteCommitTimer.toInt ≤ 0 then r.io.state.paletteCommitTimer.toInt
      else max (r.io.state.paletteCommitTimer.toInt - k) 0 := by
  induction k with
  | zero =>
      rw [rasterizePixels_zero]
      simp only [beginRasterize, Io.log]
      split <;> omega
  | succ k ih =>
      obtain ⟨colorIdx, hcounted, -⟩ := pixel_counted dev harmed (hcount k (Nat.lt_succ_self k))
      rw [hcounted.paletteCommitTimer, Bus.toInt_count, ih fun j hj => hcount j (by omega)]
      split <;> split <;> omega

theorem Issued.paletteEntry (dev : Devices δ) (h : Issued port value r.io.state)
    (hport : isPaletteEntry port = true) (k : Nat) :
    (r.rasterizePixels dev k).io.state.paletteCommitTimer.toInt = max (5 - k : Int) 0 ∧
      (r.rasterizePixels dev k).io.state.palette = if k < 5 then r.io.state.palette
        else Function.update r.io.state.palette (r.shownColorIdx dev 4).toFin value := by
  induction k with
  | zero =>
      rw [rasterizePixels_zero]
      exact ⟨h.palette hport, rfl⟩
  | succ k ih =>
      obtain ⟨htimer, hpalette⟩ := ih
      by_cases hskip : r.Skips dev k
      · have hstopped := (Skips.stopped dev hskip).2
        rw [(pixel_skipped dev hskip).1, htimer, hpalette, if_neg (by omega), if_neg (by omega)]
        exact ⟨by omega, rfl⟩
      · obtain ⟨colorIdx, hcounted, hshown⟩ := pixel_counted dev h.armed hskip
        have hvalue : (r.rasterizePixels dev (k + 1)).io.state.hwColor = value := by
          rw [h.register dev (Nat.succ_pos k) IoState.hwColor fun _ => rfl]
          exact Bus.hwColor_portOutHandling dev value hport r.toBus
        have hone : (r.rasterizePixels dev k).io.state.paletteCommitTimer = 1 ↔ k = 4 := by
          rw [← BitVec.toInt_inj, htimer]
          change _ = (1 : Int) ↔ _
          omega
        rw [hcounted.paletteCommitTimer, Bus.toInt_count, hcounted.palette, htimer, hpalette]
        refine ⟨by split <;> omega, ?_⟩
        rcases Nat.lt_trichotomy k 4 with hlt | rfl | hgt
        · rw [if_neg (by rw [hone]; omega), if_pos (by omega), if_pos (by omega)]
        · rw [if_pos (hone.mpr rfl), if_pos (by decide), if_neg (by decide), hvalue,
            hshown (h.settled dev (by decide))]
        · rw [if_neg (by rw [hone]; omega), if_neg (by omega), if_neg (by omega)]

theorem Issued.reqDisplayMode (dev : Devices δ) (h : Issued portOutDisplayMode value r.io.state)
    (hk : 0 < k) : (r.rasterizePixels dev k).io.state.reqDisplayMode = value.getLsbD 4 := by
  rw [h.register dev hk IoState.reqDisplayMode fun _ => rfl]
  exact Bus.reqDisplayMode_portOutHandling dev value r.toBus

theorem Issued.switches (dev : Devices δ) (h : Issued portOutDisplayMode value r.io.state)
    (hcount : ∀ j < k, j < 8 → ¬ r.Skips dev j) :
    (r.rasterizePixels dev k).io.state.displayModeTimer.toInt = max (8 - k : Int) 0 ∧
      (r.rasterizePixels dev k).io.state.displayMode =
        if k < 8 then r.io.state.displayMode else value.getLsbD 4 := by
  induction k with
  | zero =>
      rw [rasterizePixels_zero]
      exact ⟨congrArg BitVec.toInt (h.displayMode rfl), rfl⟩
  | succ k ih =>
      obtain ⟨htimer, hmode⟩ := ih fun j hj => hcount j (by omega)
      by_cases hskip : r.Skips dev k
      · have hlate : 8 ≤ k := by
          by_contra hearly
          exact hcount k (Nat.lt_succ_self k) (by omega) hskip
        rw [(pixel_skipped dev hskip).1, htimer, hmode, if_neg (by omega), if_neg (by omega)]
        exact ⟨by omega, rfl⟩
      · obtain ⟨colorIdx, hcounted, -⟩ := pixel_counted dev h.armed hskip
        have hone : (r.rasterizePixels dev k).io.state.displayModeTimer = 1 ↔ k = 7 := by
          rw [← BitVec.toInt_inj, htimer]
          change _ = (1 : Int) ↔ _
          omega
        rw [hcounted.displayModeTimer, Bus.toInt_count, hcounted.displayMode, htimer, hmode,
          h.reqDisplayMode dev (Nat.succ_pos k)]
        refine ⟨by split <;> omega, ?_⟩
        rcases Nat.lt_trichotomy k 7 with hlt | rfl | hgt
        · rw [if_neg (by rw [hone]; omega), if_pos (by omega), if_pos (by omega)]
        · rw [if_pos (hone.mpr rfl), if_neg (by decide)]
        · rw [if_neg (by rw [hone]; omega), if_neg (by omega), if_neg (by omega)]

theorem Issued.keepsMode (dev : Devices δ) (h : Issued portOutDisplayMode value r.io.state)
    (hsame : value.getLsbD 4 = r.io.state.displayMode) (k : Nat) :
    (r.rasterizePixels dev k).io.state.displayMode = r.io.state.displayMode := by
  induction k with
  | zero =>
      rw [rasterizePixels_zero]
      rfl
  | succ k ih =>
      by_cases hskip : r.Skips dev k
      · rw [(pixel_skipped dev hskip).1]
        exact ih
      · obtain ⟨colorIdx, hcounted, -⟩ := pixel_counted dev h.armed hskip
        rw [hcounted.displayMode, h.reqDisplayMode dev (Nat.succ_pos k), hsame, ih]
        exact ite_self _

end Laws

/-! ## Where the mode is late -/

section Late

variable {r : Raster δ} {k n : Nat}

theorem piece_border_idx (dev : Devices δ) (hout : 0 ≤ r.io.state.outCommitTimer.toInt)
    (hidx : r.display.idx = k) (hn : k + n < frameLen) :
    (r.piece dev false n).display.idx = (k + n : Nat) ∧
      (r.piece dev false n).display.borderLeft = r.display.borderLeft := by
  induction n with
  | zero =>
      rw [piece_zero]
      exact ⟨hidx, rfl⟩
  | succ n ih =>
      obtain ⟨hplace, hborder⟩ := ih (by omega)
      obtain ⟨hnext, -, hkept⟩ := borderPixel_display dev hplace (by omega)
      rw [Nat.mod_eq_of_lt (a := k + n + 1) (by omega)] at hnext
      rw [piece_border_succ dev n hout]
      exact ⟨hnext, hkept.borderLeft.trans hborder⟩

theorem firstPiece_border_iff (hn : n < 16) :
    r.firstPiece = (false, n) ↔
      r.ActiveLine ∧ 0 < n ∧ r.display.borderLeft - r.display.rasterPixel = n := by
  have hright : r.display.activeAreaRight = r.display.borderLeft + 512 := rfl
  simp only [firstPiece, rasterizedPxlsMax, ActiveLine, hright]
  by_cases hline : scanActiveAreaTop ≤ r.display.rasterLine ∧
      r.display.rasterLine < scanActiveAreaTop + activeAreaH
  · by_cases hinside : r.display.borderLeft ≤ r.display.rasterPixel ∧
        r.display.rasterPixel < r.display.borderLeft + 512
    · simp [hline, hinside]
      omega
    · by_cases hbeyond : r.display.borderLeft + 512 ≤ r.display.rasterPixel
      · simp [hline, hinside, hbeyond]
        omega
      · simp [hline, hinside, hbeyond]
        omega
  · simp [hline]
    omega

/-- The mode is requested where a slice enters the active area within its first eight pixels,
on a line below the first, with no palette entry pending there. -/
def LateSwitch (r : Raster δ) : Prop :=
  scanActiveAreaTop < r.display.rasterLine ∧
    r.display.rasterLine < scanActiveAreaTop + activeAreaH ∧
    0 < r.display.borderLeft - r.display.rasterPixel ∧
    r.display.borderLeft - r.display.rasterPixel < 8 ∧
    r.io.state.paletteCommitTimer.toInt ≤ r.display.borderLeft - r.display.rasterPixel

theorem skips_iff (dev : Devices δ) {port value : Byte} (h : Issued port value r.io.state) :
    r.Skips dev k ↔ ∃ n ≤ k, r.beginRasterize.firstPiece = (false, n) ∧
      (r.rasterizePixels dev n).handlesPorts = false := by
  have hpending : r.beginRasterize.handlesPorts = true := by
    have hout : r.beginRasterize.io.state.outCommitTimer = 1 := h.outCommitTimer
    simp only [handlesPorts, hout]
    rfl
  simp only [Skips, rasterizePixels, PieceSkips]
  constructor
  · intro hskip
    rcases Nat.lt_or_ge k r.beginRasterize.firstPiece.2 with hfirst | hrest
    · rw [if_pos hfirst, hpending] at hskip
      exact absurd hskip.2 (by decide)
    · rw [if_neg (Nat.not_lt.mpr hrest)] at hskip
      obtain ⟨hactive, hports⟩ := hskip
      have hborder : r.beginRasterize.firstPiece.1 = false := by simpa using hactive
      refine ⟨r.beginRasterize.firstPiece.2, hrest, Prod.ext hborder rfl, ?_⟩
      rw [if_pos (Nat.le_refl _)]
      exact hports
  · rintro ⟨n, hn, hpiece, hports⟩
    rw [hpiece] at hports ⊢
    rw [if_pos (Nat.le_refl n)] at hports
    rw [if_neg (Nat.not_lt.mpr hn)]
    exact ⟨rfl, hports⟩

/-- Where the first piece is border that the active area follows, the loop for that area leaves
the timers alone on all lines but its first, unless a palette entry is pending. -/
theorem handlesPorts_seam (dev : Devices δ) {port value : Byte} (h : Issued port value r.io.state)
    (hborder : r.display.borderLeft ≤ frameW - activeAreaW) (hn : n < 16)
    (hpiece : r.beginRasterize.firstPiece = (false, n)) :
    (r.rasterizePixels dev n).handlesPorts = false ↔
      r.display.rasterLine ≠ scanActiveAreaTop ∧ r.io.state.paletteCommitTimer.toInt ≤ n := by
  obtain ⟨hline, hpos, hwidth⟩ := (firstPiece_border_iff (r := r.beginRasterize) hn).mp hpiece
  obtain ⟨k, hidx, htop, hbottom, hrow, hcolumn⟩ := hline.place
  have hpixels : r.rasterizePixels dev n = r.beginRasterize.piece dev false n := by
    rw [rasterizePixels, hpiece]
    exact if_pos (Nat.le_refl n)
  have hnonneg : 0 ≤ r.beginRasterize.io.state.outCommitTimer.toInt := by
    have hout : r.beginRasterize.io.state.outCommitTimer = 1 := h.outCommitTimer
    rw [hout]
    decide
  have hleft : r.beginRasterize.display.borderLeft = r.display.borderLeft := rfl
  simp only [frameW, activeAreaW] at hrow hcolumn hborder htop hbottom
  obtain ⟨hplace, hkept⟩ := piece_border_idx (n := n) dev hnonneg hidx
    (by simp only [frameLen, frameW, frameH]; omega)
  have hcount : ∀ j < n, ¬ r.Skips dev j := by
    intro j hj hskip
    obtain ⟨m, hm, hpiece', -⟩ := (skips_iff dev h).mp hskip
    rw [hpiece, Prod.mk.injEq] at hpiece'
    omega
  have htimer := paletteCommitTimer_pixels dev h.armed hcount
  have hsettled := (h.registers dev n).1
  rw [if_neg (by omega)] at hsettled
  rw [hpixels] at htimer hsettled ⊢
  have hrow' : (r.beginRasterize.piece dev false n).display.rasterLine = r.display.rasterLine := by
    have hsame : (k + n) / 768 = k / 768 := by omega
    have hdiv : ((k + n : Nat) : Int).tdiv frameW = ((k + n) / 768 : Nat) := Int.ofNat_tdiv _ _
    rw [Display.rasterLine, hplace, hdiv, hsame]
    exact hrow.symm
  have hcolumn' : (r.beginRasterize.piece dev false n).display.rasterPixel =
      r.display.borderLeft := by
    have hmod : ((k + n : Nat) : Int).tmod frameW = ((k + n) % 768 : Nat) := Int.ofNat_tmod _ _
    rw [Display.rasterPixel, hplace, hmod]
    omega
  simp only [handlesPorts, hsettled, htimer, hrow', hcolumn', hkept, hleft, Bool.or_eq_false_iff,
    decide_eq_false_iff_not, rasterizedPxlsMax]
  constructor
  · rintro ⟨⟨-, hpalette⟩, hscroll⟩
    refine ⟨fun hfirst => hscroll ⟨hfirst, by omega⟩, ?_⟩
    split at hpalette <;> omega
  · rintro ⟨hbelow, hpalette⟩
    refine ⟨⟨by decide, ?_⟩, fun hscroll => hbelow hscroll.1⟩
    split <;> omega

/-- While an `OUT` is on its way some pixel before the eighth skips the timers where a switch of
the mode would be late, and from the seam on all of them do. -/
theorem skips_early_iff (dev : Devices δ) {port value : Byte} (h : Issued port value r.io.state)
    (hborder : r.display.borderLeft ≤ frameW - activeAreaW) :
    (∃ k < 8, r.Skips dev k) ↔ r.LateSwitch := by
  have hdisplay : r.beginRasterize.display.rasterLine = r.display.rasterLine ∧
      r.beginRasterize.display.rasterPixel = r.display.rasterPixel ∧
      r.beginRasterize.display.borderLeft = r.display.borderLeft := ⟨rfl, rfl, rfl⟩
  constructor
  · rintro ⟨k, hk, hskip⟩
    obtain ⟨n, hn, hpiece, hports⟩ := (skips_iff dev h).mp hskip
    obtain ⟨hbelow, hpalette⟩ := (handlesPorts_seam dev h hborder (by omega) hpiece).mp hports
    obtain ⟨⟨htop, hbottom⟩, hpos, hwidth⟩ :=
      (firstPiece_border_iff (r := r.beginRasterize) (by omega)).mp hpiece
    rw [hdisplay.1] at htop hbottom
    rw [hdisplay.2.1, hdisplay.2.2] at hwidth
    exact ⟨by omega, hbottom, by omega, by omega, by omega⟩
  · rintro ⟨htop, hbottom, hpos, hshort, hpalette⟩
    obtain ⟨n, hn⟩ := Int.eq_ofNat_of_zero_le (Int.le_of_lt hpos)
    have hpiece : r.beginRasterize.firstPiece = (false, n) := by
      refine (firstPiece_border_iff (by omega)).mpr ⟨⟨Int.le_of_lt htop, hbottom⟩, by omega, hn⟩
    have hports := (handlesPorts_seam dev h hborder (by omega) hpiece).mpr ⟨by omega, by omega⟩
    exact ⟨n, by omega, (skips_iff dev h).mpr ⟨n, Nat.le_refl n, hpiece, hports⟩⟩

end Late

/-! ## Fixed latencies -/

/-- Counted from the machine cycle of `OUT port`, the port is written on pixel 1, an entry of the
palette on pixel 5, where it is shown, and the display mode on pixel 8. -/
structure FixedLatency (dev : Devices δ) (port value : Byte) (r : Raster δ) : Prop where
  registers : ∀ k ≤ 16, (r.rasterizePixels dev k).toBus.registers =
    if k < 1 then r.toBus.registers else (r.toBus.portOutHandling dev port value).registers
  shows : ∀ k < 16, Shows (r.shownColorIdx dev k) (r.rasterizePixels dev k)
    (r.rasterizePixels dev (k + 1))
  palette : isPaletteEntry port = true → ∀ k ≤ 16,
    (r.rasterizePixels dev k).io.state.palette = if k < 5 then r.io.state.palette
      else Function.update r.io.state.palette (r.shownColorIdx dev 4).toFin value
  displayMode : port = portOutDisplayMode → ∀ k ≤ 16,
    (r.rasterizePixels dev k).io.state.displayMode =
      if k < 8 then r.io.state.displayMode else value.getLsbD 4

theorem LateSwitch.displayMode (dev : Devices δ) {value : Byte} {r : Raster δ}
    (hlate : r.LateSwitch) (h : Issued portOutDisplayMode value r.io.state)
    (hborder : r.display.borderLeft ≤ frameW - activeAreaW) :
    (r.rasterizePixels dev 8).io.state.displayMode = r.io.state.displayMode := by
  obtain ⟨k, hk, hskip⟩ := (skips_early_iff dev h hborder).mpr hlate
  obtain ⟨n, hn, hpiece, hports⟩ := (skips_iff dev h).mp hskip
  have hcount : ∀ j < n, j < 8 → ¬ r.Skips dev j := by
    intro j hj _ hskip
    obtain ⟨m, hm, hpiece', -⟩ := (skips_iff dev h).mp hskip
    rw [hpiece, Prod.mk.injEq] at hpiece'
    omega
  have hskips : ∀ j, n ≤ j → j < 8 → r.Skips dev j := by
    intro j hj _
    exact (skips_iff dev h).mpr ⟨n, hj, hpiece, hports⟩
  rw [pixels_skipped dev (by omega) hskips, (h.switches dev hcount).2, if_pos (by omega)]

theorem Issued.latency_iff (dev : Devices δ) {port value : Byte} {r : Raster δ}
    (h : Issued port value r.io.state) (hborder : r.display.borderLeft ≤ frameW - activeAreaW) :
    r.FixedLatency dev port value ↔
      (port = portOutDisplayMode → value.getLsbD 4 = r.io.state.displayMode ∨ ¬ r.LateSwitch) := by
  constructor
  · rintro hlaw rfl
    by_contra hnot
    rw [not_or, Classical.not_not] at hnot
    have hold := hnot.2.displayMode dev h hborder
    have hnew := hlaw.displayMode rfl 8 (by decide)
    exact hnot.1 (hnew.symm.trans hold)
  · intro hcondition
    refine ⟨fun k _ => (h.registers dev k).2, fun k _ => rasterizePixels_shows dev h.armed k,
      fun hport k _ => (h.paletteEntry dev hport k).2, ?_⟩
    rintro rfl k -
    rcases hcondition rfl with hsame | hearly
    · rw [h.keepsMode dev hsame, hsame, ite_self]
    · exact (h.switches dev fun j _ hj hskip =>
        hearly ((skips_early_iff dev h hborder).mp ⟨j, hj, hskip⟩)).2

end Raster

namespace Hardware

/-- A machine cycle that executes `OUT port`, from wherever the program has come: its latencies
are fixed unless it switches the mode too late. -/
theorem fixedLatency_iff (dev : Devices δ) {h : Hardware δ} {port value : Byte}
    (hout : (h.executeMachineCycle dev).io = (h.io.log .cycle).portOut port value)
    (htime : h.io.paletteCommitTime = paletteCommitTimeDefault)
    (hborder : h.display.borderLeft ≤ frameW - activeAreaW) :
    ((h.executeMachineCycle dev).clockAudio dev).raster.FixedLatency dev port value ↔
      (port = portOutDisplayMode →
        value.getLsbD 4 = h.io.state.displayMode ∨ ¬ h.raster.LateSwitch) := by
  have hstate : ((h.executeMachineCycle dev).clockAudio dev).raster.io.state =
      ((h.io.log .cycle).portOut port value).state := by
    change (h.executeMachineCycle dev).io.state = _
    rw [hout]
  have hissued : Raster.Issued port value
      ((h.executeMachineCycle dev).clockAudio dev).raster.io.state := by
    rw [hstate]
    refine ⟨rfl, rfl, rfl, fun hport => ?_, fun hport => ?_⟩
    · have htimer : ((h.io.log .cycle).portOut port value).state.paletteCommitTimer =
          BitVec.ofInt 8 h.io.paletteCommitTime := if_pos hport
      rw [htimer, htime]
      decide
    · exact if_pos hport
  refine (hissued.latency_iff dev hborder).trans ?_
  have hlate : port = portOutDisplayMode →
      (((h.executeMachineCycle dev).clockAudio dev).raster.LateSwitch ↔ h.raster.LateSwitch) := by
    rintro rfl
    simp only [Raster.LateSwitch, hstate]
    exact Iff.rfl
  have hmode : ((h.executeMachineCycle dev).clockAudio dev).raster.io.state.displayMode =
      h.io.state.displayMode := by
    rw [hstate]
    rfl
  constructor
  · intro hcondition hport
    rw [← hmode, ← hlate hport]
    exact hcondition hport
  · intro hcondition hport
    rw [hmode, hlate hport]
    exact hcondition hport

def switching (borderLeft : Int) : Hardware Unit :=
  let h := ofRam (fun addr => if addr.val = 1 then portOutDisplayMode else 0xD3) ()
  { h with
    cpu := { h.cpu with pc := ⟨0x01, 0x00⟩, ir := 0xD3, a := 0x10, mc := 1 }
    display := Display.setIdx (768 * 100 + 128) { h.display with borderLeft := borderLeft } }

theorem switching_out (borderLeft : Int) :
    ((switching borderLeft).executeMachineCycle .silent).io =
      ((switching borderLeft).io.log .cycle).portOut portOutDisplayMode 0x10 := by
  with_unfolding_all rfl

theorem fixedLatency_switching :
    (((switching 128).executeMachineCycle .silent).clockAudio .silent).raster.FixedLatency .silent
      portOutDisplayMode 0x10 :=
  (fixedLatency_iff .silent (switching_out 128) rfl (by decide)).mpr fun _ =>
    .inr fun hlate => absurd hlate.2.2.1 (by decide)

/-- Four pixels of border in front of the active area hold the switch up. -/
theorem switching_late :
    (switching 132).io.paletteCommitTime = paletteCommitTimeDefault ∧
    0 ≤ (switching 132).display.borderLeft ∧
    (switching 132).display.borderLeft ≤ frameW - activeAreaW ∧
    ((switching 132).executeMachineCycle .silent).io =
      ((switching 132).io.log .cycle).portOut portOutDisplayMode 0x10 ∧
    ¬ (((switching 132).executeMachineCycle .silent).clockAudio .silent).raster.FixedLatency .silent
      portOutDisplayMode 0x10 := by
  have hout := switching_out 132
  refine ⟨rfl, by decide, by decide, hout, fun hlaw => ?_⟩
  have hstate : (((switching 132).executeMachineCycle .silent).clockAudio .silent).raster.io.state =
      (((switching 132).io.log .cycle).portOut portOutDisplayMode 0x10).state := by
    change ((switching 132).executeMachineCycle .silent).io.state = _
    rw [hout]
  have hissued : Raster.Issued portOutDisplayMode 0x10
      (((switching 132).executeMachineCycle .silent).clockAudio .silent).raster.io.state := by
    rw [hstate]
    exact ⟨rfl, rfl, rfl, fun hport => absurd hport (by decide), fun _ => rfl⟩
  have hlate : (((switching 132).executeMachineCycle .silent).clockAudio
      .silent).raster.LateSwitch := by
    simp only [Raster.LateSwitch, hstate]
    exact ⟨by decide, by decide, by decide, by decide, by decide⟩
  have hold := hlate.displayMode .silent hissued (by decide)
  have hnew := hlaw.displayMode rfl 8 (by decide)
  rw [hold, hstate] at hnew
  exact absurd hnew (by decide)

end Hardware

end V6Emul
