import V6Emul.Display.Border
import V6Emul.Display.Latency
import V6Emul.Hardware.FrameInterrupt

/-!
# Writes to the palette

An `OUT` to a port of the palette sets a timer to the configured number of pixels.  The
pixels of the next turns are counted, over as many slices as it takes, and on the last
of them the entry that is being drawn gets the value.
-/

namespace V6Emul

variable {δ : Type}

/-- The value of the last write to the palette waits in the slot, or has been handed over. -/
def IoState.Carries (value : Byte) (s : IoState) : Prop :=
  (s.outCommitTimer = 1 ∧ isPaletteEntry s.outport = true ∧ s.outbyte = value) ∨
    s.hwColor = value ∧
      (s.outCommitTimer = 0 ∨ s.outCommitTimer = 1 ∧ isPaletteEntry s.outport = false)

theorem IoState.Carries.armed {value : Byte} {s : Io δ} (h : s.state.Carries value) : s.Armed := by
  rcases h with ⟨hpending, -⟩ | ⟨-, hstopped | ⟨hpending, -⟩⟩
  · exact .inr hpending
  · exact .inl hstopped
  · exact .inr hpending

/-! ## Pixels -/

namespace Bus

theorem hwColor_portOutHandling_other (dev : Devices δ) {port : Byte} (value : Byte)
    (h : isPaletteEntry port = false) (b : Bus δ) :
    (b.portOutHandling dev port value).io.state.hwColor = b.io.state.hwColor := by
  have hother : ¬ (12 ≤ port.toNat ∧ port.toNat ≤ 15) := by
    simp only [isPaletteEntry, Bool.and_eq_false_iff, decide_eq_false_iff_not] at h
    bv_omega
  unfold portOutHandling
  split
  case h_1 =>
    simp only [setIoState, Io.setState, IoState.writeControl, IoState.latchRuslat]
    split <;> rfl
  all_goals first | rfl | (exfalso; omega)

theorem Counted.carries {dev : Devices δ} {colorIdx : BitVec 4} {b b' : Bus δ} {value : Byte}
    (hcounted : Counted dev colorIdx b b') (h : b.io.state.Carries value) :
    b'.io.state.hwColor = value ∧ b'.io.state.outCommitTimer = 0 := by
  have hhanded : b'.io.state.hwColor = b'.registers.2.1.hwColor := rfl
  rw [hhanded, hcounted.registers, hcounted.outCommitTimer]
  rcases h with ⟨hpending, hport, hvalue⟩ | ⟨hvalue, hstopped | ⟨hpending, hport⟩⟩
  · rw [if_pos hpending, hpending]
    exact ⟨(hwColor_portOutHandling dev _ hport b).trans hvalue, by decide⟩
  · rw [if_neg (by rw [hstopped]; decide), hstopped]
    exact ⟨hvalue, by decide⟩
  · rw [if_pos hpending, hpending]
    exact ⟨(hwColor_portOutHandling_other dev _ hport b).trans hvalue, by decide⟩

end Bus

namespace Raster

section Slice

variable {r : Raster δ} {value : Byte} {time k : Nat}

structure CountsDown (value : Byte) (time k : Nat) (before after : IoState) : Prop where
  timer : after.paletteCommitTimer.toInt = max ((time : Int) - k) 0
  carries : after.Carries value
  slot : 0 < k → after.hwColor = value ∧ after.outCommitTimer = 0
  waits : k < time → after.palette = before.palette
  commits : time ≤ k → ∃ colorIdx : BitVec 4,
    after.palette = Function.update before.palette colorIdx.toFin value

theorem rasterizePixels_countsDown (dev : Devices δ) (hcarries : r.io.state.Carries value)
    (htimer : r.io.state.paletteCommitTimer.toInt = time) (hpos : 0 < time) (k : Nat) :
    CountsDown value time k r.io.state (r.rasterizePixels dev k).io.state := by
  induction k with
  | zero =>
      rw [rasterizePixels_zero]
      refine ⟨?_, hcarries, fun h => absurd h (Nat.lt_irrefl 0), fun _ => rfl, fun h => ?_⟩
      · change r.io.state.paletteCommitTimer.toInt = _
        omega
      · omega
  | succ k ih =>
      have hslot {s : IoState} (h : s.hwColor = value ∧ s.outCommitTimer = 0) :
          s.Carries value := .inr ⟨h.1, .inl h.2⟩
      by_cases hskip : r.Skips dev k
      · have hstopped := (Skips.stopped dev hskip).2
        have hstate := (pixel_skipped dev hskip).1
        rw [ih.timer] at hstopped
        have hkept := ih.slot (by omega)
        rw [hstate]
        refine ⟨?_, ih.carries, fun _ => hkept, fun h => ?_, fun _ => ih.commits (by omega)⟩
        · rw [ih.timer]
          omega
        · omega
      · obtain ⟨colorIdx, hcounted, -⟩ := pixel_counted dev hcarries.armed hskip
        have hdone := hcounted.carries ih.carries
        have hone : (r.rasterizePixels dev k).io.state.paletteCommitTimer = 1 ↔ k + 1 = time := by
          have htimer := ih.timer
          constructor
          · intro hlast
            rw [hlast] at htimer
            have htoInt : (1 : Byte).toInt = 1 := by decide
            omega
          · intro hlast
            apply BitVec.eq_of_toInt_eq
            have htoInt : (1 : Byte).toInt = 1 := by decide
            omega
        refine ⟨?_, hslot hdone, fun _ => hdone, fun h => ?_, fun h => ?_⟩
        · rw [hcounted.paletteCommitTimer, Bus.toInt_count, ih.timer]
          split <;> omega
        · rw [hcounted.palette, if_neg (by rw [hone]; omega)]
          exact ih.waits (by omega)
        · rw [hcounted.palette]
          by_cases hlast : k + 1 = time
          · rw [if_pos (hone.mpr hlast), ih.waits (by omega), hdone.1]
            exact ⟨colorIdx, rfl⟩
          · rw [if_neg (by rw [hone]; exact hlast)]
            exact ih.commits (by omega)

end Slice

end Raster

namespace Hardware

/-! ## Turns -/

def OutsPalette (dev : Devices δ) (port value : Byte) (h : Hardware δ) : Prop :=
  isPaletteEntry port = true ∧
    ((h.rasterize dev).executeMachineCycle dev).io =
      ((h.rasterize dev).io.log .cycle).portOut port value

def slicesBefore (timer : Byte) : Nat := (timer.toInt.toNat - 1) / 16

def CommitsPalette (dev : Devices δ) (value : Byte) (h : Hardware δ) : Prop :=
  let n := slicesBefore h.io.state.paletteCommitTimer
  0 < h.io.state.paletteCommitTimer.toInt ∧
    ((∀ j < n, ∀ port value', ¬ (h.cycles dev j).OutsPalette dev port value') →
      ∃ colorIdx : BitVec 4, ((h.cycles dev n).rasterize dev).io.state.palette =
        Function.update h.io.state.palette colorIdx.toFin value)

def PaletteHolds (dev : Devices δ) (h : Hardware δ) : Prop :=
  ∀ port value, h.OutsPalette dev port value →
    (h.machineCycle dev).io.state.paletteCommitTimer.toInt = h.io.paletteCommitTime ∧
      (h.machineCycle dev).CommitsPalette dev value

structure Waits (value : Byte) (time : Nat) (palette : Fin 16 → Byte) (h : Hardware δ) : Prop where
  carries : h.io.state.Carries value
  timer : h.io.state.paletteCommitTimer.toInt = time
  palette : h.io.state.palette = palette

section Turns

variable {h : Hardware δ} {value : Byte} {time : Nat} {palette : Fin 16 → Byte}

theorem Waits.slice (dev : Devices δ) (hwaits : h.Waits value time palette) (hpos : 0 < time) :
    Raster.CountsDown value time 16 h.io.state (h.rasterize dev).io.state := by
  have hdown := Raster.rasterizePixels_countsDown (r := h.raster) dev hwaits.carries hwaits.timer
    hpos 16
  rw [Raster.rasterizePixels_slice] at hdown
  exact hdown

theorem Waits.turn (dev : Devices δ) (hwaits : h.Waits value time palette) (hmore : 16 < time)
    (hno : ∀ port value', ¬ h.OutsPalette dev port value') :
    (h.machineCycle dev).Waits value (time - 16) palette := by
  have hdown := hwaits.slice dev (by omega)
  have hkept := hdown.slot (by decide)
  have htimer : (h.rasterize dev).io.state.paletteCommitTimer.toInt = (time - 16 : Nat) := by
    rw [hdown.timer]
    omega
  have hpalette : (h.rasterize dev).io.state.palette = palette :=
    (hdown.waits hmore).trans hwaits.palette
  have hcall := Sys.portCall_executeMachineCycle (Io.ports dev) (h.rasterize dev).display.update.irq
    { (h.rasterize dev).toSys with io := (h.rasterize dev).io.log .cycle }
  have hstate : (h.machineCycle dev).io.state =
      ((h.rasterize dev).executeMachineCycle dev).io.state := rfl
  generalize hio : (Sys.executeMachineCycle (Io.ports dev) (h.rasterize dev).display.update.irq
    { (h.rasterize dev).toSys with io := (h.rasterize dev).io.log .cycle }).io = io at hcall
  have hcycle : ((h.rasterize dev).executeMachineCycle dev).io = io := hio
  have hquiet (hsame : io.state = (h.rasterize dev).io.state) :
      (h.machineCycle dev).Waits value (time - 16) palette := by
    constructor
    · rw [hstate, hcycle, hsame]
      exact hdown.carries
    · rw [hstate, hcycle, hsame]
      exact htimer
    · rw [hstate, hcycle, hsame]
      exact hpalette
  cases hcall with
  | none => exact hquiet rfl
  | input port => exact hquiet (Io.state_portInHandling dev port _)
  | output port value' =>
      have hport : isPaletteEntry port = false :=
        Bool.eq_false_of_not_eq_true fun hentry => hno port value' ⟨hentry, hcycle⟩
      constructor
      · rw [hstate, hcycle]
        exact .inr ⟨hkept.1, .inr ⟨rfl, hport⟩⟩
      · rw [hstate, hcycle]
        have hsame : (((h.rasterize dev).io.log .cycle).portOut port
            value').state.paletteCommitTimer =
              (h.rasterize dev).io.state.paletteCommitTimer := if_neg (by simp [hport])
        exact (congrArg BitVec.toInt hsame).trans htimer
      · rw [hstate, hcycle]
        exact hpalette

theorem Waits.cycles (dev : Devices δ) (hwaits : h.Waits value time palette) {n : Nat}
    (hmore : 16 * n < time)
    (hno : ∀ j < n, ∀ port value', ¬ (h.cycles dev j).OutsPalette dev port value') :
    (h.cycles dev n).Waits value (time - 16 * n) palette := by
  induction n with
  | zero => exact hwaits
  | succ n ih =>
      have hbefore := ih (by omega) fun j hj => hno j (Nat.lt_succ_of_lt hj)
      have hnext := hbefore.turn dev (by omega) (hno n (Nat.lt_succ_self n))
      have htime : time - 16 * n - 16 = time - 16 * (n + 1) := by omega
      exact htime ▸ hnext

theorem Waits.commits (dev : Devices δ) (hwaits : h.Waits value time h.io.state.palette)
    (hpos : 0 < time) : h.CommitsPalette dev value := by
  have hslices : slicesBefore h.io.state.paletteCommitTimer = (time - 1) / 16 := by
    rw [slicesBefore, hwaits.timer]
    rfl
  refine ⟨by rw [hwaits.timer]; omega, fun hno => ?_⟩
  rw [hslices] at hno ⊢
  have hlast := hwaits.cycles dev (n := (time - 1) / 16) (by omega) hno
  obtain ⟨colorIdx, hcommits⟩ := (hlast.slice dev (by omega)).commits (by omega)
  exact ⟨colorIdx, hlast.palette ▸ hcommits⟩

end Turns

theorem paletteCommitTime_rasterize (dev : Devices δ) (h : Hardware δ) :
    (h.rasterize dev).io.paletteCommitTime = h.io.paletteCommitTime :=
  congrArg Prod.snd (Raster.settings_rasterize dev h.raster)

theorem toInt_commitTime {time : Int} (hlow : 1 ≤ time) (hhigh : time ≤ 127) :
    (BitVec.ofInt 8 time).toInt = time := by
  rw [BitVec.toInt_ofInt]
  exact Int.bmod_eq_of_le (by omega) (by omega)

theorem paletteHolds (dev : Devices δ) {h : Hardware δ} (hlow : 1 ≤ h.io.paletteCommitTime)
    (hhigh : h.io.paletteCommitTime ≤ 127) : h.PaletteHolds dev := by
  rintro port value ⟨hport, hout⟩
  have hstate : (h.machineCycle dev).io.state =
      ((h.rasterize dev).executeMachineCycle dev).io.state := rfl
  have htimer : (h.machineCycle dev).io.state.paletteCommitTimer =
      BitVec.ofInt 8 h.io.paletteCommitTime := by
    rw [hstate, hout, ← paletteCommitTime_rasterize dev h]
    exact if_pos hport
  obtain ⟨time, htime⟩ := Int.eq_ofNat_of_zero_le (a := h.io.paletteCommitTime) (by omega)
  have hheld := toInt_commitTime hlow hhigh
  have hwaits : (h.machineCycle dev).Waits value time (h.machineCycle dev).io.state.palette := by
    refine ⟨?_, ?_, rfl⟩
    · rw [hstate, hout]
      exact .inl ⟨rfl, hport, rfl⟩
    · rw [htimer, hheld, htime]
  exact ⟨by rw [htimer, hheld], hwaits.commits dev (by omega)⟩

theorem commitTime_of_paletteHolds (dev : Devices δ) {h : Hardware δ} {port value : Byte}
    (hout : h.OutsPalette dev port value) (hholds : h.PaletteHolds dev) :
    1 ≤ h.io.paletteCommitTime ∧ h.io.paletteCommitTime ≤ 127 := by
  obtain ⟨htimer, hpos, -⟩ := hholds port value hout
  have hle := BitVec.toInt_lt (x := (h.machineCycle dev).io.state.paletteCommitTimer)
  rw [htimer] at hpos hle
  omega

end Hardware

end V6Emul
