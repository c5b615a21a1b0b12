import V6Emul.Display.Bisimulation
import V6Emul.Hardware.Headless
import V6Emul.Hardware.SameCore
import V6Emul.Sound.Chips

/-!
# What a reset leaves behind

The requested display mode, the debug record, the back buffer and the counts of the sound
generator outlive a reset.  A program finds none of them: the requested mode is copied
behind an `OUT` that sets it, the back buffer is shown behind the first frame, and the
others are not read.
-/

namespace V6Emul

open Runs (eq_of_erased erased_congr)

variable {δ : Type} {dev : Devices δ} {D : δ → δ → Prop}

/-! ## The requested display mode -/

namespace IoState

def forgetMode (s : IoState) : IoState := { s with reqDisplayMode := false }

def ModeKnown (s s' : IoState) : Prop :=
  s.reqDisplayMode = s'.reqDisplayMode ∨ Bus.running s.displayModeTimer = false

def ModeComes (s : IoState) : Prop := s.outCommitTimer = 1 ∧ s.outport = portOutDisplayMode

theorem forgetMode_writeControl (value : Byte) (s : IoState) :
    (s.forgetMode.writeControl value).forgetMode = (s.writeControl value).forgetMode := by
  unfold writeControl
  split <;> rfl

theorem forgetMode_countPalette (colorIdx : BitVec 4) (s : IoState) :
    (Bus.countPalette colorIdx s.forgetMode).forgetMode =
      (Bus.countPalette colorIdx s).forgetMode := by
  have htimer : s.forgetMode.paletteCommitTimer = s.paletteCommitTimer := rfl
  simp only [Bus.countPalette, htimer]
  split
  · split <;> rfl
  · rfl

variable {s s' : IoState}

theorem modeKnown_writeControl (h : s.ModeKnown s') (value : Byte) :
    (s.writeControl value).ModeKnown (s'.writeControl value) := by
  unfold writeControl
  split
  · exact h
  · exact .inl rfl

theorem modeKnown_countPalette (h : s.ModeKnown s') (colorIdx : BitVec 4) :
    (Bus.countPalette colorIdx s).ModeKnown (Bus.countPalette colorIdx s') := by
  have hkeep : ∀ t, (Bus.countPalette colorIdx t).reqDisplayMode = t.reqDisplayMode ∧
      (Bus.countPalette colorIdx t).displayModeTimer = t.displayModeTimer := by
    intro t
    simp only [Bus.countPalette]
    repeat' split
    all_goals exact ⟨rfl, rfl⟩
  rw [ModeKnown, (hkeep s).1, (hkeep s').1, (hkeep s).2]
  exact h

theorem countDisplayMode_known (h : s.forgetMode = s'.forgetMode) (hknown : s.ModeKnown s') :
    (Bus.countDisplayMode s).forgetMode = (Bus.countDisplayMode s').forgetMode ∧
      (Bus.countDisplayMode s).ModeKnown (Bus.countDisplayMode s') := by
  have htimer := eq_of_erased h displayModeTimer fun _ => rfl
  simp only [Bus.countDisplayMode, ← htimer]
  by_cases hrun : Bus.running s.displayModeTimer = true
  · have hmode : s.reqDisplayMode = s'.reqDisplayMode :=
      hknown.resolve_right (by rw [hrun]; decide)
    rw [if_pos hrun, if_pos hrun]
    split
    · have hrest := congrArg (fun t : IoState =>
        { t with displayModeTimer := s.displayModeTimer - 1, displayMode := s.reqDisplayMode }) h
      rw [← hmode]
      exact ⟨hrest, .inl rfl⟩
    · have hrest := congrArg (fun t : IoState =>
        { t with displayModeTimer := s.displayModeTimer - 1 }) h
      exact ⟨hrest, .inl hmode⟩
  · rw [if_neg hrun, if_neg hrun]
    exact ⟨h, hknown⟩

end IoState

/-! ## The memory -/

namespace Memory

theorem seen_setRamDiskModeLoop (m : Memory) (disks : List (Fin ramDiskMax)) :
    (m.seen.setRamDiskModeLoop disks).seen = (m.setRamDiskModeLoop disks).seen := by
  induction disks generalizing m with
  | nil => rfl
  | cons disk rest ih =>
      simp only [setRamDiskModeLoop, setRamDiskModeStep]
      by_cases henabled : (m.mappings disk).enabled = true
      · have henabled' : (m.seen.mappings disk).enabled = true := henabled
        by_cases hsecond : m.mappingsEnabled + 1 > 1
        · have hsecond' : m.seen.mappingsEnabled + 1 > 1 := hsecond
          simp only [if_pos henabled, if_pos henabled', if_pos hsecond, if_pos hsecond']
          rfl
        · have hsecond' : ¬m.seen.mappingsEnabled + 1 > 1 := hsecond
          simp only [if_pos henabled, if_pos henabled', if_neg hsecond, if_neg hsecond']
          exact ih { m with
            mappingsEnabled := m.mappingsEnabled + 1
            update := { m.update with
              mapping := m.mappings disk, ramdiskIdx := BitVec.ofNat 3 disk } }
      · have henabled' : ¬(m.seen.mappings disk).enabled = true := henabled
        simp only [if_neg henabled, if_neg henabled']
        exact ih m

theorem seen_setRamDiskMode (diskIdx : Fin ramDiskMax) (data : Byte) (m : Memory) :
    (m.seen.setRamDiskMode diskIdx data).seen = (m.setRamDiskMode diskIdx data).seen :=
  seen_setRamDiskModeLoop { m with
    mappings := Function.update m.mappings diskIdx ⟨data⟩
    update := { m.update with mapping := ⟨0⟩ }
    mappingsEnabled := 0 } (List.finRange ramDiskMax)

end Memory

/-! ## The ports -/

structure Io.Like (D : δ → δ → Prop) (io io' : Io δ) : Prop where
  state : io.state.forgetMode = io'.state.forgetMode
  paletteCommitTime : io.paletteCommitTime = io'.paletteCommitTime
  devices : D io.devices io'.devices

namespace Io

variable {io io' : Io δ}

theorem Like.portIn (hdev : dev.Respects D) (h : io.Like D io') (port : Byte) :
    (io.portIn dev port).1 = (io'.portIn dev port).1 ∧
      Like D (io.portIn dev port).2 (io'.portIn dev port).2 := by
  have hports := eq_of_erased h.state IoState.ports fun _ => rfl
  have hjoy0 := eq_of_erased h.state IoState.joy0 fun _ => rfl
  have hjoy1 := eq_of_erased h.state IoState.joy1 fun _ => rfl
  have hcall : ∀ {result result' : Byte × δ}, result.1 = result'.1 ∧ D result.2 result'.2 →
      result.1 = result'.1 ∧
        Like D { io with devices := result.2 } { io' with devices := result'.2 } :=
    fun hresult => ⟨hresult.1, h.state, h.paletteCommitTime, hresult.2⟩
  have hin : (io.portInHandling dev port).1 = (io'.portInHandling dev port).1 ∧
      Like D (io.portInHandling dev port).2 (io'.portInHandling dev port).2 := by
    simp only [portInHandling, readPortC, ← hports, ← hjoy0, ← hjoy1, ← hdev.keySS h.devices,
      ← hdev.keyUS h.devices, ← hdev.keyRus h.devices, ← hdev.keyRead h.devices]
    generalize port.toNat = number
    split
    case h_8 | h_9 | h_10 | h_11 => exact hcall (hdev.timerRead h.devices _)
    case h_14 | h_15 => exact hcall (hdev.ayRead h.devices _)
    case h_16 | h_17 | h_18 | h_19 | h_20 => exact hcall (hdev.fdcRead h.devices _)
    all_goals exact ⟨rfl, h⟩
  exact ⟨hin.1, hin.2.state, hin.2.paletteCommitTime, hin.2.devices⟩

theorem Like.portOut (h : io.Like D io') (port value : Byte) :
    (io.portOut port value).Like D (io'.portOut port value) := by
  refine ⟨?_, h.paletteCommitTime, h.devices⟩
  simp only [Io.portOut, ← h.paletteCommitTime]
  exact erased_congr h.state (fun s => (Io.portOut port value { io with state := s }).state)
    fun _ => rfl

theorem modeComes_portOut (hknown : io.state.ModeKnown io'.state) (port value : Byte) :
    (io.portOut port value).state.ModeKnown (io'.portOut port value).state ∨
      (io.portOut port value).state.ModeComes := by
  by_cases hport : port = portOutDisplayMode
  · exact .inr ⟨rfl, hport⟩
  · left
    have htimer : (io.portOut port value).state.displayModeTimer = io.state.displayModeTimer :=
      if_neg hport
    rw [IoState.ModeKnown, htimer]
    exact hknown

end Io

/-! ## Commits -/

/-- Equal but for the debug record, the requested mode and what cannot be read back. -/
structure Bus.Like (D : δ → δ → Prop) (b b' : Bus δ) : Prop where
  mem : b.mem.seen = b'.mem.seen
  io : b.io.Like D b'.io

namespace Bus

variable {b b' : Bus δ}

theorem Like.setIoState (h : b.Like D b') {f : IoState → IoState}
    (hf : ∀ s, (f s.forgetMode).forgetMode = (f s).forgetMode) :
    (b.setIoState f).Like D (b'.setIoState f) :=
  ⟨h.mem, erased_congr h.io.state f hf, h.io.paletteCommitTime, h.io.devices⟩

theorem Like.portOutHandling (hdev : dev.Respects D) (h : b.Like D b') (port value : Byte) :
    (b.portOutHandling dev port value).Like D (b'.portOutHandling dev port value) := by
  have hmode : ∀ disk, Like D { b with mem := b.mem.setRamDiskMode disk value }
      { b' with mem := b'.mem.setRamDiskMode disk value } := fun disk =>
    ⟨erased_congr h.mem (fun m => m.setRamDiskMode disk value)
      (Memory.seen_setRamDiskMode disk value), h.io⟩
  have hcall : ∀ {f : δ → δ}, D (f b.io.devices) (f b'.io.devices) →
      Like D { b with io := { b.io with devices := f b.io.devices } }
        { b' with io := { b'.io with devices := f b'.io.devices } } := fun hdevices =>
    ⟨h.mem, h.io.state, h.io.paletteCommitTime, hdevices⟩
  unfold Bus.portOutHandling
  generalize port.toNat = number
  split
  case h_1 => exact h.setIoState (IoState.forgetMode_writeControl value)
  case h_9 | h_10 | h_11 | h_12 => exact hcall (hdev.timerWrite h.io.devices _ _)
  all_goals first
    | exact h
    | exact hmode _
    | exact h.setIoState fun _ => rfl
    | exact hcall (hdev.ayWrite h.io.devices _ _)
    | exact hcall (hdev.fdcWrite h.io.devices _ _)
    | exact hcall (hdev.debugPortOut h.io.devices _ _)

theorem modeKnown_portOutHandling (port value : Byte)
    (h : port = portOutDisplayMode ∨ b.io.state.ModeKnown b'.io.state) :
    (b.portOutHandling dev port value).io.state.ModeKnown
      (b'.portOutHandling dev port value).io.state := by
  have hnumber : port.toNat = 2 ∨ b.io.state.ModeKnown b'.io.state := by
    rcases h with rfl | hknown
    · exact .inl rfl
    · exact .inr hknown
  unfold Bus.portOutHandling
  generalize port.toNat = number at hnumber
  split
  case h_3 => exact .inl rfl
  all_goals
    have hknown := hnumber.resolve_left (by omega)
    first
    | exact hknown
    | exact IoState.modeKnown_writeControl hknown value

theorem Like.portOutCommit (hdev : dev.Respects D) (h : b.Like D b')
    (hmode : b.io.state.outport = portOutDisplayMode ∨ b.io.state.ModeKnown b'.io.state) :
    (b.portOutCommit dev).Like D (b'.portOutCommit dev) ∧
      (b.portOutCommit dev).io.state.ModeKnown (b'.portOutCommit dev).io.state := by
  have hlogged : ∀ event,
      Like D { b with io := b.io.log event } { b' with io := b'.io.log event } :=
    fun _ => ⟨h.mem, h.io.state, h.io.paletteCommitTime, h.io.devices⟩
  simp only [Bus.portOutCommit, ← eq_of_erased h.io.state IoState.outport fun _ => rfl,
    ← eq_of_erased h.io.state IoState.outbyte fun _ => rfl]
  exact ⟨(hlogged _).portOutHandling hdev _ _, modeKnown_portOutHandling _ _ hmode⟩

theorem Like.countOut (hdev : dev.Respects D) (h : b.Like D b')
    (hmode : b.io.state.ModeKnown b'.io.state ∨ b.io.state.ModeComes) :
    (b.countOut dev).Like D (b'.countOut dev) ∧
      (b.countOut dev).io.state.ModeKnown (b'.countOut dev).io.state := by
  simp only [Bus.countOut, ← eq_of_erased h.io.state IoState.outCommitTimer fun _ => rfl]
  by_cases hrun : running b.io.state.outCommitTimer = true
  · rw [if_pos hrun, if_pos hrun]
    have hcount : Like D
        (b.setIoState fun s => { s with outCommitTimer := b.io.state.outCommitTimer - 1 })
        (b'.setIoState fun s => { s with outCommitTimer := b.io.state.outCommitTimer - 1 }) :=
      h.setIoState fun _ => rfl
    by_cases hzero : b.io.state.outCommitTimer - 1 = 0
    · rw [if_pos hzero, if_pos hzero]
      exact hcount.portOutCommit hdev (hmode.symm.imp_left And.right)
    · rw [if_neg hzero, if_neg hzero]
      refine ⟨hcount, hmode.resolve_right ?_⟩
      rintro ⟨hone, -⟩
      exact hzero (by rw [hone]; rfl)
  · rw [if_neg hrun, if_neg hrun]
    refine ⟨h, hmode.resolve_right ?_⟩
    rintro ⟨hone, -⟩
    exact hrun (by rw [hone]; rfl)

theorem Like.tryToCommit (hdev : dev.Respects D) (h : b.Like D b')
    (hmode : b.io.state.ModeKnown b'.io.state ∨ b.io.state.ModeComes) (colorIdx : BitVec 4) :
    (b.tryToCommit dev colorIdx).Like D (b'.tryToCommit dev colorIdx) ∧
      (b.tryToCommit dev colorIdx).io.state.ModeKnown (b'.tryToCommit dev colorIdx).io.state := by
  obtain ⟨hlike, hknown⟩ := h.countOut hdev hmode
  have hpalette := erased_congr hlike.io.state (countPalette colorIdx)
    (IoState.forgetMode_countPalette colorIdx)
  obtain ⟨hstate, hknown'⟩ := IoState.countDisplayMode_known hpalette
    (IoState.modeKnown_countPalette hknown colorIdx)
  unfold Bus.tryToCommit
  generalize b.countOut dev = c at hlike hstate hknown' ⊢
  generalize b'.countOut dev = c' at hlike hstate hknown' ⊢
  exact ⟨⟨hlike.mem, hstate, hlike.io.paletteCommitTime, hlike.io.devices⟩, hknown'⟩

end Bus

/-! ## The display -/

namespace Display

def drawn (d : Display) : Display := { d with backBuffer := fun _ => 0, fault := false }

structure Like (d d' : Display) : Prop where
  drawn : d.drawn = d'.drawn
  shown : d.update.frameNum = 0 ∨ d.backBuffer = d'.backBuffer

theorem drawn_wrapFrame (d : Display) : d.drawn.wrapFrame.drawn = d.wrapFrame.drawn := by
  have hidx : d.drawn.idx = d.idx := rfl
  simp only [wrapFrame, hidx]
  split <;> rfl

variable {d d' : Display}

theorem Like.wrapFrame (h : d.Like d') : d.wrapFrame.Like d'.wrapFrame := by
  refine ⟨erased_congr h.drawn Display.wrapFrame drawn_wrapFrame, ?_⟩
  simp only [Display.wrapFrame, ← eq_of_erased h.drawn idx fun _ => rfl]
  by_cases hnew : d.idx.tdiv frameLen ≠ 0
  · right
    rw [if_pos hnew, if_pos hnew]
    exact eq_of_erased h.drawn frameBuffer fun _ => rfl
  · rw [if_neg hnew, if_neg hnew]
    exact h.shown

end Display

/-! ## A slice -/

structure Raster.Twin (D : δ → δ → Prop) (r r' : Raster δ) : Prop where
  bus : r.toBus.Like D r'.toBus
  mode : r.io.state.ModeKnown r'.io.state ∨ r.io.state.ModeComes
  display : r.display.Like r'.display

namespace Raster

theorem Twin.looks {r r' : Raster δ} (h : r.Twin D r') : LooksAlike r r' := by
  have hdrawn := h.display.drawn
  have hstate := h.bus.io.state
  constructor
  · exact eq_of_erased hdrawn (fun d => d.update.framebufferIdx) fun _ => rfl
  · exact eq_of_erased hdrawn (fun d => d.update.scrollIdx) fun _ => rfl
  · exact eq_of_erased hdrawn Display.borderLeft fun _ => rfl
  · exact eq_of_erased h.bus.mem Memory.ram fun _ => rfl
  · exact eq_of_erased hstate IoState.palette fun _ => rfl
  · exact eq_of_erased hstate (fun s => s.ports.portA) fun _ => rfl
  · exact eq_of_erased hstate IoState.brdColorIdx fun _ => rfl
  · exact eq_of_erased hstate IoState.displayMode fun _ => rfl
  · exact eq_of_erased hstate IoState.outCommitTimer fun _ => rfl
  · exact eq_of_erased hstate IoState.paletteCommitTimer fun _ => rfl

theorem Twin.setDisplay {r r' : Raster δ} (h : r.Twin D r') {f : Display → Display}
    (hf : r.display.Like r'.display → (f r.display).Like (f r'.display)) :
    (r.setDisplay f).Twin D (r'.setDisplay f) := ⟨h.bus, h.mode, hf h.display⟩

theorem twin_bisimulation (hdev : dev.Respects D) : Bisimulation dev (Twin D) := by
  have hlog : ∀ {b b' : Bus δ}, b.Like D b' → ∀ event,
      Bus.Like D { b with io := b.io.log event } { b' with io := b'.io.log event } :=
    fun h _ => ⟨h.mem, h.io.state, h.io.paletteCommitTime, h.io.devices⟩
  constructor
  · exact fun h => h.looks
  · intro r r' h
    have hdrawn := congrArg (fun d : Display =>
      { d with update := { d.update with irq := false } }) h.display.drawn
    exact ⟨hlog h.bus _, h.mode, hdrawn, h.display.shown⟩
  · intro r r' h color
    refine ⟨hlog h.bus _, h.mode, ?_, h.display.shown⟩
    exact erased_congr h.display.drawn (Display.store (vectorColorToArgb color)) fun _ => rfl
  · intro r r' h colorIdx
    obtain ⟨hlike, hknown⟩ := h.bus.tryToCommit hdev h.mode colorIdx
    exact ⟨hlike, .inl hknown, h.display⟩
  · exact fun h => h.setDisplay Display.Like.wrapFrame
  · intro r r' h portA
    exact h.setDisplay fun hd => ⟨erased_congr hd.drawn
      (fun d => { d with update := { d.update with scrollIdx := portA } }) fun _ => rfl, hd.shown⟩

end Raster

/-! ## A turn -/

namespace Hardware

structure Twin (D : δ → δ → Prop) (h h' : Hardware δ) : Prop where
  cpu : h.cpu = h'.cpu
  raster : h.raster.Twin D h'.raster

variable {h h' : Hardware δ}

theorem ports_relate (hdev : dev.Respects D) : (Io.ports dev).Relates
    (fun io io' => io.Like D io' ∧ io.state.ModeKnown io'.state)
    (fun io io' => io.Like D io' ∧ (io.state.ModeKnown io'.state ∨ io.state.ModeComes)) := by
  constructor
  · exact fun hio => ⟨hio.1, .inl hio.2⟩
  · intro io io' hio port
    obtain ⟨hvalue, hnext⟩ := hio.1.portIn hdev port
    refine ⟨hvalue, hnext, .inl ?_⟩
    change (io.portInHandling dev port).2.state.ModeKnown (io'.portInHandling dev port).2.state
    rw [Io.state_portInHandling, Io.state_portInHandling]
    exact hio.2
  · exact fun hio port value => ⟨hio.1.portOut port value, Io.modeComes_portOut hio.2 port value⟩

theorem Twin.machineCycle (hdev : dev.Respects D) (harmed : h.io.Armed) (htwin : h.Twin D h') :
    (h.machineCycle dev).Twin D (h'.machineCycle dev) := by
  have hdrawn := (Raster.twin_bisimulation hdev).rasterize htwin.raster
  have hknown : (h.drawnSys dev).io.state.ModeKnown (h'.drawnSys dev).io.state := by
    refine hdrawn.mode.resolve_right ?_
    rintro ⟨hone, -⟩
    have hzero : (h.raster.rasterize dev).io.state.outCommitTimer = 0 := settled_drawnSys dev harmed
    rw [hzero] at hone
    exact absurd hone (by decide)
  have hcore : (h.drawnSys dev).SameCore (h'.drawnSys dev) := ⟨htwin.cpu, hdrawn.bus.mem⟩
  have hio : (h.drawnSys dev).io.Like D (h'.drawnSys dev).io :=
    ⟨hdrawn.bus.io.state, hdrawn.bus.io.paletteCommitTime, hdrawn.bus.io.devices⟩
  have hirq : h.irqLine dev = h'.irqLine dev :=
    eq_of_erased hdrawn.display.drawn (fun d => d.update.irq) fun _ => rfl
  have hturned : (h.turned dev).SameCore (h'.turned dev) ∧
      (h.turned dev).io.Like D (h'.turned dev).io ∧
        ((h.turned dev).io.state.ModeKnown (h'.turned dev).io.state ∨
          (h.turned dev).io.state.ModeComes) := by
    rw [turned, turned, ← hirq]
    exact hcore.executeMachineCycle (ports_relate hdev) (h.irqLine dev) ⟨hio, hknown⟩
  obtain ⟨hcore', hlike, hmode⟩ := hturned
  rw [machineCycle_eq, machineCycle_eq]
  generalize h.turned dev = s at hcore' hlike hmode ⊢
  generalize h'.turned dev = s' at hcore' hlike hmode ⊢
  have hclock := hdev.audioClock hlike.devices (s.io.state.ports.portC.getLsbD 0)
  have hbeeper := eq_of_erased hlike.state (fun s => s.ports.portC.getLsbD 0) fun _ => rfl
  have hdevices : D (dev.audioClock (s.io.state.ports.portC.getLsbD 0) s.io.devices)
      (dev.audioClock (s'.io.state.ports.portC.getLsbD 0) s'.io.devices) := by
    rw [← hbeeper]
    exact hclock
  exact ⟨hcore'.cpu, ⟨hcore'.mem, hlike.state, hlike.paletteCommitTime, hdevices⟩, hmode,
    hdrawn.display⟩

/-! ## Instructions -/

theorem Twin.runCycles (hdev : dev.Respects D) (htwin : h.Twin D h') (hturn : h.toSys.Turning)
    (fuel : Nat) : Option.Rel (Twin D) (h.runCycles dev fuel) (h'.runCycles dev fuel) := by
  induction fuel generalizing h h' with
  | zero => exact .none
  | succ fuel ih =>
      have hnext := htwin.machineCycle hdev hturn.armed
      have hdone : (h.machineCycle dev).isInstructionExecuted =
          (h'.machineCycle dev).isInstructionExecuted :=
        congrArg (fun cpu : CpuState => cpu.mc == 0#4 || cpu.hlta) hnext.cpu
      rw [runCycles_succ, runCycles_succ, ← hdone]
      split
      · exact .some hnext
      · exact ih hnext (turning_machineCycle dev hturn)

theorem Twin.setMem (htwin : h.Twin D h') {f : Memory → Memory}
    (hf : ∀ m, (f m.seen).seen = (f m).seen) :
    (h.setMem (f h.mem)).Twin D (h'.setMem (f h'.mem)) :=
  ⟨htwin.cpu, ⟨erased_congr htwin.raster.bus.mem f hf, htwin.raster.bus.io⟩, htwin.raster.mode,
    htwin.raster.display⟩

theorem Twin.checkMapping (htwin : h.Twin D h') : h.checkMapping.2.Twin D h'.checkMapping.2 := by
  have hexception : h.mem.isException.1 = h'.mem.isException.1 :=
    eq_of_erased htwin.raster.bus.mem (fun m => m.isException.1) fun _ => rfl
  unfold Hardware.checkMapping
  dsimp only
  rw [← hexception]
  by_cases hcollision : h.mem.isException.1 = true
  · rw [if_pos hcollision, if_pos hcollision]
    exact htwin.setMem (f := fun m => m.isException.2.initRamDiskMapping) fun _ => rfl
  · rw [if_neg hcollision, if_neg hcollision]
    exact htwin.setMem (f := fun m => m.isException.2) fun _ => rfl

structure ParkedTwin (D : δ → δ → Prop) (h h' : Hardware δ) : Prop where
  parked : h.Parked
  twin : h.Twin D h'

theorem ParkedTwin.executeInstruction (hdev : dev.Respects D) (htwin : h.ParkedTwin D h') :
    Option.Rel (ParkedTwin D) ((h.executeInstruction dev none).map Prod.snd)
      ((h'.executeInstruction dev none).map Prod.snd) := by
  have hstart : (h.setMem h.mem.debugInit).Twin D (h'.setMem h'.mem.debugInit) :=
    htwin.twin.setMem fun _ => rfl
  have hparked : (h.setMem h.mem.debugInit).Parked := htwin.parked.of_cpu_io rfl rfl
  have hrun := hstart.runCycles hdev hparked.turning cyclesMax
  simp only [Hardware.executeInstruction, Option.map_map]
  generalize hu : h.executeCycles dev = u
  generalize hu' : h'.executeCycles dev = u'
  rw [← executeCycles, ← executeCycles, hu, hu'] at hrun
  cases hrun with
  | none => exact .none
  | some hts =>
      exact .some ⟨parked_checkMapping (parked_executeCycles htwin.parked hu), hts.checkMapping⟩

/-! ## Resets -/

theorem Twin.restart (hdev : dev.Respects D) (htwin : h.Twin D h') :
    (h.restart dev).Twin D (h'.restart dev) := by
  have hmem := congrArg Memory.restart htwin.raster.bus.mem
  have hdisplay := congrArg Display.reset htwin.raster.display.drawn
  have hio := htwin.raster.bus.io
  exact ⟨rfl, ⟨hmem, hio.state, hio.paletteCommitTime, hdev.audioReset hio.devices⟩,
    htwin.raster.mode, hdisplay, .inl rfl⟩

structure SameKept (h h' : Hardware δ) : Prop where
  rom : h.mem.rom = h'.mem.rom
  ramDiskClearAfterRestart : h.mem.ramDiskClearAfterRestart = h'.mem.ramDiskClearAfterRestart
  ramDisks : h.mem.ramDiskClearAfterRestart = false →
    ∀ i, memoryMainLen ≤ i.val → h.mem.ram i = h'.mem.ram i
  paletteCommitTime : h.io.paletteCommitTime = h'.io.paletteCommitTime
  borderLeft : h.display.borderLeft = h'.display.borderLeft
  irqCommitPxl : h.display.irqCommitPxl = h'.display.irqCommitPxl

theorem SameKept.ram_init (hkept : h.SameKept h') : h.mem.init.ram = h'.mem.init.ram := by
  funext i
  change (if h.mem.ramDiskClearAfterRestart = true ∨ i.val < memoryMainLen then 0
    else h.mem.ram i) =
      if h'.mem.ramDiskClearAfterRestart = true ∨ i.val < memoryMainLen then 0 else h'.mem.ram i
  rw [← hkept.ramDiskClearAfterRestart]
  split
  · rfl
  · rename_i hpreserved
    obtain ⟨hclear, hdisk⟩ := not_or.mp hpreserved
    exact hkept.ramDisks (Bool.eq_false_iff.mpr hclear) i (Nat.le_of_not_lt hdisk)

theorem SameKept.twin_reset (hkept : h.SameKept h')
    (hdevices : D (dev.audioReset h.io.devices) (dev.audioReset h'.io.devices)) :
    (h.reset dev).Twin D (h'.reset dev) := by
  have hmem : h.mem.init.seen = h'.mem.init.seen := by
    have hram := hkept.ram_init
    rw [Memory.mk.injEq]
    exact ⟨hram, hkept.rom, rfl, rfl, rfl, rfl, hkept.ramDiskClearAfterRestart⟩
  have hdisplay : h.display.reset.drawn = h'.display.reset.drawn := by
    rw [Display.mk.injEq]
    exact ⟨rfl, rfl, rfl, hkept.borderLeft, hkept.irqCommitPxl, rfl⟩
  exact ⟨rfl, ⟨hmem, rfl, hkept.paletteCommitTime, hdevices⟩, .inl (.inr rfl), hdisplay,
    .inl rfl⟩

/-! ## Runs behind a reset -/

variable {κ : Type}

/-- What happens to a machine: instructions, keys and disks, and the two resets. -/
inductive Occurrence (κ : Type) where
  | instruction
  | peripherals (change : κ → κ)
  | reset
  | restart

def occur (p : Peripherals κ) (h : Hardware (Chips κ)) : Occurrence κ → Option (Hardware (Chips κ))
  | .instruction => (h.executeInstruction p.devices none).map Prod.snd
  | .peripherals change =>
      some (h.setIo { h.io with
        devices := h.io.devices.setPeripherals (change h.io.devices.peripherals) })
  | .reset => some (h.reset p.devices)
  | .restart => some (h.restart p.devices)

/-- What a program and the one before the screen find. -/
structure Indistinct (p : Peripherals κ) (h h' : Hardware (Chips κ)) : Prop where
  cpu : h.cpu = h'.cpu
  ram : h.mem.ram = h'.mem.ram
  mappings : h.mem.mappings = h'.mem.mappings
  mappingsEnabled : h.mem.mappingsEnabled = h'.mem.mappingsEnabled
  update : h.mem.update = h'.mem.update
  input : ∀ port, (h.io.portIn p.devices port).1 = (h'.io.portIn p.devices port).1
  frameBuffer : h.display.frameBuffer = h'.display.frameBuffer
  frameNum : h.display.update.frameNum = h'.display.update.frameNum
  backBuffer : h.display.update.frameNum ≠ 0 → h.display.backBuffer = h'.display.backBuffer

section

variable {p : Peripherals κ} {t t' : Hardware (Chips κ)}

theorem Twin.indistinct (htwin : t.Twin Chips.Alike t') : t.Indistinct p t' := by
  have hmem := htwin.raster.bus.mem
  have hdrawn := htwin.raster.display.drawn
  constructor
  · exact htwin.cpu
  · exact eq_of_erased hmem Memory.ram fun _ => rfl
  · exact eq_of_erased hmem Memory.mappings fun _ => rfl
  · exact eq_of_erased hmem Memory.mappingsEnabled fun _ => rfl
  · exact eq_of_erased hmem Memory.update fun _ => rfl
  · exact fun port => (htwin.raster.bus.io.portIn (Chips.respects p) port).1
  · exact eq_of_erased hdrawn Display.frameBuffer fun _ => rfl
  · exact eq_of_erased hdrawn (fun d => d.update.frameNum) fun _ => rfl
  · exact htwin.raster.display.shown.resolve_left

theorem Twin.sameKept (htwin : t.Twin Chips.Alike t') : t.SameKept t' := by
  have hmem := htwin.raster.bus.mem
  have hdrawn := htwin.raster.display.drawn
  have hram : t.mem.ram = t'.mem.ram := eq_of_erased hmem Memory.ram fun _ => rfl
  constructor
  · exact eq_of_erased hmem Memory.rom fun _ => rfl
  · exact eq_of_erased hmem Memory.ramDiskClearAfterRestart fun _ => rfl
  · exact fun _ i _ => congrFun hram i
  · exact htwin.raster.bus.io.paletteCommitTime
  · exact eq_of_erased hdrawn Display.borderLeft fun _ => rfl
  · exact eq_of_erased hdrawn Display.irqCommitPxl fun _ => rfl

theorem ParkedTwin.occur (htwin : t.ParkedTwin Chips.Alike t') (o : Occurrence κ) :
    Option.Rel (ParkedTwin Chips.Alike) (t.occur p o) (t'.occur p o) := by
  have hdevices := htwin.twin.raster.bus.io.devices
  cases o with
  | instruction => exact htwin.executeInstruction (Chips.respects p)
  | peripherals change =>
      have hio := htwin.twin.raster.bus.io
      have hchanged : (t.io.devices.setPeripherals (change t.io.devices.peripherals)).Alike
          (t'.io.devices.setPeripherals (change t'.io.devices.peripherals)) :=
        ⟨congrArg change hdevices.peripherals, hdevices.timer, hdevices.ay⟩
      exact .some ⟨htwin.parked.of_cpu_io rfl rfl, htwin.twin.cpu, ⟨htwin.twin.raster.bus.mem,
        hio.state, hio.paletteCommitTime, hchanged⟩, htwin.twin.raster.mode,
        htwin.twin.raster.display⟩
  | reset =>
      exact .some ⟨parked_reset p.devices t,
        htwin.twin.sameKept.twin_reset (Chips.alike_reset hdevices.peripherals)⟩
  | restart =>
      exact .some ⟨parked_restart p.devices htwin.parked, htwin.twin.restart (Chips.respects p)⟩

theorem occur_isSome (o : Occurrence κ) : (t.occur p o).isSome := by
  cases o with
  | instruction =>
      rw [Hardware.occur, Option.isSome_map, Hardware.executeInstruction, Option.isSome_map]
      exact executeCycles_isSome p.devices t
  | _ => rfl

end

/-- Whatever machines were before a reset, they cannot be told apart behind it. -/
theorem reset_forgets (p : Peripherals κ) {h h' : Hardware (Chips κ)} (hkept : h.SameKept h')
    (hperipherals : h.io.devices.peripherals = h'.io.devices.peripherals)
    (occurrences : List (Occurrence κ)) :
    ∃ t t', Runs.exec (occur p) (h.reset p.devices) occurrences = some t ∧
      Runs.exec (occur p) (h'.reset p.devices) occurrences = some t' ∧ t.Indistinct p t' := by
  have hstart : (h.reset p.devices).ParkedTwin Chips.Alike (h'.reset p.devices) :=
    ⟨parked_reset p.devices h, hkept.twin_reset (Chips.alike_reset hperipherals)⟩
  have hruns := Runs.exec_related (fun _ _ o htwin => ParkedTwin.occur (p := p) htwin o) hstart
    occurrences
  have htotal : (Runs.exec (occur p) (h.reset p.devices) occurrences).isSome :=
    Runs.exec_isSome (fun _ o => occur_isSome o) _ _
  obtain ⟨t, ht⟩ := Option.isSome_iff_exists.mp htotal
  generalize hu : Runs.exec (occur p) (h'.reset p.devices) occurrences = u at hruns
  rw [ht] at hruns
  cases hruns with
  | some htwin => exact ⟨t, _, ht, rfl, htwin.twin.indistinct⟩

def fresh : Hardware (Chips Unit) := ofRam (fun _ => 0) ⟨(), .reset, ⟨.init, 0⟩⟩

/-- One that has run: a requested mode, used RAM, a timer that counts. -/
def used : Hardware (Chips Unit) where
  cpu := { CpuState.reset with a := 5, hlta := true }
  mem := { Memory.ofRam (fun i => if i.val < memoryMainLen then 0xFF else 0) with
    mappingsEnabled := 2 }
  io := { Io.new ⟨(), (TimerI8253.reset.clock 1).write 0 7, ⟨.init, 90⟩⟩ with
    state := { IoState.zero with reqDisplayMode := true, displayModeTimer := 3, outport := 2 } }
  stores := []
  display := { Display.new with backBuffer := fun _ => 1, fault := true }

theorem reset_forgets_used :
    ∃ t t', Runs.exec (occur .silent) (fresh.reset Peripherals.silent.devices)
        [.instruction, .peripherals id, .instruction] = some t ∧
      Runs.exec (occur .silent) (used.reset Peripherals.silent.devices)
        [.instruction, .peripherals id, .instruction] = some t' ∧ t.Indistinct .silent t' := by
  have hkept : fresh.SameKept used := by
    refine ⟨rfl, rfl, ?_, rfl, rfl, rfl⟩
    intro _ i hi
    exact (if_neg (Nat.not_lt.mpr hi)).symm
  exact reset_forgets .silent hkept rfl _

end Hardware

end V6Emul
