import V6Emul.Display.Border
import V6Emul.Hardware.AfterReset
import V6Emul.Hardware.Board

/-!
# A machine that is put back

The recorder puts back the processor, the RAM, the ports and the beam.  The picture, the
history and the chips stay where they are.  A program that reads no chip but the keyboard
goes on from there as it went before.
-/

namespace V6Emul

open Runs (eq_of_erased erased_congr)

variable {δ : Type} {dev : Devices δ} {D : δ → δ → Prop}

def isChipPort (port : Byte) : Bool :=
  match port.toNat with
  | 0x08 | 0x09 | 0x0A | 0x0B | 0x14 | 0x15 | 0x18 | 0x19 | 0x1A | 0x1B | 0x1C => true
  | _ => false

structure Devices.SharesKeys (dev : Devices δ) (D : δ → δ → Prop) : Prop where
  keyRead : ∀ {d d'}, D d d' → ∀ portA, dev.keyRead portA d = dev.keyRead portA d'
  keySS : ∀ {d d'}, D d d' → dev.keySS d = dev.keySS d'
  keyUS : ∀ {d d'}, D d d' → dev.keyUS d = dev.keyUS d'
  keyRus : ∀ {d d'}, D d d' → dev.keyRus d = dev.keyRus d'
  afterOut : ∀ {d d'}, D d d' → ∀ port value,
    D (dev.afterOut port value d) (dev.afterOut port value d')
  audioClock : ∀ {d d'}, D d d' → ∀ beeper, D (dev.audioClock beeper d) (dev.audioClock beeper d')

/-! ## The ports -/

structure Io.Resumes (D : δ → δ → Prop) (io io' : Io δ) : Prop where
  state : io.state = io'.state
  paletteCommitTime : io.paletteCommitTime = io'.paletteCommitTime
  devices : D io.devices io'.devices

namespace Io

variable {io io' : Io δ}

theorem Resumes.portIn (hdev : dev.SharesKeys D) (h : io.Resumes D io') {port : Byte}
    (hport : isChipPort port = false) :
    (io.portIn dev port).1 = (io'.portIn dev port).1 ∧
      Resumes D (io.portIn dev port).2 (io'.portIn dev port).2 := by
  have hin : (io.portInHandling dev port).1 = (io'.portInHandling dev port).1 ∧
      Resumes D (io.portInHandling dev port).2 (io'.portInHandling dev port).2 := by
    unfold isChipPort at hport
    simp only [portInHandling, readPortC, ← h.state, ← hdev.keySS h.devices,
      ← hdev.keyUS h.devices, ← hdev.keyRus h.devices, ← hdev.keyRead h.devices]
    generalize port.toNat = number at hport
    split
    all_goals first
      | exact ⟨rfl, h⟩
      | cases hport
  exact ⟨hin.1, hin.2.state, hin.2.paletteCommitTime, hin.2.devices⟩

theorem Resumes.portOut (h : io.Resumes D io') (port value : Byte) :
    (io.portOut port value).Resumes D (io'.portOut port value) := by
  refine ⟨?_, h.paletteCommitTime, h.devices⟩
  simp only [Io.portOut, log, ← h.paletteCommitTime, ← h.state]

end Io

/-! ## Commits -/

structure Bus.Resumes (D : δ → δ → Prop) (b b' : Bus δ) : Prop where
  mem : b.mem.seen = b'.mem.seen
  io : b.io.Resumes D b'.io

namespace Bus

variable {b b' : Bus δ}

theorem Resumes.log (h : b.Resumes D b') (event : PortEvent) :
    Resumes D { b with io := b.io.log event } { b' with io := b'.io.log event } :=
  ⟨h.mem, h.io.state, h.io.paletteCommitTime, h.io.devices⟩

theorem Resumes.setIoState (h : b.Resumes D b') (f : IoState → IoState) :
    (b.setIoState f).Resumes D (b'.setIoState f) :=
  ⟨h.mem, congrArg f h.io.state, h.io.paletteCommitTime, h.io.devices⟩

theorem Resumes.portOutHandling (hdev : dev.SharesKeys D) (h : b.Resumes D b')
    (port value : Byte) :
    (b.portOutHandling dev port value).Resumes D (b'.portOutHandling dev port value) := by
  have hdevices : D (b.portOutHandling dev port value).io.devices
      (b'.portOutHandling dev port value).io.devices := by
    rw [devices_portOutHandling, devices_portOutHandling]
    exact hdev.afterOut h.io.devices port value
  have hmode : ∀ disk, (b.mem.setRamDiskMode disk value).seen =
      (b'.mem.setRamDiskMode disk value).seen := fun disk =>
    erased_congr h.mem (fun m => m.setRamDiskMode disk value)
      (Memory.seen_setRamDiskMode disk value)
  have hports : ∀ f, (b.setIoState f).mem.seen = (b'.setIoState f).mem.seen ∧
      (b.setIoState f).io.state = (b'.setIoState f).io.state ∧
      (b.setIoState f).io.paletteCommitTime = (b'.setIoState f).io.paletteCommitTime :=
    fun f => ⟨h.mem, congrArg f h.io.state, h.io.paletteCommitTime⟩
  obtain ⟨hmem, hstate, htime⟩ :
      (b.portOutHandling dev port value).mem.seen = (b'.portOutHandling dev port value).mem.seen ∧
      (b.portOutHandling dev port value).io.state = (b'.portOutHandling dev port value).io.state ∧
      (b.portOutHandling dev port value).io.paletteCommitTime =
        (b'.portOutHandling dev port value).io.paletteCommitTime := by
    unfold Bus.portOutHandling
    generalize port.toNat = number
    split
    all_goals first
      | exact hports _
      | exact ⟨hmode _, h.io.state, h.io.paletteCommitTime⟩
      | exact ⟨h.mem, h.io.state, h.io.paletteCommitTime⟩
  exact ⟨hmem, hstate, htime, hdevices⟩

theorem Resumes.countOut (hdev : dev.SharesKeys D) (h : b.Resumes D b') :
    (b.countOut dev).Resumes D (b'.countOut dev) := by
  have hcounted := h.setIoState fun s =>
    { s with outCommitTimer := b.io.state.outCommitTimer - 1 }
  simp only [Bus.countOut, ← h.io.state]
  refine Raster.rel_ite (Raster.rel_ite ?_ hcounted) h
  simp only [Bus.portOutCommit, ← hcounted.io.state]
  exact (hcounted.log _).portOutHandling hdev _ _

theorem Resumes.tryToCommit (hdev : dev.SharesKeys D) (h : b.Resumes D b') (colorIdx : BitVec 4) :
    (b.tryToCommit dev colorIdx).Resumes D (b'.tryToCommit dev colorIdx) :=
  (h.countOut hdev).setIoState _

end Bus

/-! ## The display -/

def Display.beam (d : Display) : Display :=
  { d with frameBuffer := fun _ => 0, backBuffer := fun _ => 0, fault := false }

theorem Display.beam_wrapFrame (d : Display) : d.beam.wrapFrame.beam = d.wrapFrame.beam := by
  have hidx : d.beam.idx = d.idx := rfl
  simp only [wrapFrame, hidx]
  split <;> rfl

/-- Equal but for the picture, the debug record, the chips and what is only logged. -/
structure Raster.Resumes (D : δ → δ → Prop) (r r' : Raster δ) : Prop where
  bus : r.toBus.Resumes D r'.toBus
  beam : r.display.beam = r'.display.beam

namespace Raster

variable {r r' : Raster δ}

theorem Resumes.looks (h : r.Resumes D r') : LooksAlike r r' := by
  have hstate := h.bus.io.state
  constructor
  · exact eq_of_erased h.beam (fun d => d.update.framebufferIdx) fun _ => rfl
  · exact eq_of_erased h.beam (fun d => d.update.scrollIdx) fun _ => rfl
  · exact eq_of_erased h.beam Display.borderLeft fun _ => rfl
  · exact eq_of_erased h.bus.mem Memory.ram fun _ => rfl
  all_goals rw [hstate]

theorem Resumes.setDisplay (h : r.Resumes D r') {f : Display → Display}
    (hf : ∀ d, (f d.beam).beam = (f d).beam) :
    (r.setDisplay f).Resumes D (r'.setDisplay f) :=
  ⟨h.bus, erased_congr h.beam f hf⟩

theorem resumes_bisimulation (hdev : dev.SharesKeys D) : Bisimulation dev (Resumes D) := by
  constructor
  · exact fun h => h.looks
  · intro r r' h
    exact ⟨h.bus.log .rasterize, erased_congr h.beam
      (fun d => { d with update := { d.update with irq := false } }) fun _ => rfl⟩
  · intro r r' h color
    exact ⟨h.bus.log .pixel,
      erased_congr h.beam (Display.store (vectorColorToArgb color)) fun _ => rfl⟩
  · exact fun h colorIdx => ⟨h.bus.tryToCommit hdev colorIdx, h.beam⟩
  · exact fun h => h.setDisplay Display.beam_wrapFrame
  · exact fun h portA => h.setDisplay fun _ => rfl

end Raster

/-! ## A turn -/

def opcodeIn : Byte := 0xDB#8

def PortFuncs.deaf (ports : PortFuncs (Io δ)) : PortFuncs (Io δ) where
  input port io := if isChipPort port then (0, io) else ports.input port io
  output := ports.output

namespace Sys

theorem decode_in (op : Byte) : decode op = .in_ ↔ op = opcodeIn := by
  revert op
  decide +kernel

def HearsNoChip (s : Sys (Io δ)) : Prop :=
  s.cpu.ir = opcodeIn → s.cpu.mc = 2 → isChipPort s.cpu.wz.l = false

theorem in_deaf (ports : PortFuncs (Io δ)) {s : Sys (Io δ)} 
    (h : s.cpu.mc = 2 → isChipPort s.cpu.wz.l = false) : s.in_ ports.deaf = s.in_ ports := by
  unfold in_
  split
  · rfl
  · rename_i hmc
    have hport := h (BitVec.eq_of_toNat_eq hmc)
    simp only [PortFuncs.deaf, hport]
    rfl
  · rfl

theorem executeMachineCycle_deaf (ports : PortFuncs (Io δ)) {irq : Bool} {s : Sys (Io δ)}
    (h : (s.enter irq).HearsNoChip) :
    s.executeMachineCycle ports.deaf irq = s.executeMachineCycle ports irq := by
  rw [executeMachineCycle_eq, executeMachineCycle_eq, cycle, cycle]
  congr 2
  generalize s.enter irq = t at h
  cases hmicro : decode t.cpu.ir with
  | in_ => exact in_deaf ports (h ((decode_in _).mp hmicro))
  | _ => rfl

def inPort (s : Sys (Io δ)) : Byte :=
  if s.cpu.mc = 0 then s.mem.getByte (s.cpu.pc.word + 1#16) .ram
  else if s.cpu.mc = 1 then s.opcode
  else s.cpu.wz.l

theorem mc_enter (irq : Bool) (s : Sys (Io δ)) : (s.enter irq).cpu.mc = s.cpu.mc := by
  simp only [enter, beginInstruction]
  repeat' split
  all_goals rfl

theorem enter_in {irq : Bool} {s : Sys (Io δ)} (hnext : s.nextOpcode irq = opcodeIn)
    (hmc : s.cpu.mc = 0) : s.enter irq = (s.latchIrq irq).fetchOpcode := by
  have hno : ¬ s.Accepts irq := by
    intro hacc
    rw [nextOpcode, if_neg (not_not_intro hmc), if_pos hacc] at hnext
    exact absurd hnext (by decide)
  exact enter_of_fetch hmc (not_interrupted_of_fetches ⟨hmc, hno, rfl⟩)

theorem cycle_in (ports : PortFuncs (Io δ)) {irq : Bool} {s : Sys (Io δ)}
    (hnext : s.nextOpcode irq = opcodeIn) :
    s.executeMachineCycle ports irq = (((s.enter irq).in_ ports).stepMC 3).addCC := by
  rw [executeMachineCycle_eq, ir_enter, hnext]
  rfl

theorem inPort_executeMachineCycle (ports : PortFuncs (Io δ)) {irq : Bool} {s : Sys (Io δ)}
    (hnext : s.nextOpcode irq = opcodeIn) (hmore : (s.executeMachineCycle ports irq).cpu.mc ≠ 0)
    (hin : s.cpu.mc.toNat < 3) : (s.executeMachineCycle ports irq).inPort = s.inPort := by
  have hcases : s.cpu.mc = 0 ∨ s.cpu.mc = 1 ∨ s.cpu.mc = 2 := by
    obtain hzero | hone | htwo : s.cpu.mc.toNat = 0 ∨ s.cpu.mc.toNat = 1 ∨ s.cpu.mc.toNat = 2 := by
      omega
    · exact .inl (BitVec.eq_of_toNat_eq hzero)
    · exact .inr (.inl (BitVec.eq_of_toNat_eq hone))
    · exact .inr (.inr (BitVec.eq_of_toNat_eq htwo))
  rw [cycle_in ports hnext] at hmore ⊢
  rcases hcases with hmc | hmc | hmc
  · have hidle : ((s.latchIrq irq).fetchOpcode.in_ ports) = (s.latchIrq irq).fetchOpcode := by
      have hfetched : (s.latchIrq irq).fetchOpcode.cpu.mc = 0 := hmc
      rw [in_, hfetched]
      rfl
    rw [enter_in hnext hmc, hidle]
    have hstep : (((s.latchIrq irq).fetchOpcode.stepMC 3).addCC).cpu.mc = 1 := by
      change BitVec.ofNat 4 ((s.cpu.mc + 1).toNat % 3) = 1
      rw [hmc]
      rfl
    rw [inPort, inPort, if_neg (by rw [hstep]; decide), if_pos hstep, if_pos hmc]
    change s.mem.getByte (RegPair.ofWord (s.cpu.pc.word + 1#16)).word .ram = _
    rw [RegPair.word_ofWord]
  · have hne : s.cpu.mc ≠ 0 := by
      rw [hmc]
      decide
    have hread : ((s.latchIrq irq).in_ ports) = (s.latchIrq irq).fetchPort := by
      have hlatched : (s.latchIrq irq).cpu.mc = 1 := hmc
      rw [in_, hlatched]
      rfl
    rw [enter_of_mc_ne irq hne, hread]
    have hstep : (((s.latchIrq irq).fetchPort.stepMC 3).addCC).cpu.mc = 2 := by
      change BitVec.ofNat 4 ((s.cpu.mc + 1).toNat % 3) = 2
      rw [hmc]
      rfl
    rw [inPort, inPort, if_neg (by rw [hstep]; decide), if_neg (by rw [hstep]; decide),
      if_neg hne, if_pos hmc]
    rfl
  · refine absurd ?_ hmore
    have hne : s.cpu.mc ≠ 0 := by
      rw [hmc]
      decide
    have hlatched : (s.latchIrq irq).cpu.mc = 2 := hmc
    rw [enter_of_mc_ne irq hne, in_, hlatched]
    change BitVec.ofNat 4 ((s.cpu.mc + 1).toNat % 3) = 0
    rw [hmc]
    rfl

end Sys

namespace Hardware

variable {h h' : Hardware δ}

/-- Equal but for the picture, the debug record, the chips and what is only logged. -/
structure Resumes (D : δ → δ → Prop) (h h' : Hardware δ) : Prop where
  cpu : h.cpu = h'.cpu
  raster : h.raster.Resumes D h'.raster

theorem ports_resume (hdev : dev.SharesKeys D) :
    (Io.ports dev).deaf.Relates (Io.Resumes D) (Io.Resumes D) := by
  constructor
  · exact fun hio => hio
  · intro io io' hio port
    simp only [PortFuncs.deaf]
    split
    · exact ⟨rfl, hio⟩
    · rename_i hport
      exact hio.portIn hdev (Bool.eq_false_iff.mpr hport)
  · exact fun hio port value => hio.portOut port value

theorem Resumes.machineCycle (hdev : dev.SharesKeys D) (hh : h.Resumes D h')
    (hquiet : ((h.drawnSys dev).enter (h.irqLine dev)).HearsNoChip) :
    (h.machineCycle dev).Resumes D (h'.machineCycle dev) := by
  have hdrawn := (Raster.resumes_bisimulation hdev).rasterize hh.raster
  have hcore : (h.drawnSys dev).SameCore (h'.drawnSys dev) := ⟨hh.cpu, hdrawn.bus.mem⟩
  have hio : (h.drawnSys dev).io.Resumes D (h'.drawnSys dev).io := (hdrawn.bus.log .cycle).io
  have hirq : h.irqLine dev = h'.irqLine dev :=
    eq_of_erased hdrawn.beam (fun d => d.update.irq) fun _ => rfl
  have hentered := (hcore.enter (h.irqLine dev)).cpu
  have hquiet' : ((h'.drawnSys dev).enter (h.irqLine dev)).HearsNoChip := by
    rw [Sys.HearsNoChip, ← hentered]
    exact hquiet
  have hturned : (h.turned dev).SameCore (h'.turned dev) ∧
      (h.turned dev).io.Resumes D (h'.turned dev).io := by
    rw [turned, turned, ← hirq, ← Sys.executeMachineCycle_deaf _ hquiet,
      ← Sys.executeMachineCycle_deaf _ hquiet']
    exact hcore.executeMachineCycle (ports_resume hdev) (h.irqLine dev) hio
  obtain ⟨hcore', hresumes⟩ := hturned
  rw [machineCycle_eq, machineCycle_eq]
  generalize h.turned dev = s at hcore' hresumes ⊢
  generalize h'.turned dev = s' at hcore' hresumes ⊢
  have hdevices : D (dev.audioClock (s.io.state.ports.portC.getLsbD 0) s.io.devices)
      (dev.audioClock (s'.io.state.ports.portC.getLsbD 0) s'.io.devices) := by
    rw [← hresumes.state]
    exact hdev.audioClock hresumes.devices _
  exact ⟨hcore'.cpu, ⟨⟨hcore'.mem, hresumes.state, hresumes.paletteCommitTime, hdevices⟩,
    hdrawn.beam⟩⟩

/-! ## Instructions -/

def Hushed (dev : Devices δ) (h : Hardware δ) : Prop :=
  h.toSys.nextOpcode (h.irqLine dev) = opcodeIn → isChipPort h.toSys.inPort = false

theorem Hushed.hears (hushed : h.Hushed dev) :
    ((h.drawnSys dev).enter (h.irqLine dev)).HearsNoChip := by
  intro hir hmc
  rw [Sys.mc_enter] at hmc
  have hmc' : h.cpu.mc = 2 := hmc
  have hne : h.cpu.mc ≠ 0 := by
    rw [hmc']
    decide
  have hlatched : (h.drawnSys dev).enter (h.irqLine dev) =
      (h.drawnSys dev).latchIrq (h.irqLine dev) := Sys.enter_of_mc_ne _ hne
  rw [hlatched] at hir ⊢
  have hport := hushed ((if_pos hne).trans hir)
  rwa [Sys.inPort, if_neg hne, if_neg (by rw [hmc']; decide)] at hport

theorem Hushed.machineCycle (hturn : h.toSys.Turning) (hushed : h.Hushed dev)
    (hmore : (h.machineCycle dev).isInstructionExecuted = false) :
    (h.machineCycle dev).Hushed dev := by
  have hmc : (h.machineCycle dev).cpu.mc ≠ 0 :=
    Sys.mc_ne_of_not_executed (by rw [hmore]; exact Bool.false_ne_true)
  have hir : (h.machineCycle dev).cpu.ir = (h.drawnSys dev).nextOpcode (h.irqLine dev) := by
    change (h.turned dev).cpu.ir = _
    rw [turned, Sys.executeMachineCycle_eq, Sys.ir_cycle, Sys.ir_enter]
  intro hnext
  rw [Sys.nextOpcode, if_pos hmc, hir] at hnext
  have hslot : h.io.Settled := by
    refine (hturn.slot).resolve_right ?_
    rintro ⟨-, hout, hlast⟩
    have hne : (h.drawnSys dev).cpu.mc ≠ 0 := by
      change h.cpu.mc ≠ 0
      rw [hlast]
      decide
    rw [Sys.nextOpcode, if_pos hne] at hnext
    have hin : h.cpu.ir = opcodeIn := hnext
    rw [(Sys.decode_out _).mp hout] at hin
    exact absurd hin (by decide)
  have hdrawn : (h.drawnSys dev).inPort = h.toSys.inPort := by
    rw [Sys.inPort, Sys.inPort, Sys.opcode, mem_drawnSys dev hslot]
    rfl
  have hlt : (h.drawnSys dev).cpu.mc.toNat < 3 := by
    change h.cpu.mc.toNat < 3
    by_cases hfirst : h.cpu.mc = 0
    · rw [hfirst]
      decide
    · have hcycle := hturn.sequenced.inCycle
      have hop : h.cpu.ir = opcodeIn := by
        rwa [nextOpcode_drawnSys dev hslot, Sys.nextOpcode, if_pos hfirst] at hnext
      rwa [Sys.InCycle, hop] at hcycle
  have hturned : (h.machineCycle dev).inPort = (h.turned dev).inPort := by
    rw [machineCycle_eq]
    generalize h.turned dev = s
    rfl
  rw [hturned, turned, Sys.inPort_executeMachineCycle _ hnext hmc hlt, hdrawn]
  rw [nextOpcode_drawnSys dev hslot] at hnext
  exact hushed hnext

theorem Resumes.runCycles (hdev : dev.SharesKeys D) (hh : h.Resumes D h')
    (hturn : h.toSys.Turning) (hushed : h.Hushed dev) (fuel : Nat) :
    Option.Rel (Resumes D) (h.runCycles dev fuel) (h'.runCycles dev fuel) := by
  induction fuel generalizing h h' with
  | zero => exact .none
  | succ fuel ih =>
      have hnext := hh.machineCycle hdev hushed.hears
      have hdone : (h.machineCycle dev).isInstructionExecuted =
          (h'.machineCycle dev).isInstructionExecuted :=
        congrArg (fun cpu : CpuState => cpu.mc == 0#4 || cpu.hlta) hnext.cpu
      rw [runCycles_succ, runCycles_succ, ← hdone]
      split
      · exact .some hnext
      · rename_i hmore
        exact ih hnext (turning_machineCycle dev hturn)
          (hushed.machineCycle hturn (Bool.eq_false_iff.mpr hmore))

def nextIn (dev : Devices δ) (h : Hardware δ) : Option Byte :=
  if h.toSys.nextOpcode (h.irqLine dev) = opcodeIn then
    some (h.mem.getByte (h.cpu.pc.word + 1#16) .ram)
  else none

def ReadsNoChip (dev : Devices δ) (h : Hardware δ) : Prop :=
  ∀ port ∈ h.nextIn dev, isChipPort port = false

theorem hushed_of_readsNoChip (hparked : h.Parked) (hreads : h.ReadsNoChip dev) :
    (h.setMem h.mem.debugInit).Hushed dev := by
  have hirq : (h.setMem h.mem.debugInit).irqLine dev = h.irqLine dev := irqLine_setMem dev h rfl
  intro hnext
  rw [hirq] at hnext
  have hnext' : h.toSys.nextOpcode (h.irqLine dev) = opcodeIn := hnext
  have hmc : h.cpu.mc = 0 := by
    rcases hparked.cpu.startable false with ⟨hzero, -⟩ | ⟨hone, hhlt, -⟩
    · exact hzero
    · rw [Sys.nextOpcode, if_pos (by rw [hone]; decide), hhlt] at hnext'
      exact absurd hnext' (by decide)
  have hport : (h.setMem h.mem.debugInit).toSys.inPort =
      h.mem.getByte (h.cpu.pc.word + 1#16) .ram := if_pos hmc
  rw [hport]
  exact hreads _ (if_pos hnext')

theorem Resumes.setMem (hh : h.Resumes D h') {f : Memory → Memory}
    (hf : ∀ m, (f m.seen).seen = (f m).seen) :
    (h.setMem (f h.mem)).Resumes D (h'.setMem (f h'.mem)) :=
  ⟨hh.cpu, ⟨erased_congr hh.raster.bus.mem f hf, hh.raster.bus.io⟩, hh.raster.beam⟩

theorem Resumes.checkMapping (hh : h.Resumes D h') :
    h.checkMapping.2.Resumes D h'.checkMapping.2 := by
  have hexception : h.mem.isException.1 = h'.mem.isException.1 :=
    eq_of_erased hh.raster.bus.mem (fun m => m.isException.1) fun _ => rfl
  unfold Hardware.checkMapping
  dsimp only
  rw [← hexception]
  by_cases hcollision : h.mem.isException.1 = true
  · rw [if_pos hcollision, if_pos hcollision]
    exact hh.setMem (f := fun m => m.isException.2.initRamDiskMapping) fun _ => rfl
  · rw [if_neg hcollision, if_neg hcollision]
    exact hh.setMem (f := fun m => m.isException.2) fun _ => rfl

theorem Resumes.executeInstruction (hdev : dev.SharesKeys D) (hparked : h.Parked)
    (hreads : h.ReadsNoChip dev) (hh : h.Resumes D h') :
    Option.Rel (Resumes D) ((h.executeInstruction dev none).map Prod.snd)
      ((h'.executeInstruction dev none).map Prod.snd) := by
  have hstart : (h.setMem h.mem.debugInit).Resumes D (h'.setMem h'.mem.debugInit) :=
    hh.setMem fun _ => rfl
  have hturn : (h.setMem h.mem.debugInit).toSys.Turning :=
    Parked.turning (hparked.of_cpu_io rfl rfl)
  have hrun := hstart.runCycles hdev hturn (hushed_of_readsNoChip hparked hreads) cyclesMax
  simp only [Hardware.executeInstruction, Option.map_map]
  rw [← executeCycles, ← executeCycles] at hrun
  generalize h.executeCycles dev = u at hrun ⊢
  generalize h'.executeCycles dev = u' at hrun ⊢
  cases hrun with
  | none => exact .none
  | some hts => exact .some hts.checkMapping

/-! ## Runs -/

theorem interactive_isSome (dev : Devices δ) (n : Nat) (h : Hardware δ) :
    (interactive dev n h).isSome := by
  induction n with
  | zero => rfl
  | succ n ih =>
      obtain ⟨t, ht⟩ := Option.isSome_iff_exists.mp ih
      simp [interactive, ht, Hardware.executeInstruction, executeCycles_isSome]

theorem interactive_add (dev : Devices δ) (m i : Nat) (h : Hardware δ) :
    interactive dev (m + i) h = (interactive dev m h).bind (interactive dev i) := by
  induction i with
  | zero => cases interactive dev m h <;> rfl
  | succ i ih =>
      rw [← Nat.add_assoc, interactive, ih]
      cases interactive dev m h <;> rfl

theorem parked_interactive {n : Nat} (hparked : h.Parked)
    (hrun : interactive dev n h = some h') : h'.Parked := by
  induction n generalizing h' with
  | zero =>
      cases hrun
      exact hparked
  | succ n ih =>
      obtain ⟨s, hs, hnext⟩ := Option.bind_eq_some_iff.mp hrun
      simp only [Hardware.executeInstruction, Option.map_map, Option.map_eq_some_iff] at hnext
      obtain ⟨t, ht, rfl⟩ := hnext
      exact parked_checkMapping (parked_executeCycles (ih hs) ht)

theorem Resumes.interactive (hdev : dev.SharesKeys D) (hparked : h.Parked) (hh : h.Resumes D h')
    {n : Nat} (hreads : ∀ i < n, ∀ s, interactive dev i h = some s → s.ReadsNoChip dev)
    {t : Hardware δ} (hrun : interactive dev n h = some t) :
    ∃ t', Hardware.interactive dev n h' = some t' ∧ t.Resumes D t' := by
  induction n generalizing t with
  | zero =>
      cases hrun
      exact ⟨h', rfl, hh⟩
  | succ n ih =>
      obtain ⟨s, hs, hnext⟩ := Option.bind_eq_some_iff.mp hrun
      obtain ⟨s', hs', hbefore⟩ := ih (fun i hi => hreads i (Nat.lt_succ_of_lt hi)) hs
      have hstep := hbefore.executeInstruction hdev (parked_interactive hparked hs)
        (hreads n (Nat.lt_succ_self n) s hs)
      rw [hnext] at hstep
      generalize hu : (s'.executeInstruction dev none).map Prod.snd = u at hstep
      cases hstep with
      | some hts =>
          rename_i t'
          refine ⟨t', ?_, hts⟩
          rw [Hardware.interactive, hs', Option.bind_some, hu]

end Hardware

/-! ## What no program changes -/

def Memory.fixed (m : Memory) : List Byte × Bool := (m.rom, m.ramDiskClearAfterRestart)

/-- With the settings of the display and the commit time of the palette. -/
def Raster.fixed (r : Raster δ) : (List Byte × Bool) × Int × Int × Int :=
  (r.mem.fixed, r.io.paletteCommitTime, r.display.borderLeft, r.display.irqCommitPxl)

theorem Memory.fixed_setRamDiskModeLoop (m : Memory) (disks : List (Fin ramDiskMax)) :
    (m.setRamDiskModeLoop disks).fixed = m.fixed := by
  induction disks generalizing m with
  | nil => rfl
  | cons disk rest ih =>
      simp only [setRamDiskModeLoop, setRamDiskModeStep]
      by_cases henabled : (m.mappings disk).enabled = true
      · by_cases hsecond : m.mappingsEnabled + 1 > 1
        · simp only [if_pos henabled, if_pos hsecond]
          rfl
        · simp only [if_pos henabled, if_neg hsecond]
          exact ih _
      · simp only [if_neg henabled]
        exact ih m

theorem Bus.fixed_memAfterOut (port value : Byte) (m : Memory) :
    (memAfterOut port value m).fixed = m.fixed := by
  unfold memAfterOut
  split
  · exact Memory.fixed_setRamDiskModeLoop _ _
  · rfl

theorem Raster.fixed_tryToCommit (dev : Devices δ) (colorIdx : BitVec 4) (r : Raster δ) :
    (r.tryToCommit dev colorIdx).fixed = r.fixed := by
  have hmem : (r.toBus.countOut dev).mem.fixed = r.mem.fixed := by
    simp only [Bus.countOut]
    repeat' split
    · simp only [Bus.portOutCommit, Bus.mem_portOutHandling]
      exact Bus.fixed_memAfterOut _ _ _
    · rfl
    · rfl
  have hsettings := congrArg Prod.snd (Raster.settings_tryToCommit dev colorIdx r)
  exact Prod.ext hmem (Prod.ext hsettings rfl)

theorem Raster.fixed_rasterize (dev : Devices δ) (r : Raster δ) :
    (r.rasterize dev).fixed = r.fixed := by
  have hsame : Bisimulation dev fun s s' : Raster δ => s = s' ∧ s.fixed = r.fixed := by
    constructor
    · rintro s s' ⟨rfl, -⟩
      exact ⟨rfl, rfl, rfl, rfl, rfl, rfl, rfl, rfl, rfl, rfl⟩
    · rintro s s' ⟨rfl, hs⟩
      exact ⟨rfl, hs⟩
    · rintro s s' ⟨rfl, hs⟩ color
      exact ⟨rfl, hs⟩
    · rintro s s' ⟨rfl, hs⟩ colorIdx
      exact ⟨rfl, (fixed_tryToCommit dev colorIdx s).trans hs⟩
    · rintro s s' ⟨rfl, hs⟩
      refine ⟨rfl, ?_⟩
      rw [← hs, fixed, setDisplay, Display.wrapFrame]
      split <;> rfl
    · rintro s s' ⟨rfl, hs⟩ portA
      exact ⟨rfl, hs⟩
  exact (hsame.rasterize ⟨rfl, rfl⟩).2

theorem Sys.fixed_exec {σ : Type} (ports : PortFuncs σ) (micro : Micro) (s : Sys σ) :
    (s.exec ports micro).mem.fixed = s.mem.fixed := by
  cases micro with
  | _ =>
      simp only [exec, movRegReg, loadRegPtr, movMemReg, mviRegData, mviMemData,
        lda, sta, stax, lxi, lhld, shld, sphl, xthl, push, popPSW, pop, dad, inr, inrMem, dcr,
        dcrMem, inx, dcx, jmp, pchl, ret, rst, addMem, subMem, amaMem, xraMem, oraMem, cmpMem,
        adi, sbi, ani, xri, ori, cpi, memOp, immOp, call, retCond, hlt, in_, out_]
      repeat' split
      all_goals rfl

theorem Sys.fixed_executeMachineCycle {σ : Type} (ports : PortFuncs σ) (irq : Bool) (s : Sys σ) :
    (s.executeMachineCycle ports irq).mem.fixed = s.mem.fixed := by
  have hentered : (s.enter irq).mem.fixed = s.mem.fixed := by
    unfold enter beginInstruction
    split
    · split <;> rfl
    · rfl
  rw [executeMachineCycle_eq, ← hentered]
  exact fixed_exec ports _ (s.enter irq)

namespace Hardware

theorem fixed_machineCycle (dev : Devices δ) (h : Hardware δ) :
    (h.machineCycle dev).raster.fixed = h.raster.fixed := by
  have hdrawn := Raster.fixed_rasterize dev h.raster
  have hmem : (h.turned dev).mem.fixed = (h.rasterize dev).mem.fixed :=
    Sys.fixed_executeMachineCycle (Io.ports dev) (h.irqLine dev) (h.drawnSys dev)
  have htime : (h.turned dev).io.paletteCommitTime = (h.rasterize dev).io.paletteCommitTime := by
    have hcall := Sys.portCall_executeMachineCycle (Io.ports dev) (h.irqLine dev) (h.drawnSys dev)
    rw [turned]
    generalize (h.drawnSys dev).executeMachineCycle (Io.ports dev) (h.irqLine dev) = s at hcall
    obtain ⟨cpu, mem, io, stores⟩ := s
    cases hcall with
    | none => rfl
    | input port =>
        change ((h.drawnSys dev).io.portInHandling dev port).2.paletteCommitTime = _
        unfold Io.portInHandling
        split <;> rfl
    | output port value => rfl
  rw [← hdrawn]
  exact Prod.ext hmem (Prod.ext htime rfl)

theorem fixed_interactive {dev : Devices δ} {h t : Hardware δ} {n : Nat}
    (hrun : interactive dev n h = some t) : t.raster.fixed = h.raster.fixed := by
  induction n generalizing t with
  | zero =>
      cases hrun
      rfl
  | succ n ih =>
      obtain ⟨s, hs, hnext⟩ := Option.bind_eq_some_iff.mp hrun
      simp only [Hardware.executeInstruction, Option.map_map, Option.map_eq_some_iff] at hnext
      obtain ⟨u, hu, rfl⟩ := hnext
      have hcycles : u.raster.fixed = s.raster.fixed := by
        refine runCycles_rule (P := fun x => x.raster.fixed = s.raster.fixed)
          (Q := fun x => x.raster.fixed = s.raster.fixed) ?_ ?_ hu
        · intro x hx
          have hturn := (fixed_machineCycle dev x).trans hx
          split <;> exact hturn
        · rfl
      refine Eq.trans ?_ (hcycles.trans (ih hs))
      change u.checkMapping.2.raster.fixed = _
      unfold Hardware.checkMapping
      dsimp only
      split <;> rfl

end Hardware

/-! ## The picture is drawn again -/

namespace Raster

section

variable {P : Raster δ → Prop} (hstore : ∀ r color, P r → P (r.store color))
include hstore

theorem fillBorder_of_store {r : Raster δ} (h : P r) (n : Int) : P (r.fillBorder n) := by
  refine Runs.after_invariant P h ?_ _
  intro _ hs
  exact hstore _ _ hs

theorem redrawActiveArea_of_store {r : Raster δ} (h : P r) (n : Int) :
    P (r.redrawActiveArea n) := by
  have hmode : ∀ mode : PixelMode, P (r.fillActiveArea mode n) := by
    intro mode
    refine Runs.after_invariant (fun scan : Scan δ => P scan.raster) h ?_ _
    intro _ hscan
    rw [activePixel, reload_raster]
    exact hstore _ _ hscan
  unfold redrawActiveArea
  split
  · exact hmode mode256
  · exact hmode mode512

theorem Cut.of_store {r u : Raster δ} (hcut : Cut redrawActiveArea fillBorder r u) (h : P r) :
    P u := by
  cases hcut with
  | active => exact redrawActiveArea_of_store hstore h 16
  | activeBorder m n =>
      exact fillBorder_of_store hstore (redrawActiveArea_of_store hstore h m) n
  | border => exact fillBorder_of_store hstore h 16
  | borderActive m n =>
      exact redrawActiveArea_of_store hstore (fillBorder_of_store hstore h m) n

theorem redrawSlices_of_store {r : Raster δ} (h : P r) (n : Nat) : P (r.redrawSlices n) := by
  refine Runs.after_invariant P h ?_ n
  intro _ hs
  exact (drawSlice_cut redrawActiveArea fillBorder _).of_store hstore hs

end

theorem beam_setIdx {d d' : Display} (h : (d.setIdx 0).beam = (d'.setIdx 0).beam) (idx : Int) :
    (d.setIdx idx).beam = (d'.setIdx idx).beam := by
  have hidx := congrArg (Display.setIdx idx) h
  exact hidx

theorem redrawSlices_resumes (n : Nat) (r : Raster δ) :
    r.Resumes Eq (((r.setDisplay (Display.setIdx 0)).redrawSlices n).setDisplay
      (Display.setIdx r.display.idx)) := by
  have hslices : r.toBus.Resumes Eq ((r.setDisplay (Display.setIdx 0)).redrawSlices n).toBus ∧
      (r.display.setIdx 0).beam =
        (((r.setDisplay (Display.setIdx 0)).redrawSlices n).display.setIdx 0).beam := by
    refine redrawSlices_of_store (P := fun s => r.toBus.Resumes Eq s.toBus ∧
      (r.display.setIdx 0).beam = (s.display.setIdx 0).beam) ?_ ?_ n
    · rintro s color ⟨⟨hmem, hio⟩, hbeam⟩
      exact ⟨⟨hmem, hio.state, hio.paletteCommitTime, hio.devices⟩, hbeam⟩
    · exact ⟨⟨rfl, rfl, rfl, rfl⟩, rfl⟩
  refine ⟨hslices.1, ?_⟩
  have hown : r.display.setIdx r.display.idx = r.display := by
    rw [Display.setIdx, Display.idx, BitVec.ofInt_toInt]
  have hbeam := beam_setIdx hslices.2 r.display.idx
  rw [hown] at hbeam
  exact hbeam

theorem frameBuffUpdate_resumes (r : Raster δ) : r.Resumes Eq r.frameBuffUpdate :=
  redrawSlices_resumes slicesPerFrame r

end Raster

/-! ## The keyboard of the machine -/

namespace Board

def SameKeys (c c' : Chips Board) : Prop := c.peripherals.keyboard = c'.peripherals.keyboard

theorem keyboard_readFdc (port : FdcPort) (b : Board) :
    (b.readFdc port).2.keyboard = b.keyboard := by
  rw [readFdc]
  split <;> rfl

theorem keyboard_writeFdc (port : FdcPort) (value : Byte) (b : Board) :
    (b.writeFdc port value).keyboard = b.keyboard := by
  rw [writeFdc]
  split <;> rfl

theorem sameKeys_afterOut (port value : Byte) (c : Chips Board) :
    SameKeys c (devices.afterOut port value c) := by
  unfold Devices.afterOut
  split
  all_goals first
    | exact Eq.refl c.peripherals.keyboard
    | exact (keyboard_writeFdc _ value c.peripherals).symm

theorem follows_sameKeys : devices.Follows SameKeys where
  refl c := Eq.refl c.peripherals.keyboard
  trans h h' := Eq.trans h h'
  timerRead _ c := Eq.refl c.peripherals.keyboard
  ayRead _ c := Eq.refl c.peripherals.keyboard
  fdcRead port c := (keyboard_readFdc port c.peripherals).symm
  audioClock _ c := Eq.refl c.peripherals.keyboard
  audioReset c := Eq.refl c.peripherals.keyboard

theorem sharesKeys : devices.SharesKeys SameKeys where
  keyRead h portA := congrArg (fun k : Keyboard => k.read (portA.setWidth 32)) h
  keySS h := congrArg Keyboard.keySS h
  keyUS h := congrArg Keyboard.keyUS h
  keyRus h := congrArg Keyboard.keyRus h
  afterOut h port value :=
    (sameKeys_afterOut port value _).symm.trans (Eq.trans h (sameKeys_afterOut port value _))
  audioClock h _ := h

theorem sameKeys_interactive {h t : Hardware (Chips Board)} {n : Nat} (hparked : h.Parked)
    (hrun : Hardware.interactive devices n h = some t) : SameKeys h.io.devices t.io.devices := by
  induction n generalizing t with
  | zero =>
      cases hrun
      exact follows_sameKeys.refl _
  | succ n ih =>
      obtain ⟨s, hs, hnext⟩ := Option.bind_eq_some_iff.mp hrun
      have hallowed : s.Respectful devices SameKeys .executeInstruction :=
        fun out _ c => sameKeys_afterOut out.1 out.2 c
      obtain ⟨-, hkept⟩ := Hardware.follows_act follows_sameKeys
        (Hardware.parked_interactive hparked hs) hallowed hnext
      exact follows_sameKeys.trans (ih hs) hkept

end Board

end V6Emul
