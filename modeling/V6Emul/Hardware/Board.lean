import V6Emul.Fdc.Dirty
import V6Emul.Hardware.DiskIsolation
import V6Emul.Hardware.Keyboard
import V6Emul.Sound.Chips

/-!
# The machine with its chips

A program reaches the chips through `IN`, through the `OUT` that is committed behind it, and
by letting time pass.  What all of these keep, whatever the program is, every run keeps.
Floppy disks are an example: only two ports lead to their contents.
-/

namespace V6Emul

variable {δ : Type}

/-! ## Calls on the chips -/

def Devices.afterOut (dev : Devices δ) (port value : Byte) (d : δ) : δ :=
  match port.toNat with
  | 0x08 | 0x09 | 0x0A | 0x0B => dev.timerWrite ((~~~port &&& 3#8).toNat : Int) value d
  | 0x14 | 0x15 => dev.ayWrite (port &&& 1#8) value d
  | 0x18 => dev.fdcWrite .data value d
  | 0x19 => dev.fdcWrite .sector value d
  | 0x1A => dev.fdcWrite .track value d
  | 0x1B => dev.fdcWrite .command value d
  | 0x1C => dev.fdcWrite .system value d
  | 0xED => dev.debugPortOut port value d
  | _ => d

theorem Bus.devices_portOutHandling (dev : Devices δ) (port value : Byte) (b : Bus δ) :
    (b.portOutHandling dev port value).io.devices = dev.afterOut port value b.io.devices := by
  unfold portOutHandling Devices.afterOut
  generalize port.toNat = number
  split
  all_goals first
    | rfl
    | simp [*]

/-- A relation along which a program moves the chips without an `OUT`. -/
structure Devices.Follows (dev : Devices δ) (R : δ → δ → Prop) : Prop where
  refl : ∀ d, R d d
  trans : ∀ {c d e}, R c d → R d e → R c e
  timerRead : ∀ addr d, R d (dev.timerRead addr d).2
  ayRead : ∀ addr d, R d (dev.ayRead addr d).2
  fdcRead : ∀ port d, R d (dev.fdcRead port d).2
  audioClock : ∀ beeper d, R d (dev.audioClock beeper d)
  audioReset : ∀ d, R d (dev.audioReset d)

def Devices.Allows (dev : Devices δ) (R : δ → δ → Prop) (out : Byte × Byte) : Prop :=
  ∀ d, R d (dev.afterOut out.1 out.2 d)

namespace Io

variable {dev : Devices δ} {R : δ → δ → Prop}

theorem follows_portIn (hfollows : dev.Follows R) (port : Byte) (s : Io δ) :
    R s.devices (s.portIn dev port).2.devices := by
  have hread : R s.devices (s.portInHandling dev port).2.devices := by
    unfold portInHandling
    split
    all_goals first
      | exact hfollows.refl _
      | exact hfollows.timerRead _ _
      | exact hfollows.ayRead _ _
      | exact hfollows.fdcRead _ _
  exact hread

end Io

namespace Bus

def dueDevices (dev : Devices δ) (b : Bus δ) : δ :=
  if b.io.state.outCommitTimer = 0 then b.io.devices
  else dev.afterOut b.io.state.outport b.io.state.outbyte b.io.devices

theorem dueDevices_of_settled {dev : Devices δ} {b : Bus δ} (h : b.io.Settled) :
    b.dueDevices dev = b.io.devices := if_pos h

theorem devices_tryToCommit (dev : Devices δ) (colorIdx : BitVec 4) {b : Bus δ} (h : b.io.Armed) :
    (b.tryToCommit dev colorIdx).io.devices = b.dueDevices dev := by
  simp only [tryToCommit, setIoState]
  rcases h with hstopped | hpending
  · rw [countOut_of_settled dev hstopped, dueDevices_of_settled hstopped]
    rfl
  · rw [countOut_of_due dev hpending, dueDevices, if_neg (by rw [hpending]; decide)]
    exact devices_portOutHandling dev _ _ _

end Bus

theorem Raster.devices_rasterize (dev : Devices δ) {r : Raster δ} (h : r.io.Armed) :
    (r.rasterize dev).io.devices = r.toBus.dueDevices dev := by
  have hinv : (r.rasterize dev).io.Armed ∧
      (r.rasterize dev).toBus.dueDevices dev = r.toBus.dueDevices dev := by
    refine rasterize_invariant
      (P := fun b => b.io.Armed ∧ b.dueDevices dev = r.toBus.dueDevices dev)
      (fun _ _ hb => hb) ?_ ⟨h, rfl⟩
    rintro b colorIdx ⟨harmed, hdue⟩
    have hsettled := (Bus.tryToCommit_spec dev colorIdx harmed).2
    refine ⟨hsettled.armed, ?_⟩
    rw [Bus.dueDevices_of_settled hsettled, Bus.devices_tryToCommit dev colorIdx harmed, hdue]
  have hsettled := (rasterize_events dev h).2
  rw [← hinv.2]
  exact (Bus.dueDevices_of_settled hsettled).symm

namespace Hardware

variable {dev : Devices δ} {R : δ → δ → Prop} {h t : Hardware δ}

/-! ## One instruction -/

theorem follows_machineCycle (hfollows : dev.Follows R) (harmed : h.io.Armed)
    (hdue : ∀ out ∈ h.io.pending, dev.Allows R out) :
    R h.io.devices (h.machineCycle dev).io.devices := by
  have hdrawn : R h.io.devices (h.rasterize dev).io.devices := by
    have hcommit := Raster.devices_rasterize dev (r := h.raster) harmed
    change (h.rasterize dev).io.devices = _ at hcommit
    rw [hcommit, Bus.dueDevices]
    split
    · exact hfollows.refl _
    · rename_i hpending
      exact hdue _ (if_neg hpending) _
  have hcalled : R (h.rasterize dev).io.devices
      ((h.rasterize dev).executeMachineCycle dev).io.devices := by
    have hcall := Sys.portCall_executeMachineCycle (Io.ports dev)
      (h.rasterize dev).display.update.irq
      { (h.rasterize dev).toSys with io := (h.rasterize dev).io.log .cycle }
    rw [executeMachineCycle]
    generalize Sys.executeMachineCycle (Io.ports dev) (h.rasterize dev).display.update.irq
      { (h.rasterize dev).toSys with io := (h.rasterize dev).io.log .cycle } = s at hcall
    obtain ⟨cpu, mem, io, stores⟩ := s
    cases hcall with
    | none => exact hfollows.refl _
    | input port => exact Io.follows_portIn hfollows port ((h.rasterize dev).io.log .cycle)
    | output port value => exact hfollows.refl _
  exact hfollows.trans hdrawn (hfollows.trans hcalled (hfollows.audioClock _ _))

theorem follows_of_settled (hfollows : dev.Follows R) (hslot : h.io.Settled) :
    R h.io.devices (h.machineCycle dev).io.devices := by
  refine follows_machineCycle hfollows hslot.armed ?_
  rw [Io.pending_of_settled hslot]
  exact fun _ hout => absurd hout (Option.not_mem_none _)

theorem follows_of_no_out (hfollows : dev.Follows R) (hparked : h.Parked)
    (hno : h.toSys.nextOpcode (h.irqLine dev) ≠ opcodeOut) (hrun : h.executeCycles dev = some t) :
    R h.io.devices t.io.devices := by
  refine runCycles_rule (P := fun s => s.toSys.Turning ∧ R h.io.devices s.io.devices ∧
    s.toSys.nextOpcode (s.irqLine dev) ≠ opcodeOut)
    (Q := fun s => R h.io.devices s.io.devices) ?_ ?_ hrun
  · rintro s ⟨hturn, hsofar, hnext⟩
    have hslot : s.io.Settled := hturn.settled_of_next hnext
    have hkept := hfollows.trans hsofar (follows_of_settled hfollows hslot)
    split
    · exact hkept
    · rename_i hdone
      refine ⟨turning_machineCycle dev hturn, hkept, ?_⟩
      rw [Sys.nextOpcode, if_pos (Sys.mc_ne_of_not_executed hdone), ir_machineCycle dev hslot]
      exact hnext
  · refine ⟨⟨⟨hparked.turning.sequenced.inCycle, hparked.turning.sequenced.pending,
      hparked.turning.sequenced.halted⟩, .inl hparked.slot⟩, hfollows.refl _, ?_⟩
    have hirq : (h.setMem h.mem.debugInit).irqLine dev = h.irqLine dev := irqLine_setMem dev h rfl
    rw [hirq]
    exact hno

theorem follows_of_out (hfollows : dev.Follows R) (hparked : h.Parked)
    (hnext : h.toSys.nextOpcode (h.irqLine dev) = opcodeOut)
    (hallowed : dev.Allows R (h.mem.getByte (h.cpu.pc.word + 1#16) .ram, h.cpu.a))
    (hrun : h.executeCycles dev = some t) : R h.io.devices t.io.devices := by
  have hmc : h.cpu.mc = 0 := by
    rcases hparked.cpu.startable false with ⟨hzero, -⟩ | ⟨hone, hhlt, -⟩
    · exact hzero
    · rw [Sys.nextOpcode, if_pos (by rw [hone]; decide), hhlt] at hnext
      exact absurd hnext (by decide)
  have hirq : (h.setMem h.mem.debugInit).irqLine dev = h.irqLine dev := irqLine_setMem dev h rfl
  have hturn : (h.setMem h.mem.debugInit).toSys.Turning :=
    ⟨⟨hparked.turning.sequenced.inCycle, hparked.turning.sequenced.pending,
      hparked.turning.sequenced.halted⟩, .inl hparked.slot⟩
  have hnext' : (h.setMem h.mem.debugInit).toSys.nextOpcode
      ((h.setMem h.mem.debugInit).irqLine dev) = opcodeOut := by
    rw [hirq]
    exact hnext
  have hreads := outReads_machineCycle dev hturn hparked.slot hmc hnext'
  have hwaits : ((h.setMem h.mem.debugInit).machineCycle dev |>.machineCycle dev).OutWaits
      (h.mem.getByte (h.cpu.pc.word + 1#16) .ram) h.cpu.a h.mem.registers := hreads.outWaits
  have hdone := (@OutWaits.executed _ dev _ _ _ _ hwaits).1
  have hfirst := not_executed hreads.turning.sequenced hreads.ir (by rw [hreads.mc]; decide)
  have hsecond := not_executed hwaits.turning.sequenced hwaits.ir (by rw [hwaits.mc]; decide)
  rw [executeCycles, cyclesMax, runCycles_succ, if_neg (by rw [hfirst]; decide), runCycles_succ,
    if_neg (by rw [hsecond]; decide), runCycles_succ, if_pos hdone] at hrun
  rw [← Option.some.inj hrun]
  have hread : R h.io.devices ((h.setMem h.mem.debugInit).machineCycle dev).io.devices :=
    follows_of_settled (h := h.setMem h.mem.debugInit) hfollows hparked.slot
  refine hfollows.trans (hfollows.trans hread (follows_of_settled hfollows hreads.slot)) ?_
  refine follows_machineCycle hfollows (.inr hwaits.timer) ?_
  intro out hout
  rw [Io.pending, if_neg (by rw [hwaits.timer]; decide), hwaits.port, hwaits.value,
    Option.mem_some] at hout
  rw [← hout]
  exact hallowed

theorem follows_executeCycles (hfollows : dev.Follows R) (hparked : h.Parked)
    (hallowed : ∀ out ∈ h.nextOut dev, dev.Allows R out) (hrun : h.executeCycles dev = some t) :
    R h.io.devices t.io.devices := by
  by_cases hnext : h.toSys.nextOpcode (h.irqLine dev) = opcodeOut
  · exact follows_of_out hfollows hparked hnext (hallowed _ (if_pos hnext)) hrun
  · exact follows_of_no_out hfollows hparked hnext hrun

/-! ## Runs -/

def Respectful (dev : Devices δ) (R : δ → δ → Prop) (h : Hardware δ) : Act δ → Prop
  | .executeInstruction => ∀ out ∈ h.nextOut dev, dev.Allows R out
  | .headless => ∀ out ∈ h.nextOut dev, dev.Allows R out
  | .request (.setDevices devices) => R h.io.devices devices
  | _ => True

theorem follows_act (hfollows : dev.Follows R) (hparked : h.Parked) {a : Act δ}
    (ha : h.Respectful dev R a) (hact : h.act dev a = some t) :
    t.Parked ∧ R h.io.devices t.io.devices := by
  cases a with
  | executeInstruction =>
      simp only [Hardware.act, Hardware.executeInstruction, Option.map_map,
        Option.map_eq_some_iff] at hact
      obtain ⟨s, hrun, rfl⟩ := hact
      refine ⟨parked_checkMapping (parked_executeCycles hparked hrun), ?_⟩
      have hmoved := follows_executeCycles hfollows hparked ha hrun
      change R _ s.checkMapping.2.io.devices
      unfold Hardware.checkMapping
      dsimp only
      split <;> exact hmoved
  | headless =>
      exact ⟨parked_executeCycles hparked hact, follows_executeCycles hfollows hparked ha hact⟩
  | reset =>
      cases hact
      exact ⟨parked_reset dev h, hfollows.audioReset _⟩
  | restart =>
      cases hact
      exact ⟨parked_restart dev hparked, hfollows.audioReset _⟩
  | request req =>
      cases hact
      refine ⟨parked_handle hparked req, ?_⟩
      cases req with
      | setDevices devices => exact ha
      | _ => exact hfollows.refl _

theorem follows_acts (hfollows : dev.Follows R) {acts : List (Act δ)} (hparked : h.Parked)
    (hacts : Runs.Along (act dev) (Respectful dev R) h acts)
    (hrun : Runs.exec (act dev) h acts = some t) : R h.io.devices t.io.devices := by
  have hend := Runs.Along.invariant_take (fun s => s.Parked ∧ R h.io.devices s.io.devices)
    (fun s _ hs ha _ hact => by
      obtain ⟨hparked', hmoved⟩ := follows_act hfollows hs.1 ha hact
      exact ⟨hparked', hfollows.trans hs.2 hmoved⟩)
    ⟨hparked, hfollows.refl _⟩ hacts acts.length (by rwa [List.take_length])
  exact hend.2

end Hardware

/-! ## The chips of the machine -/

/-- Keyboard and disk controller.  `fault` is set by an access that the source leaves undefined. -/
structure Board where
  keyboard : Keyboard
  fdc : Fdc1793
  fault : Bool

namespace Board

def readFdc (port : FdcPort) (b : Board) : Byte × Board :=
  match b.fdc.read port with
  | some (value, fdc) => (value, { b with fdc := fdc })
  | none => (0xFF, { b with fault := true })

def writeFdc (port : FdcPort) (value : Byte) (b : Board) : Board :=
  match b.fdc.write port value with
  | some (_, fdc) => { b with fdc := fdc }
  | none => { b with fault := true }

/-- The keyboard and the controller behind the ports; the debug port is only logged. -/
def peripherals : Peripherals Board where
  keyRead portA b := b.keyboard.read (portA.setWidth 32)
  keySS b := b.keyboard.keySS
  keyUS b := b.keyboard.keyUS
  keyRus b := b.keyboard.keyRus
  fdcRead := readFdc
  fdcWrite := writeFdc
  debugPortOut _ _ b := b

def devices : Devices (Chips Board) := peripherals.devices

def KeepsDisks (b b' : Board) : Prop :=
  b'.fault = false → b.fault = false ∧ b.fdc.SameDisks b'.fdc

theorem KeepsDisks.refl (b : Board) : b.KeepsDisks b := fun h => ⟨h, fun _ => .refl _⟩

theorem KeepsDisks.trans {b c d : Board} (h : b.KeepsDisks c) (h' : c.KeepsDisks d) :
    b.KeepsDisks d := by
  intro hsound
  obtain ⟨hmiddle, hlast⟩ := h' hsound
  obtain ⟨hfirst, hdisks⟩ := h hmiddle
  exact ⟨hfirst, fun k => (hdisks k).trans (hlast k)⟩

theorem keepsDisks_readFdc (port : FdcPort) (b : Board) : b.KeepsDisks (b.readFdc port).2 := by
  rw [readFdc]
  split
  · rename_i value fdc hread
    have hstep : b.fdc.step (.read port) = some fdc := by
      rw [Fdc1793.step, hread]
      rfl
    exact fun hsound => ⟨hsound, (Fdc1793.leaves_read hstep).disks⟩
  · exact fun hsound => absurd hsound.symm Bool.false_ne_true

/-- An `OUT` to the data port, or a command to write a sector or a track. -/
def WritesDisk (out : Byte × Byte) : Prop :=
  out.1 = 0x18 ∨ out.1 = 0x1B ∧ Fdc1793.isWriteCommand out.2

theorem keepsDisks_writeFdc {port : FdcPort} {value : Byte} (hdata : port ≠ .data)
    (hcommand : port = .command → ¬ Fdc1793.isWriteCommand value) (b : Board) :
    b.KeepsDisks (b.writeFdc port value) := by
  rw [writeFdc]
  split
  · rename_i irq fdc hwrite
    have hstep : b.fdc.step (.write port value) = some fdc := by
      rw [Fdc1793.step, hwrite]
      rfl
    refine fun hsound => ⟨hsound, ?_⟩
    cases Fdc1793.portEffect_write hstep with
    | leaves hleaves => exact hleaves.disks
    | selects _ heq => exact heq ▸ fun _ => .refl _
    | marks heq hwrites =>
        obtain ⟨rfl, rfl⟩ := Fdc1793.FdcOp.write.inj heq
        exact absurd hwrites (hcommand rfl)
    | stores heq => exact absurd (Fdc1793.FdcOp.write.inj heq).1 hdata
  · exact fun hsound => absurd hsound.symm Bool.false_ne_true

def Keeps (c c' : Chips Board) : Prop := c.peripherals.KeepsDisks c'.peripherals

theorem follows_keeps : devices.Follows Keeps where
  refl c := .refl c.peripherals
  trans h h' := h.trans h'
  timerRead _ c := .refl c.peripherals
  ayRead _ c := .refl c.peripherals
  fdcRead port c := keepsDisks_readFdc port c.peripherals
  audioClock _ c := .refl c.peripherals
  audioReset c := .refl c.peripherals

theorem allows_keeps {out : Byte × Byte} (hout : ¬ WritesDisk out) : devices.Allows Keeps out := by
  obtain ⟨port, value⟩ := out
  intro c
  have hport : ∀ n : Nat, port.toNat = n → port = BitVec.ofNat 8 n := by
    rintro n rfl
    rw [BitVec.ofNat_toNat, BitVec.setWidth_eq]
  have hdata : port.toNat ≠ 0x18 := fun hn => hout (.inl (hport 0x18 hn))
  have hcommand : port.toNat = 0x1B → ¬ Fdc1793.isWriteCommand value :=
    fun hn hwrites => hout (.inr ⟨hport 0x1B hn, hwrites⟩)
  have hother : ∀ fdcPort, fdcPort ≠ .data → fdcPort ≠ .command →
      Keeps c (devices.fdcWrite fdcPort value c) := fun fdcPort hdata hcommand =>
    keepsDisks_writeFdc hdata (fun heq => absurd heq hcommand) c.peripherals
  rw [Devices.afterOut]
  split
  case h_7 hn => exact absurd hn hdata
  case h_10 hn => exact keepsDisks_writeFdc FdcPort.noConfusion (fun _ => hcommand hn) c.peripherals
  case h_8 => exact hother .sector FdcPort.noConfusion FdcPort.noConfusion
  case h_9 => exact hother .track FdcPort.noConfusion FdcPort.noConfusion
  case h_11 => exact hother .system FdcPort.noConfusion FdcPort.noConfusion
  all_goals exact .refl c.peripherals

/-- The instruction that comes next does not write to a disk, and no request does. -/
def WritesNoDisk (h : Hardware (Chips Board)) : Hardware.Act (Chips Board) → Prop
  | .executeInstruction => ∀ out ∈ h.nextOut devices, ¬ WritesDisk out
  | .headless => ∀ out ∈ h.nextOut devices, ¬ WritesDisk out
  | .request (.setDevices chips) => Keeps h.io.devices chips
  | _ => True

/--
Whatever a program does with the memory, the other ports and the registers of the
controller, the floppy disks keep their contents while it neither writes to the data port
nor sends a command to write.
-/
theorem disks_kept {h t : Hardware (Chips Board)} {acts : List (Hardware.Act (Chips Board))}
    (hparked : h.Parked) (hacts : Runs.Along (Hardware.act devices) WritesNoDisk h acts)
    (hrun : Runs.exec (Hardware.act devices) h acts = some t) :
    Keeps h.io.devices t.io.devices := by
  refine Hardware.follows_acts follows_keeps hparked ?_ hrun
  refine hacts.invariant (fun _ => True) (fun s a _ ha => ⟨?_, fun _ _ => trivial⟩) trivial
  cases a with
  | executeInstruction => exact fun out hout => allows_keeps (ha out hout)
  | headless => exact fun out hout => allows_keeps (ha out hout)
  | request req =>
      cases req with
      | setDevices chips => exact ha
      | _ => trivial
  | _ => trivial

def selectProgram : Ram := fun i => if i.val = 0 then 0xD3 else if i.val = 1 then 0x1C else 0

def atSelect : Hardware (Chips Board) :=
  .ofRam selectProgram ⟨⟨.new, .new, false⟩, .reset, ⟨.init, 0⟩⟩

theorem nextOut_atSelect : atSelect.nextOut devices = some (0x1C, 0) := by decide +kernel

/-- A witness: an `OUT` that only selects the drive, behind a reset. -/
theorem disks_kept_select :
    ∃ t, Runs.exec (Hardware.act devices) atSelect [.executeInstruction, .reset] = some t ∧
      Keeps atSelect.io.devices t.io.devices := by
  have hacts : Runs.Along (Hardware.act devices) WritesNoDisk atSelect
      [.executeInstruction, .reset] := by
    refine ⟨fun out hout => ?_, fun _ _ => ⟨trivial, fun _ _ => trivial⟩⟩
    rw [nextOut_atSelect] at hout
    rw [← Option.mem_some.mp hout]
    rintro (hdata | ⟨hcommand, -⟩)
    · exact absurd hdata (by decide)
    · exact absurd hcommand (by decide)
  have htotal :
      (Runs.exec (Hardware.act devices) atSelect [.executeInstruction, .reset]).isSome := by
    refine Runs.exec_isSome (fun s a => ?_) _ _
    cases a <;> simp [Hardware.act, Hardware.executeInstruction, Hardware.executeCycles_isSome]
  obtain ⟨t, ht⟩ := Option.isSome_iff_exists.mp htotal
  exact ⟨t, ht, disks_kept (Hardware.parked_ofRam _ _) hacts ht⟩

/-! ## The controller among the chips -/

def fdcPort (port : Byte) : Option FdcPort :=
  match port.toNat with
  | 0x18 => some .data
  | 0x19 => some .sector
  | 0x1A => some .track
  | 0x1B => some .command
  | 0x1C => some .system
  | _ => none

def sent (out : Byte × Byte) : Option (FdcPort × Byte) :=
  (fdcPort out.1).map fun port => (port, out.2)

def served (events : List PortEvent) : List (FdcPort × Byte) :=
  (events.filterMap PortEvent.committed).filterMap sent

/-- What a call writes to it; `none` for a read. -/
def written : Fdc1793.FdcOp → Option (FdcPort × Byte)
  | .write port value => some (port, value)
  | _ => none

def isPortAccess : Fdc1793.FdcOp → Bool
  | .read _ => true
  | .write .. => true
  | _ => false

theorem afterOut_of_sent {port value : Byte} {p : FdcPort} (h : fdcPort port = some p)
    (c : Chips Board) : devices.afterOut port value c = devices.fdcWrite p value c := by
  unfold fdcPort at h
  unfold Devices.afterOut
  split at h <;> cases h <;> simp [*]

theorem afterOut_of_not_sent {port value : Byte} (h : fdcPort port = none) (c : Chips Board) :
    (devices.afterOut port value c).peripherals = c.peripherals := by
  unfold fdcPort at h
  unfold Devices.afterOut
  split at h <;> cases h
  split
  all_goals first
    | rfl
    | contradiction

@[simp] theorem served_append (events later : List PortEvent) :
    served (events ++ later) = served events ++ served later := by
  simp [served]

@[simp] theorem served_pixels (n : Nat) : served (List.replicate n .pixel) = [] := by
  simp [served, PortEvent.committed]

theorem served_commit (port value : Byte) :
    served [.commit port value] = (sent (port, value)).toList := by
  cases hsent : sent (port, value) <;> simp [served, PortEvent.committed, hsent]

/--
Unless something undefined has happened, the controller is where calls on its ports have led
it, whose writes are the `OUT`s that were committed.
-/
def Serves (fdc : Fdc1793) (io : Io (Chips Board)) : Prop :=
  io.devices.peripherals.fault = false →
    ∃ ops, (∀ op ∈ ops, isPortAccess op = true) ∧
      Runs.exec Fdc1793.step fdc ops = some io.devices.peripherals.fdc ∧
      ops.filterMap written = served io.events

variable {fdc : Fdc1793} {io io' : Io (Chips Board)}

theorem Serves.congr (h : Serves fdc io)
    (hperipherals : io'.devices.peripherals = io.devices.peripherals)
    (hevents : served io'.events = served io.events) : Serves fdc io' := by
  rw [Serves, hperipherals, hevents]
  exact h

theorem Serves.call (h : Serves fdc io) (op : Fdc1793.FdcOp) (hop : isPortAccess op = true)
    (hfault : io'.devices.peripherals.fault = io.devices.peripherals.fault)
    (hstep : io.devices.peripherals.fdc.step op = some io'.devices.peripherals.fdc)
    (hevents : served io'.events = served io.events ++ (written op).toList) : Serves fdc io' := by
  intro hsound
  obtain ⟨ops, hops, hexec, hwritten⟩ := h (hfault ▸ hsound)
  refine ⟨ops ++ [op], fun op' hop' => ?_, ?_, ?_⟩
  · rcases List.mem_append.mp hop' with hbefore | hlast
    · exact hops op' hbefore
    · rw [List.mem_singleton.mp hlast]
      exact hop
  · rw [Runs.exec_append, hexec, Option.bind_some, Runs.exec, hstep]
    rfl
  · rw [hevents, List.filterMap_append, hwritten]
    cases hlast : written op <;> simp [hlast]

theorem serves_of_fault (h : io.devices.peripherals.fault = true) : Serves fdc io :=
  fun hsound => absurd (h.symm.trans hsound) Bool.noConfusion

theorem Serves.commit (h : Serves fdc io) {port value : Byte}
    (hdevices : io'.devices = devices.afterOut port value io.devices)
    (hevents : io'.events = io.events ++ [.commit port value]) : Serves fdc io' := by
  have hserved : served io'.events = served io.events ++ (sent (port, value)).toList := by
    rw [hevents, served_append, served_commit]
  cases hport : fdcPort port with
  | none =>
      rw [sent, hport] at hserved
      refine h.congr ?_ (hserved.trans (List.append_nil _))
      rw [hdevices]
      exact afterOut_of_not_sent hport io.devices
  | some p =>
      rw [sent, hport] at hserved
      rw [afterOut_of_sent hport] at hdevices
      change io'.devices = io.devices.setPeripherals (io.devices.peripherals.writeFdc p value)
        at hdevices
      rw [writeFdc] at hdevices
      split at hdevices
      · rename_i irq fdc' hwrite
        refine h.call (.write p value) rfl ?_ ?_ hserved
        · rw [hdevices]
          rfl
        · rw [hdevices, Fdc1793.step, hwrite]
          rfl
      · refine serves_of_fault ?_
        rw [hdevices]
        rfl

theorem Serves.readFdc (h : Serves fdc io) (port : FdcPort)
    (hdevices : io'.devices = (devices.fdcRead port io.devices).2)
    (hevents : served io'.events = served io.events) : Serves fdc io' := by
  change io'.devices = io.devices.setPeripherals (io.devices.peripherals.readFdc port).2
    at hdevices
  rw [Board.readFdc] at hdevices
  split at hdevices
  · rename_i value fdc' hread
    refine h.call (.read port) rfl ?_ ?_ (hevents.trans (List.append_nil _).symm)
    · rw [hdevices]
      rfl
    · rw [hdevices, Fdc1793.step, hread]
      rfl
  · refine serves_of_fault ?_
    rw [hdevices]
    rfl

theorem Serves.portIn (h : Serves fdc io) (port : Byte) :
    Serves fdc (io.portIn devices port).2 := by
  have hhandled : Serves fdc (io.portInHandling devices port).2 := by
    unfold Io.portInHandling
    split
    all_goals first
      | exact h
      | exact h.readFdc _ rfl rfl
  exact hhandled.congr rfl rfl

variable {h t : Hardware (Chips Board)}

theorem serves_rasterize (harmed : h.io.Armed) (hs : Serves fdc h.io) :
    Serves fdc (h.rasterize devices).io := by
  have hdevices := Raster.devices_rasterize devices (r := h.raster) harmed
  have hevents := (h.raster.rasterize_events devices harmed).1
  change (h.rasterize devices).io.devices = _ at hdevices
  change (h.rasterize devices).io.events = h.io.events ++ _ at hevents
  rw [Bus.dueDevices] at hdevices
  rw [Io.due] at hevents
  split at hdevices
  · rename_i hstopped
    rw [if_pos hstopped] at hevents
    refine hs.congr (congrArg Chips.peripherals hdevices) ?_
    have hquiet : served (.rasterize :: [] ++ List.replicate 16 .pixel) = [] := served_pixels 16
    rw [hevents, served_append, hquiet, List.append_nil]
  · rename_i hpending
    rw [if_neg hpending] at hevents
    have hcommitted : Serves fdc { h.io with
        devices := (h.rasterize devices).io.devices
        events := h.io.events ++ [.commit h.io.state.outport h.io.state.outbyte] } :=
      hs.commit hdevices rfl
    refine hcommitted.congr rfl ?_
    have hslice : served (.rasterize :: [.commit h.io.state.outport h.io.state.outbyte] ++
        List.replicate 16 .pixel) = served [.commit h.io.state.outport h.io.state.outbyte] := by
      rw [served_append, served_pixels, List.append_nil]
      rfl
    rw [hevents, served_append]
    exact (congrArg (served h.io.events ++ ·) hslice).trans (served_append _ _).symm

theorem serves_machineCycle (harmed : h.io.Armed) (hs : Serves fdc h.io) :
    Serves fdc (h.machineCycle devices).io := by
  have hdrawn := serves_rasterize harmed hs
  have hlogged : Serves fdc ((h.rasterize devices).io.log .cycle) := by
    refine hdrawn.congr rfl ?_
    exact (served_append _ [.cycle]).trans (List.append_nil _)
  have hcalled : Serves fdc ((h.rasterize devices).executeMachineCycle devices).io := by
    have hcall := Sys.portCall_executeMachineCycle (Io.ports devices)
      (h.rasterize devices).display.update.irq
      { (h.rasterize devices).toSys with io := (h.rasterize devices).io.log .cycle }
    rw [Hardware.executeMachineCycle]
    generalize Sys.executeMachineCycle (Io.ports devices) (h.rasterize devices).display.update.irq
      { (h.rasterize devices).toSys with io := (h.rasterize devices).io.log .cycle } = s at hcall
    obtain ⟨cpu, mem, io, stores⟩ := s
    cases hcall with
    | none => exact hlogged
    | input port => exact hlogged.portIn port
    | output port value =>
        refine hlogged.congr rfl ?_
        exact (served_append _ [.out port value]).trans (List.append_nil _)
  rw [Hardware.machineCycle]
  generalize (h.rasterize devices).executeMachineCycle devices = s at hcalled ⊢
  exact hcalled.congr rfl rfl

/-- Between two instructions; every `OUT` so far has been committed, and the controller got it. -/
structure InService (fdc : Fdc1793) (h : Hardware (Chips Board)) : Prop where
  parked : h.Parked
  ports : h.PortsServed
  serves : Serves fdc h.io

theorem InService.of_quiet (hs : InService fdc h) (hparked : t.Parked)
    (hevents : t.io.events = h.io.events)
    (hperipherals : t.io.devices.peripherals = h.io.devices.peripherals) : InService fdc t := by
  refine ⟨hparked, ⟨hparked.slot.armed, ?_⟩, hs.serves.congr hperipherals (hevents ▸ rfl)⟩
  rw [hevents, Io.pending_of_settled hparked.slot, ← Io.pending_of_settled hs.parked.slot]
  exact hs.ports.served

theorem InService.executeCycles (hs : InService fdc h) (hrun : h.executeCycles devices = some t) :
    InService fdc t := by
  have hend : t.PortsServed ∧ Serves fdc t.io := by
    refine Hardware.runCycles_rule (P := fun s => s.PortsServed ∧ Serves fdc s.io)
      (Q := fun s => s.PortsServed ∧ Serves fdc s.io) ?_ ?_ hrun
    · rintro s ⟨hports, hserves⟩
      have hturn := And.intro (Hardware.portsServed_machineCycle devices hports)
        (serves_machineCycle hports.armed hserves)
      split <;> exact hturn
    · exact ⟨⟨hs.ports.armed, hs.ports.served⟩, hs.serves⟩
  exact ⟨Hardware.parked_executeCycles hs.parked hrun, hend.1, hend.2⟩

/-- The requests mount no disks: all they do to the board is press keys. -/
def KeysOnly (h : Hardware (Chips Board)) : Hardware.Act (Chips Board) → Prop
  | .request (.setDevices chips) => chips.peripherals.fdc = h.io.devices.peripherals.fdc ∧
      chips.peripherals.fault = h.io.devices.peripherals.fault
  | _ => True

theorem InService.act (hs : InService fdc h) {a : Hardware.Act (Chips Board)}
    (ha : KeysOnly h a) (hact : h.act devices a = some t) : InService fdc t := by
  cases a with
  | executeInstruction =>
      simp only [Hardware.act, Hardware.executeInstruction, Option.map_map,
        Option.map_eq_some_iff] at hact
      obtain ⟨s, hrun, rfl⟩ := hact
      have hserved := hs.executeCycles hrun
      have hio : s.checkMapping.2.io = s.io := by
        unfold Hardware.checkMapping
        dsimp only
        split <;> rfl
      exact hserved.of_quiet (Hardware.parked_checkMapping hserved.parked)
        (congrArg Io.events hio) (congrArg (fun io => io.devices.peripherals) hio)
  | headless => exact hs.executeCycles hact
  | reset =>
      cases hact
      exact hs.of_quiet (Hardware.parked_reset devices h) rfl rfl
  | restart =>
      cases hact
      exact hs.of_quiet (Hardware.parked_restart devices hs.parked) rfl rfl
  | request req =>
      cases hact
      have hparked := Hardware.parked_handle hs.parked req
      cases req with
      | setDevices chips =>
          refine ⟨hparked, ⟨hs.ports.armed, hs.ports.served⟩, ?_⟩
          obtain ⟨hfdc, hfault⟩ := ha
          intro hsound
          obtain ⟨ops, hops, hexec, hwritten⟩ := hs.serves (hfault.symm.trans hsound)
          exact ⟨ops, hops, hexec.trans (congrArg some hfdc.symm), hwritten⟩
      | _ => exact hs.of_quiet hparked rfl rfl

/--
Across all commands the controller is where calls on its ports lead it, and the writes among
these calls are the `OUT`s that the program executed to the five ports, each once and in order.
-/
theorem controller_serves_outs {h t : Hardware (Chips Board)}
    {acts : List (Hardware.Act (Chips Board))} (hparked : h.Parked) (hstart : h.io.events = [])
    (hacts : Runs.Along (Hardware.act devices) KeysOnly h acts)
    (hrun : Runs.exec (Hardware.act devices) h acts = some t)
    (hsound : t.io.devices.peripherals.fault = false) :
    ∃ ops, (∀ op ∈ ops, isPortAccess op = true) ∧
      Runs.exec Fdc1793.step h.io.devices.peripherals.fdc ops =
        some t.io.devices.peripherals.fdc ∧
      ops.filterMap written = (t.io.events.filterMap PortEvent.executed).filterMap sent := by
  have hserves : Serves h.io.devices.peripherals.fdc h.io := by
    refine fun _ => ⟨[], fun _ hop => absurd hop List.not_mem_nil, rfl, ?_⟩
    rw [hstart]
    rfl
  have hend := Runs.Along.invariant_take (InService h.io.devices.peripherals.fdc)
    (fun _ _ hs ha _ hact => hs.act ha hact)
    ⟨hparked, Hardware.Idle.portsServed ⟨hparked.slot, hstart⟩, hserves⟩ hacts acts.length
    (by rwa [List.take_length])
  obtain ⟨ops, hops, hexec, hwritten⟩ := hend.serves hsound
  refine ⟨ops, hops, hexec, hwritten.trans ?_⟩
  have hcommits := hend.ports.served.commits
  rw [Io.pending_of_settled hend.parked.slot, Option.toList_none, List.append_nil] at hcommits
  rw [served, hcommits]

/-- A witness: the same `OUT`, of which the controller gets one call. -/
theorem controller_serves_select :
    ∃ t ops, Runs.exec (Hardware.act devices) atSelect [.executeInstruction] = some t ∧
      Runs.exec Fdc1793.step .new ops = some t.io.devices.peripherals.fdc ∧
      ops.filterMap written = [(.system, 0x00#8)] := by
  have hrun : (Runs.exec (Hardware.act devices) atSelect [.executeInstruction]).map
      (fun t => (t.io.devices.peripherals.fault, t.io.events.filterMap PortEvent.executed)) =
        some (false, [(0x1C#8, 0x00#8)]) := by decide +kernel
  obtain ⟨t, ht, houtcome⟩ := Option.map_eq_some_iff.mp hrun
  obtain ⟨hsound, hexecuted⟩ := Prod.mk.inj houtcome
  have hacts : Runs.Along (Hardware.act devices) KeysOnly atSelect [.executeInstruction] :=
    ⟨trivial, fun _ _ => trivial⟩
  obtain ⟨ops, -, hexec, hwritten⟩ :=
    controller_serves_outs (Hardware.parked_ofRam _ _) rfl hacts ht hsound
  refine ⟨t, ops, ht, hexec, hwritten.trans ?_⟩
  rw [hexecuted]
  rfl

end Board

end V6Emul
