import Mathlib.Data.BitVec
import Mathlib.Data.Fintype.Basic
import V6Emul.Memory

/-!
# The floppy disk controller

A WD1793 with four drives.  A data command computes a pointer into the image of
the selected disk, or to the header of its last seek, and a length; every access
to the data port then moves the pointer by one byte.  Nothing in the controller
compares the two with the size of the image, so `none` stands here for an access
through a pointer that leads nowhere, to which the language gives no meaning.
-/

namespace V6Emul

/-! ## Disks -/

abbrev fddSides : Nat := 2
def fddTracksPerSide : Nat := 82
def fddSectorsPerTrack : Nat := 5
def fddSectorLen : Nat := 1024
def fddSize : Nat := fddSides * fddTracksPerSide * fddSectorsPerTrack * fddSectorLen

abbrev drivesMax : Nat := 4

abbrev FddImage := Fin fddSize → Byte

structure FDisk where
  data : FddImage
  -- track, side and sector of the last seek, and a code for the sector length
  header : Fin 6 → Byte
  updated : Bool
  mounted : Bool
  reads : BitVec 64
  writes : BitVec 64

namespace FDisk

def new : FDisk where
  data := fun _ => 0
  header := Function.update (fun _ => 0) 3 0x3
  updated := false
  mounted := false
  reads := 0
  writes := 0

def mount (d : FDisk) (data : FddImage) : FDisk :=
  { d with data := data, mounted := true, updated := false, reads := 0, writes := 0 }

def dismount (d : FDisk) : FDisk := { d with mounted := false }

def setHeader (d : FDisk) (sideId trackId sectorId : Nat) : FDisk :=
  { d with
    header := Function.update (Function.update (Function.update d.header
      0 (BitVec.ofNat 8 trackId)) 1 (BitVec.ofNat 8 sideId)) 2 (BitVec.ofNat 8 sectorId) }

def setUpdated (d : FDisk) : FDisk := { d with updated := true }

def countRead (d : FDisk) : FDisk := { d with reads := d.reads + 1 }

def countWrite (d : FDisk) : FDisk := { d with updated := true, writes := d.writes + 1 }

end FDisk

/-- A pointer into the image or the header of a disk, or to neither. -/
inductive DataPtr where
  | abs (address : Nat)
  | data (drive : Fin drivesMax) (offset : Nat)
  | header (drive : Fin drivesMax) (offset : Nat)
  deriving DecidableEq

namespace DataPtr

def null : DataPtr := .abs 0

def drive : DataPtr → Option (Fin drivesMax)
  | .abs _ => none
  | .data drive _ => some drive
  | .header drive _ => some drive

def add : DataPtr → Nat → DataPtr
  | .abs address, n => .abs (address + n)
  | .data drive offset, n => .data drive (offset + n)
  | .header drive offset, n => .header drive (offset + n)

end DataPtr

/-! ## Register bits -/

def wd1793Irq : Byte := 0x80#8
def wd1793Drq : Byte := 0x40#8

def fBusy : Byte := 0x01#8
def fReadonly : Byte := 0x40#8
def fNotReady : Byte := 0x80#8
def fIndex : Byte := 0x02#8
def fTrack0 : Byte := 0x04#8
def fHeadLoad : Byte := 0x20#8
def fDrq : Byte := 0x02#8
def fLostData : Byte := 0x04#8
def fErrCode : Byte := 0x18#8
def fNotFound : Byte := 0x10#8

def cSideComp : Byte := 0x02#8
def cLoadHead : Byte := 0x08#8
def cSide : Byte := 0x08#8
def cIrq : Byte := 0x08#8
def cSetTrack : Byte := 0x10#8

def sDrive : Byte := 0x03#8
def sReset : Byte := 0x04#8
def sHalt : Byte := 0x08#8

/-- `COMMAND` is also `STATUS`, and `SYSTEM` also `READY`; `bad` is no register. -/
inductive FdcPort where
  | command
  | track
  | sector
  | data
  | system
  | bad
  deriving DecidableEq, Repr

structure FdcRegs where
  status : Byte
  track : Byte
  sector : Byte
  data : Byte
  system : Byte
  deriving DecidableEq, Repr

structure Fdc1793 where
  disks : Fin drivesMax → FDisk
  regs : FdcRegs
  drive : Fin drivesMax
  side : Fin fddSides
  track : Byte
  lastS : Byte
  irq : Byte
  wait : Byte
  cmd : Byte
  rwLen : Int
  ptr : DataPtr
  disk : Option (Fin drivesMax)

namespace Fdc1793

def reset (s : Fdc1793) : Fdc1793 :=
  { s with
    regs := ⟨0, 0, 0, 0, sReset ||| sHalt⟩
    side := 0
    track := 0
    lastS := 0
    irq := 0
    rwLen := 0
    wait := 0
    cmd := 0xD0 }

def new : Fdc1793 :=
  reset
    { disks := fun _ => .new
      regs := ⟨0, 0, 0, 0, 0⟩
      drive := 0
      side := 0
      track := 0
      lastS := 0
      irq := 0
      wait := 0
      cmd := 0
      rwLen := 0
      ptr := .null
      disk := none }

def busy (s : Fdc1793) : Bool := s.regs.status &&& fBusy != 0

/-! ## The current disk and the data pointer -/

def setDisk (s : Fdc1793) (drive : Fin drivesMax) (f : FDisk → FDisk) : Fdc1793 :=
  { s with disks := Function.update s.disks drive (f (s.disks drive)) }

def onDisk (s : Fdc1793) (f : FDisk → FDisk) : Option Fdc1793 :=
  s.disk.map fun drive => s.setDisk drive f

theorem onDisk_of_disk {s : Fdc1793} {d : Fin drivesMax} (h : s.disk = some d)
    (f : FDisk → FDisk) : s.onDisk f = some (s.setDisk d f) := by
  rw [onDisk, h]
  rfl

def getData (s : Fdc1793) (drive : Fin drivesMax) : DataPtr :=
  if (s.disks drive).mounted then .data drive 0 else .null

def getDisk (s : Fdc1793) (drive : Fin drivesMax) : Option (Fin drivesMax) :=
  if (s.disks drive).mounted then some drive else none

/-- `*m_ptr` -/
def load (s : Fdc1793) : Option Byte :=
  match s.ptr with
  | .abs _ => none
  | .data drive offset =>
      if h : offset < fddSize then some ((s.disks drive).data ⟨offset, h⟩) else none
  | .header drive offset =>
      if h : offset < 6 then some ((s.disks drive).header ⟨offset, h⟩) else none

/-- `*m_ptr = val` -/
def store (s : Fdc1793) (val : Byte) : Option Fdc1793 :=
  match s.ptr with
  | .abs _ => none
  | .data drive offset =>
      if h : offset < fddSize then
        some (s.setDisk drive fun d => { d with data := Function.update d.data ⟨offset, h⟩ val })
      else none
  | .header drive offset =>
      if h : offset < 6 then
        some (s.setDisk drive fun d => { d with header := Function.update d.header ⟨offset, h⟩ val })
      else none

def trackLen : Nat := fddSectorLen * fddSectorsPerTrack

/-- `memset(m_ptr, 0xE5, FDD_SECTOR_LEN * FDD_SECTORS_PER_TRACK)` -/
def fillTrack (s : Fdc1793) : Option Fdc1793 :=
  match s.ptr with
  | .data drive offset =>
      if offset + trackLen ≤ fddSize then
        some (s.setDisk drive fun d => { d with
          data := fun i => if offset ≤ i.val ∧ i.val < offset + trackLen then 0xE5 else d.data i })
      else none
  | _ => none

/-- Bytes before the sector in the image; sectors are numbered from 1. -/
def position (sideId trackId sectorId : Nat) : Nat :=
  (fddSectorsPerTrack * (trackId * fddSides + sideId) + (sectorId - 1)) * fddSectorLen

/-- `m_ptr = Seek(...)` -/
def seek (s : Fdc1793) (sideId trackId sectorId : Nat) : Fdc1793 :=
  match s.disk with
  | none => { s with ptr := .null }
  | some drive =>
      { s.setDisk drive fun d => d.setHeader sideId trackId sectorId with
        ptr := (s.getData drive).add (position sideId trackId sectorId) }

/-! ## Reading -/

def readStatus (s : Fdc1793) : Byte × Fdc1793 :=
  let value := if s.disk.isNone then s.regs.status ||| fNotReady else s.regs.status
  let status :=
    if s.cmd < 0x80 ∨ s.cmd = 0xD0 then
      (s.regs.status ^^^ fIndex) &&& (fIndex ||| fBusy ||| fNotReady ||| fReadonly ||| fTrack0)
    else s.regs.status &&& (fBusy ||| fNotReady ||| fReadonly ||| fDrq)
  (value, { s with regs := { s.regs with status := status } })

def countDown (s : Fdc1793) : Fdc1793 :=
  let rwLen := s.rwLen - 1
  if rwLen ≠ 0 then
    { s with
      rwLen := rwLen
      wait := 255
      regs := { s.regs with
        sector := if rwLen % (fddSectorLen : Int) = 0 then s.regs.sector + 1 else s.regs.sector } }
  else
    { s with
      rwLen := rwLen
      regs := { s.regs with status := s.regs.status &&& ~~~(fDrq ||| fBusy) }
      irq := wd1793Irq }

def readData (s : Fdc1793) : Option (Byte × Fdc1793) :=
  if s.rwLen = 0 then some (s.regs.data, s)
  else do
    let val ← s.load
    let s ← { s with regs := { s.regs with data := val }, ptr := s.ptr.add 1 }.onDisk
      FDisk.countRead
    return (val, s.countDown)

def readReady (s : Fdc1793) : Byte × Fdc1793 :=
  let s :=
    if s.wait = 0 then s
    else if s.wait - 1 = 0 then
      { s with
        wait := 0
        rwLen := 0
        regs := { s.regs with
          status := (s.regs.status &&& ~~~(fDrq ||| fBusy)) ||| fLostData }
        irq := wd1793Irq }
    else { s with wait := s.wait - 1 }
  (s.irq, s)

def read (s : Fdc1793) : FdcPort → Option (Byte × Fdc1793)
  | .command => some s.readStatus
  | .track => some (s.regs.track, s)
  | .sector => some (s.regs.sector, s)
  | .data => s.readData
  | .system => some s.readReady
  | .bad => some (0xFF, s)

/-! ## Commands -/

inductive FdcCommand where
  | restore
  | seekTrack
  | stepHead
  | readSectors
  | writeSectors
  | readAddress
  | forceIrq
  | readTrack
  | writeTrack
  deriving DecidableEq, Repr

/-- The command is in the high four bits. -/
def command (val : Byte) : FdcCommand :=
  match (val >>> 4).toNat with
  | 0x0 => .restore
  | 0x1 => .seekTrack
  | 0x2 | 0x3 | 0x4 | 0x5 | 0x6 | 0x7 => .stepHead
  | 0x8 | 0x9 => .readSectors
  | 0xA | 0xB => .writeSectors
  | 0xC => .readAddress
  | 0xD => .forceIrq
  | 0xE => .readTrack
  | _ => .writeTrack

def track0 (s : Fdc1793) : Byte := if s.track = 0 then fTrack0 else 0

def headLoad (val : Byte) : Byte := if val &&& cLoadHead ≠ 0 then fHeadLoad else 0

def forceIrq (s : Fdc1793) (val : Byte) : Fdc1793 :=
  { s with
    rwLen := 0
    cmd := 0xD0
    regs := { s.regs with
      status := if s.busy then s.regs.status &&& ~~~fBusy else s.track0 ||| fIndex }
    irq := if val &&& cIrq ≠ 0 then wd1793Irq else s.irq }

def restore (s : Fdc1793) (val : Byte) : Fdc1793 :=
  { s with
    track := 0
    regs := { s.regs with status := fIndex ||| fTrack0 ||| headLoad val, track := 0 }
    irq := wd1793Irq }

def seekTrack (s : Fdc1793) (val : Byte) : Fdc1793 :=
  let s := { s with rwLen := 0, track := s.regs.data }
  { s with
    regs := { s.regs with status := fIndex ||| s.track0 ||| headLoad val, track := s.track }
    irq := wd1793Irq }

def stepHead (s : Fdc1793) (val : Byte) : Fdc1793 :=
  -- a step in or out stores its direction, a step fetches it
  let lastS := if val &&& 0x40 ≠ 0 then val &&& 0x20 else s.lastS
  let val := if val &&& 0x40 ≠ 0 then val else (val &&& ~~~0x20) ||| s.lastS
  let track :=
    if val &&& 0x20 ≠ 0 then (if s.track = 0 then s.track else s.track - 1) else s.track + 1
  let s := { s with lastS := lastS, track := track }
  { s with
    regs := { s.regs with
      status := fIndex ||| s.track0
      track := if val &&& cSetTrack ≠ 0 then track else s.regs.track }
    irq := wd1793Irq }

def sideOf (s : Fdc1793) (val : Byte) : Nat :=
  if val &&& cSideComp ≠ 0 then (if val &&& cSide ≠ 0 then 1 else 0) else s.side

def transferLen (s : Fdc1793) (val : Byte) : Int :=
  let sectors : Int :=
    if val &&& 0x10 ≠ 0 then (fddSectorsPerTrack : Int) - (s.regs.sector.toNat : Int) + 1 else 1
  (fddSectorLen : Int) * sectors

def seekSectors (s : Fdc1793) (val : Byte) : Fdc1793 :=
  s.seek (s.sideOf val) s.regs.track.toNat s.regs.sector.toNat

def startTransfer (s : Fdc1793) (len : Int) : Fdc1793 :=
  { s with
    rwLen := len
    regs := { s.regs with status := s.regs.status ||| fBusy ||| fDrq }
    irq := wd1793Drq
    wait := 255 }

def sectorNotFound (s : Fdc1793) : Fdc1793 :=
  { s with
    regs := { s.regs with status := (s.regs.status &&& ~~~fErrCode) ||| fNotFound }
    irq := wd1793Irq }

def readSectors (s : Fdc1793) (val : Byte) : Fdc1793 :=
  let s := s.seekSectors val
  if s.ptr = .null then s.sectorNotFound else s.startTransfer (s.transferLen val)

def writeSectors (s : Fdc1793) (val : Byte) : Option Fdc1793 :=
  let s := s.seekSectors val
  if s.ptr = .null then some s.sectorNotFound
  else (s.startTransfer (s.transferLen val)).onDisk FDisk.setUpdated

def seekFirst (s : Fdc1793) : List Nat → Fdc1793
  | [] => s
  | sectorId :: rest =>
      let s := s.seek s.side s.track.toNat sectorId
      if s.ptr = .null then s.seekFirst rest else s

def addressNotFound (s : Fdc1793) : Fdc1793 :=
  { s with
    regs := { s.regs with status := s.regs.status ||| fNotFound }
    irq := wd1793Irq }

def readAddress (s : Fdc1793) : Option Fdc1793 :=
  let s := if s.disk.isNone then { s with ptr := .null } else s.seekFirst (List.range 256)
  if s.ptr = .null then some s.addressNotFound
  else s.disk.map fun drive => { s with ptr := .header drive 0 }.startTransfer 6

def formatSide (s : Fdc1793) (sideId : Nat) : Option Fdc1793 :=
  let s := s.seek sideId s.regs.track.toNat 1
  if s.ptr = .null then some s
  else do
    let s ← s.fillTrack
    s.onDisk FDisk.setUpdated

def writeTrack (s : Fdc1793) : Option Fdc1793 := do
  let s ← s.formatSide 0
  s.formatSide 1

def execCommand (s : Fdc1793) (val : Byte) : Option Fdc1793 :=
  match command val with
  | .restore => some (s.restore val)
  | .seekTrack => some (s.seekTrack val)
  | .stepHead => some (s.stepHead val)
  | .readSectors => some (s.readSectors val)
  | .writeSectors => s.writeSectors val
  | .readAddress => s.readAddress
  | .forceIrq => some (s.forceIrq val)
  | .readTrack => some s
  | .writeTrack => s.writeTrack

def latch (s : Fdc1793) (val : Byte) : Fdc1793 :=
  { s with irq := 0, regs := { s.regs with status := 0 }, cmd := val }

def writeCommand (s : Fdc1793) (val : Byte) : Option Fdc1793 :=
  if command val = .forceIrq then some ({ s with irq := 0 }.forceIrq val)
  else if s.busy then some { s with irq := 0 }
  else (s.latch val).execCommand val

/-! ## Writing -/

def storeData (s : Fdc1793) (val : Byte) : Option Fdc1793 :=
  if s.rwLen = 0 then some s
  else do
    let s ← s.store val
    let s ← { s with ptr := s.ptr.add 1 }.onDisk FDisk.countWrite
    return s.countDown

def writeData (s : Fdc1793) (val : Byte) : Option Fdc1793 :=
  (s.storeData val).map fun s => { s with regs := { s.regs with data := val } }

def selectedDrive (val : Byte) : Fin drivesMax := Fin.ofNat drivesMax (val &&& sDrive).toNat

def writeSystem (s : Fdc1793) (val : Byte) : Fdc1793 :=
  { s with
    drive := selectedDrive val
    disk := s.getDisk (selectedDrive val)
    side := Fin.ofNat fddSides ((~~~val >>> 2) &&& 1).toNat
    regs := { s.regs with system := val } }

def writePort (s : Fdc1793) (port : FdcPort) (val : Byte) : Option Fdc1793 :=
  match port with
  | .command => s.writeCommand val
  | .track => some (if s.busy then s else { s with regs := { s.regs with track := val } })
  | .sector => some (if s.busy then s else { s with regs := { s.regs with sector := val } })
  | .data => s.writeData val
  | .system => some (s.writeSystem val)
  | .bad => some s

/-- `Write`, which returns the interrupt and data request lines. -/
def write (s : Fdc1793) (port : FdcPort) (val : Byte) : Option (Byte × Fdc1793) :=
  (s.writePort port val).map fun s => (s.irq, s)

/-! ## Drives -/

def mount (s : Fdc1793) (driveIdx : Nat) (data : FddImage) : Fdc1793 :=
  let s' := s.setDisk (Fin.ofNat drivesMax driveIdx) fun d => d.mount data
  if driveIdx = s.drive then s'.reset else s'

def dismount (s : Fdc1793) (driveIdx : Fin drivesMax) : Fdc1793 :=
  let s' := s.setDisk driveIdx FDisk.dismount
  if driveIdx = s.drive then { s' with disk := none, ptr := .null, rwLen := 0 } else s'

def resetUpdate (s : Fdc1793) (driveIdx : Fin drivesMax) : Fdc1793 :=
  s.setDisk driveIdx fun d => { d with updated := false }

/-! ## Calls in any order -/

inductive FdcOp where
  | read (port : FdcPort)
  | write (port : FdcPort) (val : Byte)
  | mount (driveIdx : Nat) (data : FddImage)
  | dismount (driveIdx : Fin drivesMax)
  | resetUpdate (driveIdx : Fin drivesMax)

def step (s : Fdc1793) : FdcOp → Option Fdc1793
  | .read port => (s.read port).map Prod.snd
  | .write port val => (s.write port val).map Prod.snd
  | .mount driveIdx data => some (s.mount driveIdx data)
  | .dismount driveIdx => some (s.dismount driveIdx)
  | .resetUpdate driveIdx => some (s.resetUpdate driveIdx)

end Fdc1793

end V6Emul
