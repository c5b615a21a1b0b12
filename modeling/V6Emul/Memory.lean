import Mathlib.Data.BitVec
import Mathlib.Data.Fintype.Basic
import Mathlib.Tactic.Linarith
import V6Emul.Foundation.Indices
import V6Emul.Foundation.UndoLog

/-!
# The Vector-06C memory

Main RAM (64 KiB) and eight RAM disks (256 KiB each) form one array of global
RAM.  A 16-bit CPU address is turned into a global address by the RAM-disk
mapping that is active, which differs for stack accesses.  Reads of the first
bytes are served by the boot ROM while it is enabled; writes always go to RAM.
Global addresses (`uint32_t`, below `2^22`) are natural numbers.
Every CPU access also fills the per-instruction debug record.
-/

namespace V6Emul

abbrev Byte := BitVec 8

abbrev Addr := BitVec 16

inductive AddrSpace where
  | ram
  | stack
  deriving DecidableEq, Repr

inductive MemType where
  | rom
  | ram
  deriving DecidableEq, Repr

/-! ## Constants -/

def mem64K : Nat := 64 * 1024
def ramDiskPageLen : Nat := mem64K
def ramdiskPagesMax : Nat := 4
def memoryRamdiskLen : Nat := ramdiskPagesMax * mem64K
def ramDiskMax : Nat := 8
def memoryMainLen : Nat := mem64K
def memoryGlobalLen : Nat := memoryMainLen + memoryRamdiskLen * ramDiskMax

def mappingModeMask : Byte := 0b11110000#8

/-! ## Global RAM -/

abbrev Ram := Fin memoryGlobalLen → Byte

def Ram.read (ram : Ram) (globalAddr : Nat) : Byte :=
  if h : globalAddr < memoryGlobalLen then ram ⟨globalAddr, h⟩ else 0

def Ram.write (ram : Ram) (globalAddr : Nat) (value : Byte) : Ram :=
  fun i => if i.val = globalAddr then value else ram i

theorem Ram.write_write (ram : Ram) (a : Nat) (v w : Byte) :
    Ram.write (Ram.write ram a v) a w = Ram.write ram a w := by
  funext i
  by_cases h : i.val = a <;> simp [Ram.write, h]

theorem Ram.write_read (ram : Ram) (a : Nat) :
    Ram.write ram a (Ram.read ram a) = ram := by
  funext i
  by_cases h : i.val = a
  · subst h
    simp [Ram.write, Ram.read, i.isLt]
  · simp [Ram.write, h]

def Ram.cells : UndoLog.Cells Ram Nat Byte where
  read := Ram.read
  write := Ram.write
  write_write := Ram.write_write
  write_read := Ram.write_read

abbrev Store := UndoLog.Entry Nat Byte

theorem Ram.read_write_self (ram : Ram) {a : Nat} (v : Byte)
    (h : a < memoryGlobalLen) : Ram.read (Ram.write ram a v) a = v := by
  simp [Ram.read, Ram.write, h]

theorem Ram.read_write_ne (ram : Ram) {a b : Nat} (v : Byte) (h : a ≠ b) :
    Ram.read (Ram.write ram b v) a = Ram.read ram a := by
  simp [Ram.read, Ram.write, h]

/-! ## RAM-disk mapping -/

structure Mapping where
  data : Byte
  deriving DecidableEq, Repr

namespace Mapping

def pageRam (m : Mapping) : Nat := (m.data &&& 0b11#8).toNat
def pageStack (m : Mapping) : Nat := ((m.data >>> 2) &&& 0b11#8).toNat
def modeStack (m : Mapping) : Bool := m.data.getLsbD 4
def modeRamA (m : Mapping) : Bool := m.data.getLsbD 5
def modeRam8 (m : Mapping) : Bool := m.data.getLsbD 6
def modeRamE (m : Mapping) : Bool := m.data.getLsbD 7

/-- RAM or stack mapping is switched on: `data & MAPPING_MODE_MASK`. -/
def enabled (m : Mapping) : Bool := m.data &&& mappingModeMask != 0

theorem pageRam_lt (m : Mapping) : m.pageRam < 4 := by
  have h : m.pageRam ≤ (0b11#8).toNat := by
    simpa [pageRam] using Nat.and_le_right
  exact Nat.lt_succ_of_le h

theorem pageStack_lt (m : Mapping) : m.pageStack < 4 := by
  have h : m.pageStack ≤ (0b11#8).toNat := by
    simpa [pageStack] using Nat.and_le_right
  exact Nat.lt_succ_of_le h

end Mapping

/-- The part of the memory state that the recorder saves and restores. -/
structure Update where
  mapping : Mapping
  ramdiskIdx : BitVec 3
  memType : MemType
  deriving DecidableEq, Repr

/-- Converts a CPU address depending on the RAM and stack mapping modes. -/
def Update.getGlobalAddr (u : Update) (addr : Addr) (space : AddrSpace) : Nat :=
  if !u.mapping.enabled then addr.toNat
  else if u.mapping.modeStack && space == .stack then
    addr.toNat + (u.mapping.pageStack + 1 + u.ramdiskIdx.toNat * 4) * ramDiskPageLen
  -- the RAM mapping applies to a stack access too when the stack mode is off
  else if (u.mapping.modeRamA && 0xA000 ≤ addr.toNat && addr.toNat < 0xE000) ||
      (u.mapping.modeRam8 && 0x8000 ≤ addr.toNat && addr.toNat < 0xA000) ||
      (u.mapping.modeRamE && 0xE000 ≤ addr.toNat) then
    addr.toNat + (u.mapping.pageRam + 1 + u.ramdiskIdx.toNat * 4) * ramDiskPageLen
  else addr.toNat

/--
A global address is the CPU address moved by whole 64 KiB pages: page 0 is main
RAM, pages 1 to 32 are the RAM disks.
-/
theorem Update.getGlobalAddr_eq_page (u : Update) (addr : Addr) (space : AddrSpace) :
    ∃ page : Nat, page ≤ 32 ∧ u.getGlobalAddr addr space = addr.toNat + page * ramDiskPageLen := by
  have hRam := u.mapping.pageRam_lt
  have hStack := u.mapping.pageStack_lt
  have hIdx := u.ramdiskIdx.isLt
  unfold Update.getGlobalAddr
  split
  · exact ⟨0, by omega, by simp⟩
  split
  · refine ⟨_, ?_, rfl⟩
    omega
  split
  · refine ⟨_, ?_, rfl⟩
    omega
  · exact ⟨0, by omega, by simp⟩

theorem Update.getGlobalAddr_lt (u : Update) (addr : Addr) (space : AddrSpace) :
    u.getGlobalAddr addr space < memoryGlobalLen := by
  obtain ⟨page, hpage, heq⟩ := u.getGlobalAddr_eq_page addr space
  have haddr := addr.isLt
  have hlen : memoryGlobalLen = 33 * 65536 := by decide
  have hpageLen : ramDiskPageLen = 65536 := by decide
  rw [heq, hlen, hpageLen]
  omega

theorem Update.getGlobalAddr_mod (u : Update) (addr : Addr) (space : AddrSpace) :
    u.getGlobalAddr addr space % mem64K = addr.toNat := by
  obtain ⟨page, -, heq⟩ := u.getGlobalAddr_eq_page addr space
  have haddr := addr.isLt
  rw [heq, ramDiskPageLen, Nat.add_mul_mod_self_right]
  exact Nat.mod_eq_of_lt (by simpa [mem64K] using haddr)

/-! ## The memory and its debug record -/

structure Debug where
  instrGlobalAddr : Nat
  instr : Fin 3 → Byte
  instrLen : Nat
  readGlobalAddr : Fin 2 → Nat
  read : Fin 2 → Byte
  readLen : Nat
  writeGlobalAddr : Fin 2 → Nat
  write : Fin 2 → Byte
  writeLen : Nat
  beforeWrite : Fin 2 → Byte

def Debug.init (d : Debug) : Debug :=
  { d with instrLen := 0, readLen := 0, writeLen := 0 }

def Debug.empty : Debug :=
  ⟨0, fun _ => 0, 0, fun _ => 0, fun _ => 0, 0, fun _ => 0, fun _ => 0, 0, fun _ => 0⟩

structure Memory where
  ram : Ram
  rom : List Byte
  mappings : Fin ramDiskMax → Mapping
  mappingsEnabled : Nat
  update : Update
  debug : Debug
  ramDiskClearAfterRestart : Bool

namespace Memory

def ofRam (ram : Ram) : Memory where
  ram := ram
  rom := []
  mappings := fun _ => ⟨0⟩
  mappingsEnabled := 0
  update := ⟨⟨0⟩, 0, .ram⟩
  debug := .empty
  ramDiskClearAfterRestart := false

def getGlobalAddr (m : Memory) (addr : Addr) (space : AddrSpace) : Nat :=
  m.update.getGlobalAddr addr space

def overlay (m : Memory) (globalAddr : Nat) : Byte :=
  if m.update.memType = .rom ∧ globalAddr < m.rom.length then m.rom.getD globalAddr 0
  else m.ram.read globalAddr

def getByte (m : Memory) (addr : Addr) (space : AddrSpace) : Byte :=
  m.overlay (m.getGlobalAddr addr space)

def debugInit (m : Memory) : Memory := { m with debug := m.debug.init }

def cpuReadInstr (m : Memory) (addr : Addr) (space : AddrSpace) (byteNum : Fin 3) :
    Byte × Memory :=
  let globalAddr := m.getGlobalAddr addr space
  let val := m.overlay globalAddr
  (val, { m with debug := { m.debug with
    instrGlobalAddr := if byteNum = 0 then globalAddr else m.debug.instrGlobalAddr
    instr := Function.update m.debug.instr byteNum val } })

def cpuInvokesRst7 (m : Memory) : Memory :=
  { m with debug := { m.debug with instr := Function.update m.debug.instr 0 0xFF#8 } }

def cpuRead (m : Memory) (addr : Addr) (space : AddrSpace) (byteNum : Fin 2) :
    Byte × Memory :=
  let globalAddr := m.getGlobalAddr addr space
  let value := m.overlay globalAddr
  (value, { m with debug := { m.debug with
    readGlobalAddr := Function.update m.debug.readGlobalAddr byteNum globalAddr
    read := Function.update m.debug.read byteNum value
    readLen := byteNum + 1 } })

def cpuWrite (m : Memory) (addr : Addr) (value : Byte) (space : AddrSpace)
    (byteNum : Fin 2) : Memory :=
  let globalAddr := m.getGlobalAddr addr space
  { m with
    debug := { m.debug with
      beforeWrite := Function.update m.debug.beforeWrite byteNum (m.ram.read globalAddr)
      writeGlobalAddr := Function.update m.debug.writeGlobalAddr byteNum globalAddr
      writeLen := byteNum + 1
      write := Function.update m.debug.write byteNum value }
    ram := m.ram.write globalAddr value }

def initRamDiskMapping (m : Memory) : Memory :=
  { m with
    mappings := fun _ => ⟨0⟩
    update := { m.update with mapping := ⟨0⟩, ramdiskIdx := 0 }
    mappingsEnabled := 0 }

def init (m : Memory) : Memory :=
  let ram : Ram := fun i =>
    if m.ramDiskClearAfterRestart ∨ i.val < memoryMainLen then 0 else m.ram i
  { m with ram := ram, update := { m.update with memType := .rom } }.initRamDiskMapping

def restart (m : Memory) : Memory :=
  { m with update := { m.update with memType := .ram } }.initRamDiskMapping

/--
One turn of the loop of `SetRamDiskMode`: the flag tells that the loop was left
because a second disk is enabled.
-/
def setRamDiskModeStep (m : Memory) (ramdiskIdx : Fin ramDiskMax) : Bool × Memory :=
  if (m.mappings ramdiskIdx).enabled then
    let m := { m with mappingsEnabled := m.mappingsEnabled + 1 }
    if m.mappingsEnabled > 1 then (true, m)
    else (false, { m with update := { m.update with
      mapping := m.mappings ramdiskIdx
      ramdiskIdx := BitVec.ofNat 3 ramdiskIdx } })
  else (false, m)

def setRamDiskModeLoop (m : Memory) : List (Fin ramDiskMax) → Memory
  | [] => m
  | ramdiskIdx :: rest =>
      match m.setRamDiskModeStep ramdiskIdx with
      | (true, m) => m
      | (false, m) => m.setRamDiskModeLoop rest

def setRamDiskMode (m : Memory) (diskIdx : Fin ramDiskMax) (data : Byte) : Memory :=
  { m with
    mappings := Function.update m.mappings diskIdx ⟨data⟩
    update := { m.update with mapping := ⟨0⟩ }
    mappingsEnabled := 0 }.setRamDiskModeLoop (List.finRange ramDiskMax)

def isException (m : Memory) : Bool × Memory :=
  (decide (m.mappingsEnabled > 1), { m with mappingsEnabled := 0 })

/-! ## Accesses

A read changes the debug record only; a write changes one byte of global RAM.
-/

def afterReadInstr (m : Memory) (addr : Addr) (space : AddrSpace) (byteNum : Fin 3) : Memory :=
  (m.cpuReadInstr addr space byteNum).2

def afterRead (m : Memory) (addr : Addr) (space : AddrSpace) (byteNum : Fin 2) : Memory :=
  (m.cpuRead addr space byteNum).2

theorem cpuReadInstr_eq (m : Memory) (addr : Addr) (space : AddrSpace) (byteNum : Fin 3) :
    m.cpuReadInstr addr space byteNum =
      (m.getByte addr space, m.afterReadInstr addr space byteNum) := rfl

theorem cpuRead_eq (m : Memory) (addr : Addr) (space : AddrSpace) (byteNum : Fin 2) :
    m.cpuRead addr space byteNum = (m.getByte addr space, m.afterRead addr space byteNum) := rfl

section Accesses

variable (m : Memory) (addr addr' : Addr) (space space' : AddrSpace) (value : Byte)

@[simp] theorem ram_afterReadInstr (byteNum : Fin 3) :
    (m.afterReadInstr addr space byteNum).ram = m.ram := rfl

@[simp] theorem ram_afterRead (byteNum : Fin 2) :
    (m.afterRead addr space byteNum).ram = m.ram := rfl

@[simp] theorem ram_cpuWrite (byteNum : Fin 2) :
    (m.cpuWrite addr value space byteNum).ram =
      m.ram.write (m.getGlobalAddr addr space) value := rfl

@[simp] theorem getGlobalAddr_afterReadInstr (byteNum : Fin 3) :
    (m.afterReadInstr addr space byteNum).getGlobalAddr addr' space' =
      m.getGlobalAddr addr' space' := rfl

@[simp] theorem getGlobalAddr_afterRead (byteNum : Fin 2) :
    (m.afterRead addr space byteNum).getGlobalAddr addr' space' =
      m.getGlobalAddr addr' space' := rfl

@[simp] theorem getGlobalAddr_cpuWrite (byteNum : Fin 2) :
    (m.cpuWrite addr value space byteNum).getGlobalAddr addr' space' =
      m.getGlobalAddr addr' space' := rfl

@[simp] theorem getByte_afterReadInstr (byteNum : Fin 3) :
    (m.afterReadInstr addr space byteNum).getByte addr' space' = m.getByte addr' space' := rfl

@[simp] theorem getByte_afterRead (byteNum : Fin 2) :
    (m.afterRead addr space byteNum).getByte addr' space' = m.getByte addr' space' := rfl

end Accesses

end Memory

end V6Emul
