import V6Emul.Cpu.State
import V6Emul.Debugger.TraceHistory
import V6Emul.Display.Model

/-!
# The lines of the trace file

A line shows the instruction at the program counter.  The address is translated once and
the bytes are taken from global RAM behind it, where the processor translates each address
of its own and sees the boot ROM.
-/

namespace V6Emul

/-! ## Text -/

def hexChar (digit : Nat) : Char :=
  if digit < 10 then Char.ofNat (48 + digit) else Char.ofNat (55 + digit)

def hexText (width n : Nat) : List Char :=
  (List.range width).reverse.map fun i => hexChar (n / 16 ^ i % 16)

def uint8ToStrC (value : Byte) : List Char := hexText 2 value.toNat

def uint16ToStrC (value : Addr) : List Char := hexText 4 value.toNat

/-- `%0*d` -/
def decText (width : Nat) (value : Int) : List Char :=
  if value < 0 then '-' :: (Nat.toDigits 10 value.natAbs).leftpad (width - 1) '0'
  else (Nat.toDigits 10 value.natAbs).leftpad width '0'

def flagText (flag : Bool) : List Char := if flag then ['1'] else ['0']

namespace DisasmLine

def lineBuffLen : Nat := 127

/-- `Ram::at` -/
def ramAt (ram : Ram) (globalAddr : Nat) : Option Byte :=
  if h : globalAddr < memoryGlobalLen then some (ram ⟨globalAddr, h⟩) else none

/-- The bytes of an instruction; a blank pair stands for a byte it does not have. -/
def bytesText (opcode dataL dataH : Byte) : List Char :=
  uint8ToStrC opcode ++ [' '] ++
    (if 1 < getInstrLen opcode then uint8ToStrC dataL else [' ', ' ']) ++ [' '] ++
    (if 2 < getInstrLen opcode then uint8ToStrC dataH else [' ', ' '])

def regsText (cpu : CpuState) : List Char :=
  "A=".toList ++ uint8ToStrC cpu.a ++ " BC=".toList ++ uint16ToStrC cpu.bc.word ++
    " DE=".toList ++ uint16ToStrC cpu.de.word ++ " HL=".toList ++ uint16ToStrC cpu.hl.word ++
    " SP=".toList ++ uint16ToStrC cpu.sp.word ++ " S".toList ++ flagText cpu.f.s ++
    " Z".toList ++ flagText cpu.f.z ++ " AC".toList ++ flagText cpu.f.ac ++
    " P".toList ++ flagText cpu.f.p ++ " CY".toList ++ flagText cpu.f.c ++
    " CC=".toList ++ decText 12 cpu.cc.toNat

def displayText (display : DisplayUpdate) : List Char :=
  " scr=".toList ++ decText 3 (display.framebufferIdx.toInt.tmod frameW) ++ "/".toList ++
    decText 3 (display.framebufferIdx.toInt.tdiv frameW) ++ " scrl=".toList ++
    uint8ToStrC display.scrollIdx

def lineText (cpu : CpuState) (globalAddr : Nat) (opcode dataL dataH : Byte)
    (display : DisplayUpdate) : List Char :=
  hexText 6 globalAddr ++ "  ".toList ++ (bytesText opcode dataL dataH ++ ("  ".toList ++
    regsText cpu ++ displayText display ++ "\n".toList))

def printToBuffer (cpu : CpuState) (m : Memory) (display : DisplayUpdate) :
    Option (List Char) := do
  let globalAddr := m.getGlobalAddr cpu.pc.word .ram
  let opcode ← ramAt m.ram globalAddr
  let dataL ← ramAt m.ram (globalAddr + 1)
  let dataH ← ramAt m.ram (globalAddr + 2)
  some (lineText cpu globalAddr opcode dataL dataH display)

end DisasmLine

structure LogFile where
  saveLog : Bool
  isOpen : Bool
  text : List Char

namespace LogFile

def save (cpu : CpuState) (m : Memory) (display : DisplayUpdate)
    (logFile : LogFile) : Option LogFile :=
  if logFile.saveLog && logFile.isOpen then
    (DisasmLine.printToBuffer cpu m display).map fun line =>
      { logFile with text := logFile.text ++ line }
  else some logFile

end LogFile

namespace DisasmLine

/-! ## What the line is for -/

/-- The byte the processor fetches `k` bytes behind an address. -/
def fetched (m : Memory) (pc : Addr) (k : Nat) : Byte := m.getByte (pc + BitVec.ofNat 16 k) .ram

/-- The line fits the buffer with its terminator, and its columns of bytes show the instruction
the processor fetches. -/
structure Right (m : Memory) (pc : Addr) (line : List Char) : Prop where
  fits : line.length < lineBuffLen
  bytes : (line.drop 8).take 8 = bytesText (fetched m pc 0) (fetched m pc 1) (fetched m pc 2)

/-! ## The text of a line -/

theorem hexText_length (width n : Nat) : (hexText width n).length = width := by
  rw [hexText, List.length_map, List.length_reverse, List.length_range]

theorem hexChar_inj : ∀ a < 16, ∀ b < 16, hexChar a = hexChar b → a = b := by
  decide

theorem uint8ToStrC_eq (value : Byte) :
    uint8ToStrC value = [hexChar (value.toNat / 16 % 16), hexChar (value.toNat % 16)] := by
  show [hexChar (value.toNat / 16 % 16), hexChar (value.toNat / 1 % 16)] = _
  rw [Nat.div_one]

theorem uint8ToStrC_inj {a b : Byte} (h : uint8ToStrC a = uint8ToStrC b) : a = b := by
  rw [uint8ToStrC_eq, uint8ToStrC_eq] at h
  obtain ⟨hhigh, hrest⟩ := List.cons.inj h
  have hlow := (List.cons.inj hrest).1
  have hhigh' := hexChar_inj _ (Nat.mod_lt _ (by decide)) _ (Nat.mod_lt _ (by decide)) hhigh
  have hlow' := hexChar_inj _ (Nat.mod_lt _ (by decide)) _ (Nat.mod_lt _ (by decide)) hlow
  refine BitVec.eq_of_toNat_eq ?_
  have ha := a.isLt
  have hb := b.isLt
  omega

theorem uint8ToStrC_length (value : Byte) : (uint8ToStrC value).length = 2 :=
  hexText_length 2 value.toNat

theorem pair_length {value : Byte} {shown : Prop} [Decidable shown] :
    (if shown then uint8ToStrC value else [' ', ' ']).length = 2 := by
  split
  · exact uint8ToStrC_length value
  · rfl

theorem bytesText_length (opcode dataL dataH : Byte) :
    (bytesText opcode dataL dataH).length = 8 := by
  simp only [bytesText, List.length_append, pair_length, uint8ToStrC_length, List.length_singleton]

theorem bytesText_eq_iff {o l h o' l' h' : Byte} :
    bytesText o l h = bytesText o' l' h' ↔
      o = o' ∧ (1 < getInstrLen o → l = l') ∧ (2 < getInstrLen o → h = h') := by
  constructor
  · intro heq
    simp only [bytesText, List.append_assoc] at heq
    obtain ⟨hopcode, hrest⟩ := List.append_inj heq (by rw [uint8ToStrC_length, uint8ToStrC_length])
    have ho := uint8ToStrC_inj hopcode
    subst ho
    obtain ⟨-, hrest⟩ := List.append_inj hrest rfl
    obtain ⟨hlow, hrest⟩ := List.append_inj hrest (by rw [pair_length, pair_length])
    obtain ⟨-, hhigh⟩ := List.append_inj hrest rfl
    refine ⟨rfl, fun hlen => ?_, fun hlen => ?_⟩
    · rw [if_pos hlen, if_pos hlen] at hlow
      exact uint8ToStrC_inj hlow
    · rw [if_pos hlen, if_pos hlen] at hhigh
      exact uint8ToStrC_inj hhigh
  · rintro ⟨rfl, hlow, hhigh⟩
    rw [bytesText, bytesText]
    congr 1
    · congr 2
      split
      · next hlen => rw [hlow hlen]
      · rfl
    · split
      · next hlen => rw [hhigh hlen]
      · rfl

theorem decText_length {width bound : Nat} {value : Int} (hwidth : width ≤ bound)
    (hpos : 0 < bound) (hvalue : value.natAbs < 10 ^ bound) :
    (decText width value).length ≤ bound + 1 := by
  have hdigits := (Nat.length_toDigits_le_iff (by decide) hpos).mpr hvalue
  unfold decText
  split
  · rw [List.length_cons, List.length_leftpad]
    omega
  · rw [List.length_leftpad]
    omega

theorem flagText_length (flag : Bool) : (flagText flag).length = 1 := by
  cases flag <;> rfl

theorem regsText_length (cpu : CpuState) : (regsText cpu).length ≤ 78 := by
  have hcc : (decText 12 cpu.cc.toNat).length ≤ 21 := by
    refine decText_length (by decide) (by decide) ?_
    have hlt : cpu.cc.toNat < 2 ^ 64 := cpu.cc.isLt
    rw [Int.natAbs_natCast]
    exact Nat.lt_trans hlt (by norm_num)
  unfold regsText
  simp only [List.length_append, uint8ToStrC_length, uint16ToStrC, hexText_length,
    flagText_length]
  show 2 + 2 + 4 + 4 + 4 + 4 + 4 + 4 + 4 + 4 + 2 + 1 + 2 + 1 + 3 + 1 + 2 + 1 + 3 + 1 + 4 + _ ≤ 78
  omega

theorem displayText_length (display : DisplayUpdate) : (displayText display).length ≤ 26 := by
  have hpixel : (decText 3 (display.framebufferIdx.toInt.tmod frameW)).length ≤ 4 := by
    refine decText_length (by decide) (by decide) ?_
    have hlt := Nat.mod_lt display.framebufferIdx.toInt.natAbs (show 0 < frameW by decide)
    rw [Int.natAbs_tmod, Int.natAbs_natCast]
    exact Nat.lt_trans hlt (by decide)
  have hline : (decText 3 (display.framebufferIdx.toInt.tdiv frameW)).length ≤ 8 := by
    refine decText_length (by decide) (by decide) ?_
    have hlt := display.framebufferIdx.toInt_lt
    have hle := display.framebufferIdx.le_toInt
    have hdiv : display.framebufferIdx.toInt.natAbs / 768 < 10 ^ 7 := by
      omega
    rw [Int.natAbs_tdiv]
    exact hdiv
  unfold displayText
  simp only [List.length_append, uint8ToStrC_length]
  show 5 + _ + 1 + _ + 6 + 2 ≤ 26
  omega

theorem lineText_length (cpu : CpuState) (globalAddr : Nat) (opcode dataL dataH : Byte)
    (display : DisplayUpdate) :
    (lineText cpu globalAddr opcode dataL dataH display).length < lineBuffLen := by
  have hregs := regsText_length cpu
  have hdisplay := displayText_length display
  unfold lineText
  simp only [List.length_append, hexText_length, bytesText_length]
  show 6 + 2 + (8 + (2 + _ + _ + 1)) < 127
  omega

theorem lineText_bytes (cpu : CpuState) (globalAddr : Nat) (opcode dataL dataH : Byte)
    (display : DisplayUpdate) :
    ((lineText cpu globalAddr opcode dataL dataH display).drop 8).take 8 =
      bytesText opcode dataL dataH := by
  rw [lineText, List.drop_left' (by rw [List.length_append, hexText_length]; rfl),
    List.take_left' (bytesText_length opcode dataL dataH)]

end DisasmLine

/-! ## Windows -/

def Update.inRamWindow (u : Update) (addr : Addr) : Bool :=
  u.mapping.enabled &&
    ((u.mapping.modeRamA && 0xA000 ≤ addr.toNat && addr.toNat < 0xE000) ||
      (u.mapping.modeRam8 && 0x8000 ≤ addr.toNat && addr.toNat < 0xA000) ||
      (u.mapping.modeRamE && 0xE000 ≤ addr.toNat))

def Update.windowPage (u : Update) : Nat := u.mapping.pageRam + 1 + u.ramdiskIdx.toNat * 4

theorem Update.windowPage_range (u : Update) : 1 ≤ u.windowPage ∧ u.windowPage ≤ 32 := by
  have hram := u.mapping.pageRam_lt
  have hidx := u.ramdiskIdx.isLt
  unfold windowPage
  omega

theorem Update.getGlobalAddr_ram (u : Update) (addr : Addr) :
    u.getGlobalAddr addr .ram =
      addr.toNat + (if u.inRamWindow addr then u.windowPage else 0) * ramDiskPageLen := by
  have hspace : (AddrSpace.ram == AddrSpace.stack) = false := rfl
  unfold Update.getGlobalAddr inRamWindow windowPage
  rw [hspace, Bool.and_false]
  cases u.mapping.enabled
  · rw [Bool.false_and]
    exact (congrArg (addr.toNat + ·) (Nat.zero_mul _)).symm
  · rw [Bool.true_and, if_neg (by decide), if_neg (by decide)]
    split
    · rfl
    · rw [Nat.zero_mul, Nat.add_zero]

namespace DisasmLine

/-! ## Where the line is right -/

variable (m : Memory) (pc : Addr) (k : Nat)

/-- The byte the line has `k` bytes behind the program counter. -/
def shown : Byte := m.ram.read (m.getGlobalAddr pc .ram + k)

/-- The instruction reaches past global RAM: it is at the end of the last page of the last RAM
disk. -/
def AtEnd : Prop :=
  0xFFFE ≤ pc.toNat ∧ m.update.inRamWindow pc = true ∧ m.update.windowPage = 32

/-- The address does not wrap, leave its window, or come to the boot ROM. -/
structure Direct : Prop where
  below : pc.toNat + k < mem64K
  window : m.update.inRamWindow (pc + BitVec.ofNat 16 k) = m.update.inRamWindow pc
  ram : ¬(m.update.memType = .rom ∧ m.getGlobalAddr (pc + BitVec.ofNat 16 k) .ram < m.rom.length)

variable {m pc k}

theorem inside_iff : m.getGlobalAddr pc .ram + 2 < memoryGlobalLen ↔ ¬AtEnd m pc := by
  have hpc := pc.isLt
  have hrange := m.update.windowPage_range
  have hlen : memoryGlobalLen = 33 * 65536 := by decide
  have hpage : ramDiskPageLen = 65536 := by decide
  rw [Memory.getGlobalAddr, Update.getGlobalAddr_ram, hlen, hpage]
  split
  · next hwindow =>
      constructor
      · rintro hlt ⟨hlast, -, hdisk⟩
        omega
      · intro hend
        by_contra hge
        exact hend ⟨by omega, hwindow, by omega⟩
  · next hwindow =>
      constructor
      · rintro - ⟨-, h, -⟩
        exact hwindow h
      · intro _
        omega

theorem Direct.shown_eq (h : Direct m pc k) : shown m pc k = fetched m pc k := by
  have hbelow := h.below
  have hmem : mem64K = 65536 := by decide
  have haddr : (pc + BitVec.ofNat 16 k).toNat = pc.toNat + k := by
    rw [BitVec.toNat_add, BitVec.toNat_ofNat]
    omega
  have hglobal : m.getGlobalAddr (pc + BitVec.ofNat 16 k) .ram = m.getGlobalAddr pc .ram + k := by
    rw [Memory.getGlobalAddr, Memory.getGlobalAddr, Update.getGlobalAddr_ram,
      Update.getGlobalAddr_ram, haddr, h.window]
    omega
  rw [fetched, Memory.getByte, Memory.overlay, if_neg h.ram, hglobal, shown]

theorem ramAt_eq {ram : Ram} {globalAddr : Nat} (h : globalAddr < memoryGlobalLen) :
    ramAt ram globalAddr = some (ram.read globalAddr) := by
  rw [ramAt, dif_pos h, Ram.read, dif_pos h]

theorem printToBuffer_inside (cpu : CpuState) (display : DisplayUpdate)
    (h : m.getGlobalAddr cpu.pc.word .ram + 2 < memoryGlobalLen) :
    printToBuffer cpu m display = some (lineText cpu (m.getGlobalAddr cpu.pc.word .ram)
      (shown m cpu.pc.word 0) (shown m cpu.pc.word 1) (shown m cpu.pc.word 2) display) := by
  rw [printToBuffer, ramAt_eq (Nat.lt_of_le_of_lt (Nat.le_add_right _ 2) h),
    ramAt_eq (Nat.lt_of_succ_lt h), ramAt_eq h]
  rfl

theorem printToBuffer_outside (cpu : CpuState) (display : DisplayUpdate)
    (h : ¬m.getGlobalAddr cpu.pc.word .ram + 2 < memoryGlobalLen) :
    printToBuffer cpu m display = none := by
  have hlast : ramAt m.ram (m.getGlobalAddr cpu.pc.word .ram + 2) = none := dif_neg h
  rw [printToBuffer, hlast]
  cases ramAt m.ram (m.getGlobalAddr cpu.pc.word .ram) with
  | none => rfl
  | some opcode => cases ramAt m.ram (m.getGlobalAddr cpu.pc.word .ram + 1) <;> rfl

/-- The bytes of the instruction are right if those are that are not where the processor
looks. -/
theorem bytes_right_iff :
    bytesText (shown m pc 0) (shown m pc 1) (shown m pc 2) =
        bytesText (fetched m pc 0) (fetched m pc 1) (fetched m pc 2) ↔
      ∀ k < getInstrLen (shown m pc 0), ¬Direct m pc k → shown m pc k = fetched m pc k := by
  have hlen : 1 ≤ getInstrLen (shown m pc 0) ∧ getInstrLen (shown m pc 0) ≤ 3 := by
    have hmem := Executed.getInstrLen_mem (shown m pc 0)
    simp only [List.mem_cons, List.not_mem_nil, or_false] at hmem
    omega
  rw [bytesText_eq_iff]
  constructor
  · rintro ⟨hopcode, hlow, hhigh⟩ k hk -
    match k with
    | 0 => exact hopcode
    | 1 => exact hlow hk
    | 2 => exact hhigh hk
    | k + 3 => omega
  · intro h
    have hall : ∀ k < getInstrLen (shown m pc 0), shown m pc k = fetched m pc k := by
      intro k hk
      by_cases hdirect : Direct m pc k
      · exact hdirect.shown_eq
      · exact h k hk hdirect
    exact ⟨hall 0 hlen.1, hall 1, hall 2⟩

theorem saved_right_iff (cpu : CpuState) (m : Memory) (display : DisplayUpdate)
    (text : List Char) :
    (∃ line, LogFile.save cpu m display ⟨true, true, text⟩ = some ⟨true, true, text ++ line⟩ ∧
      Right m cpu.pc.word line) ↔
    m.getGlobalAddr cpu.pc.word .ram + 2 < memoryGlobalLen ∧
      bytesText (shown m cpu.pc.word 0) (shown m cpu.pc.word 1) (shown m cpu.pc.word 2) =
        bytesText (fetched m cpu.pc.word 0) (fetched m cpu.pc.word 1)
          (fetched m cpu.pc.word 2) := by
  have hsave : LogFile.save cpu m display ⟨true, true, text⟩ =
      (printToBuffer cpu m display).map fun line => ⟨true, true, text ++ line⟩ := rfl
  rw [hsave]
  by_cases hinside : m.getGlobalAddr cpu.pc.word .ram + 2 < memoryGlobalLen
  · rw [printToBuffer_inside cpu display hinside, Option.map_some]
    constructor
    · rintro ⟨line, hline, hright⟩
      have heq : _ = line :=
        List.append_cancel_left (congrArg LogFile.text (Option.some.inj hline))
      rw [← lineText_bytes cpu (m.getGlobalAddr cpu.pc.word .ram) _ _ _ display, heq]
      exact ⟨hinside, hright.bytes⟩
    · rintro ⟨-, hbytes⟩
      exact ⟨_, rfl, lineText_length _ _ _ _ _ _, (lineText_bytes _ _ _ _ _ _).trans hbytes⟩
  · rw [printToBuffer_outside cpu display hinside, Option.map_none]
    constructor
    · rintro ⟨line, hline, -⟩
      exact absurd hline.symm (Option.some_ne_none _)
    · rintro ⟨h, -⟩
      exact absurd h hinside

/-- Where the file gets a right line: the instruction is not at the end of global RAM, and its
bytes that are not where the processor looks are those it finds. -/
theorem save_right_iff (cpu : CpuState) (m : Memory) (display : DisplayUpdate)
    (text : List Char) :
    (∃ line, LogFile.save cpu m display ⟨true, true, text⟩ = some ⟨true, true, text ++ line⟩ ∧
      Right m cpu.pc.word line) ↔
    ¬AtEnd m cpu.pc.word ∧ ∀ k < getInstrLen (shown m cpu.pc.word 0), ¬Direct m cpu.pc.word k →
      shown m cpu.pc.word k = fetched m cpu.pc.word k := by
  rw [saved_right_iff, inside_iff, bytes_right_iff]

/-- At FFFF the operand of `MVI A` is taken from the first RAM disk. -/
theorem lastByte_not_right :
    ¬∀ (cpu : CpuState) (m : Memory) (display : DisplayUpdate) (text : List Char),
      ∃ line, LogFile.save cpu m display ⟨true, true, text⟩ = some ⟨true, true, text ++ line⟩ ∧
        Right m cpu.pc.word line := by
  intro h
  let m : Memory :=
    .ofRam fun i => if i.val = 0xFFFF then 0x3E else if i.val = 0x10000 then 1 else 0
  have hright := h { CpuState.reset with pc := .ofWord 0xFFFF } m .init []
  have hoperand := (bytesText_eq_iff.mp ((saved_right_iff _ _ _ _).mp hright).2).2.1 (by decide)
  exact absurd hoperand (by decide)

end DisasmLine

end V6Emul
