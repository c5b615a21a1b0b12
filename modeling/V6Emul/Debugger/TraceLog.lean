import V6Emul.Foundation.Ring
import V6Emul.Cpu.Instr
import V6Emul.Debugger.GlobMatches

/-!
# The trace log

`TraceLog` keeps the executed instructions in a circular buffer that is filled from
its end to its start, so that the newest record is the one at `m_logIdx`.  A reset
moves the index to slot 0 and marks that slot as empty; all other slots, and the
instruction in slot 0, are left as they were.
-/

namespace V6Emul

/-! ## Instructions -/

def opcodeHlt : Byte := 0x76#8
def opcodePchl : Byte := 0xE9#8

def instrLens : List Nat :=
  [1,3,1,1,1,1,2,1,1,1,1,1,1,1,2,1,
   1,3,1,1,1,1,2,1,1,1,1,1,1,1,2,1,
   1,3,3,1,1,1,2,1,1,1,3,1,1,1,2,1,
   1,3,3,1,1,1,2,1,1,1,3,1,1,1,2,1,
   1,1,1,1,1,1,1,1,1,1,1,1,1,1,1,1,
   1,1,1,1,1,1,1,1,1,1,1,1,1,1,1,1,
   1,1,1,1,1,1,1,1,1,1,1,1,1,1,1,1,
   1,1,1,1,1,1,1,1,1,1,1,1,1,1,1,1,
   1,1,1,1,1,1,1,1,1,1,1,1,1,1,1,1,
   1,1,1,1,1,1,1,1,1,1,1,1,1,1,1,1,
   1,1,1,1,1,1,1,1,1,1,1,1,1,1,1,1,
   1,1,1,1,1,1,1,1,1,1,1,1,1,1,1,1,
   1,1,3,3,3,1,2,1,1,1,3,1,3,3,2,1,
   1,1,3,2,3,1,2,1,1,1,3,2,3,1,2,1,
   1,1,3,1,3,1,2,1,1,1,3,1,3,1,2,1,
   1,1,3,1,3,1,2,1,1,1,3,1,3,1,2,1]

def getInstrLen (opcode : Byte) : Nat := instrLens.getD opcode.toNat 0

/-! ## Records -/

def traceLogSize : Nat := 300000

theorem traceLogSize_pos : 0 < traceLogSize := Nat.succ_pos _

def emptyItem : Int := -1

structure TraceItem where
  globalAddr : Int
  opcode : Byte
  dataL : Byte
  dataH : Byte
  deriving DecidableEq

namespace TraceItem

def new : TraceItem := ⟨emptyItem, 0, 0, 0⟩

/-- `static_cast<uint16_t>(globalAddr)` -/
def address (item : TraceItem) : Addr := BitVec.ofInt 16 item.globalAddr

def bytes (item : TraceItem) : List Byte :=
  [item.opcode] ++ (if 1 < getInstrLen item.opcode then [item.dataL] else []) ++
    (if 2 < getInstrLen item.opcode then [item.dataH] else [])

end TraceItem

structure QueryEntry where
  address : Addr
  bytes : List Byte
  instruction : String
  deriving DecidableEq

structure TraceTexts where
  address : Addr → String
  instruction : TraceItem → String

def makeQueryEntry (texts : TraceTexts) (item : TraceItem) : QueryEntry where
  address := item.address
  bytes := item.bytes
  instruction := texts.instruction item

structure TraceLog where
  log : Nat → TraceItem
  logIdx : Nat
  filteredEntries : List QueryEntry
  filterGeneration : BitVec 64
  activeFilterId : BitVec 64
  historyGeneration : BitVec 64
  historyCount : Nat

structure CallerQuery where
  rangeStart : BitVec 32
  rangeEnd : BitVec 32
  continues : Option (BitVec 64 × Nat)

inductive CallerResult where
  | found (historyGeneration : BitVec 64) (callerPc entrancePc : Addr) (callerCursor : Nat)
  | historyEnd (historyGeneration : BitVec 64)
  deriving DecidableEq

namespace TraceLog

def new : TraceLog where
  log := fun _ => .new
  logIdx := 0
  filteredEntries := []
  filterGeneration := 0
  activeFilterId := 0
  historyGeneration := 1
  historyCount := 0

/-! ## Recording -/

def invalidateFilter (t : TraceLog) : TraceLog :=
  { t with
    activeFilterId := 0
    filteredEntries := []
    filterGeneration := t.filterGeneration + 1 }

/-- The record of an instruction; that of `PCHL` has the new program counter for data. -/
def itemOf (pc : RegPair) (debug : Debug) : TraceItem where
  globalAddr := debug.instrGlobalAddr
  opcode := debug.instr 0
  dataL := if debug.instr 0 = opcodePchl then pc.l else debug.instr 1
  dataH := if debug.instr 0 = opcodePchl then pc.h else debug.instr 2

def updateLogBuffer (t : TraceLog) (pc : RegPair) (debug : Debug) : TraceLog :=
  -- repeated HLT
  if debug.instr 0 = opcodeHlt ∧ (t.log t.logIdx).opcode = opcodeHlt then t
  else
    let logIdx := (t.logIdx + traceLogSize - 1) % traceLogSize
    { t with
      logIdx := logIdx
      historyCount := min (t.historyCount + 1) traceLogSize
      historyGeneration := t.historyGeneration + 1
      log := Function.update t.log logIdx (itemOf pc debug) }

def update (t : TraceLog) (pc : RegPair) (debug : Debug) : TraceLog :=
  t.invalidateFilter.updateLogBuffer pc debug

def reset (t : TraceLog) : TraceLog :=
  { t with
    historyCount := 0
    historyGeneration := t.historyGeneration + 1
    logIdx := 0
    log := Function.update t.log 0 { t.log 0 with globalAddr := emptyItem } }.invalidateFilter

/-! ## Queries -/

def itemAt (t : TraceLog) (cursor : Nat) : TraceItem :=
  t.log ((t.logIdx + cursor) % traceLogSize)

def scanCaller (t : TraceLog) (rangeStart rangeEnd : BitVec 32) :
    Nat → Nat → Addr → CallerResult
  | 0, _, _ => .historyEnd t.historyGeneration
  | n + 1, cursor, destination =>
      let pc := (t.itemAt cursor).address
      if pc.toNat < rangeStart.toNat ∨ rangeEnd.toNat ≤ pc.toNat then
        .found t.historyGeneration pc destination cursor
      else t.scanCaller rangeStart rangeEnd n (cursor + 1) pc

def findCaller (t : TraceLog) (query : CallerQuery) (livePc : Addr) :
    Except String CallerResult :=
  if query.rangeEnd.toNat ≤ query.rangeStart.toNat ∨ 0x10000 < query.rangeEnd.toNat then
    .error "invalid history range"
  else
    match query.continues with
    | none => .ok (t.scanCaller query.rangeStart query.rangeEnd t.historyCount 0 livePc)
    | some (generation, cursor) =>
        if generation ≠ t.historyGeneration then .error "stale history generation"
        else if t.historyCount ≤ cursor then .error "invalid history cursor"
        else
          .ok (t.scanCaller query.rangeStart query.rangeEnd (t.historyCount - (cursor + 1))
            (cursor + 1) (t.itemAt cursor).address)

def callerSuccessor (t : TraceLog) (generation : BitVec 64) (cursor : Nat) :
    Except String Addr :=
  if generation ≠ t.historyGeneration then .error "stale history generation"
  else if t.historyCount ≤ cursor then .error "invalid history cursor"
  else
    let item := t.itemAt cursor
    .ok (BitVec.ofInt 16 (item.globalAddr + getInstrLen item.opcode))

def scanLog (t : TraceLog) : Nat → Nat → List TraceItem
  | 0, _ => []
  | n + 1, index =>
      let item := t.log (index % traceLogSize)
      if item.globalAddr = emptyItem then [] else item :: t.scanLog n (index + 1)

def createFilter (t : TraceLog) (texts : TraceTexts) (addressPattern instructionPattern : String) :
    TraceLog :=
  let t := t.invalidateFilter
  let entries := (t.scanLog traceLogSize t.logIdx).map (makeQueryEntry texts)
  { t with
    filteredEntries := entries.filter fun entry =>
      (addressPattern.isEmpty ||
          globMatches (stringBytes addressPattern) (stringBytes (texts.address entry.address))) &&
        (instructionPattern.isEmpty ||
          globMatches (stringBytes instructionPattern) (stringBytes entry.instruction))
    filterGeneration := t.filterGeneration + 1
    activeFilterId := t.filterGeneration + 1 }

def getFilterWindow (t : TraceLog) (filterId : BitVec 64) (start lines : Nat) :
    Except String (List QueryEntry) :=
  if filterId ≠ t.activeFilterId ∨ t.activeFilterId = 0 then
    .error "unknown or expired trace-log filterId"
  else if t.filteredEntries.length < start then
    .error "trace-log window start is outside the filtered result"
  else .ok ((t.filteredEntries.drop start).take lines)

end TraceLog

end V6Emul
