import V6Emul.Debugger.Collections
import V6Emul.Debugger.MemoryEdits
import V6Emul.Debugger.TraceLog
import V6Emul.Hardware.Lockstep
import V6Emul.Recorder.Format
import V6Emul.Requests.MemoryRequests

/-!
# The emulator of a server

The hardware and the debugger beside it, with what the execution thread keeps: the
status, the counters of the session and the record of the last stop.  The thread
executes instructions while it runs and handles requests in between; a request blocks
its client, so none waits while one is handled.
-/

namespace V6Emul

/-! ## Stops -/

inductive StopEvent where
  | pause
  | step
  | frameStep
  | exception
  | watchpoint (hit : WatchpointHit) (globalInstructionAddress : Nat)
  | breakpoint (address : Addr)
  | script (scriptId : Id)

structure StopTrigger where
  exceptionCode : Option String := none
  watchpointIds : Option (List Id) := none
  access : Option String := none
  accessedGlobalAddress : Option (BitVec 32) := none
  globalInstructionAddress : Option Nat := none
  observedValue : Option Byte := none
  newValue : Option Byte := none
  oldValue : Option Byte := none
  breakpointIds : Option (List Addr) := none
  breakpointAddress : Option Addr := none
  scriptId : Option Id := none
  description : Option String := none
  deriving DecidableEq

structure StopRecord where
  sequence : BitVec 64
  reason : String
  pc : Addr
  globalInstructionAddress : Nat
  trigger : StopTrigger
  deriving DecidableEq

/-- `std::format("{:04X}")` -/
def hex4 (address : Addr) : String :=
  String.ofList ((List.range 4).reverse.map fun digit =>
    "0123456789ABCDEF".toList.getD (address.toNat / 16 ^ digit % 16) '0')

namespace StopEvent

def reason : StopEvent → String
  | .pause => "pause"
  | .step => "step"
  | .frameStep => "frameStep"
  | .exception => "exception"
  | .watchpoint .. => "watchpoint"
  | .breakpoint _ => "breakpoint"
  | .script _ => "script"

def trigger : StopEvent → StopTrigger
  | .pause => {}
  | .step => {}
  | .frameStep => {}
  | .exception =>
      { exceptionCode := some "ram_disk_mapping_collision"
        description := some "More than one RAM Disk has mapping enabled" }
  | .watchpoint hit globalInstructionAddress =>
      let access := if hit.access = .r then "read" else "write"
      { watchpointIds := some hit.ids
        access := some access
        accessedGlobalAddress := some hit.globalAddr
        globalInstructionAddress := some globalInstructionAddress
        description := some ("Watchpoint matched a " ++ access)
        observedValue := if hit.access = .r then some hit.value else none
        newValue := if hit.access = .r then none else some hit.value
        oldValue := if hit.access = .r then none else hit.oldValue }
  | .breakpoint address =>
      { breakpointIds := some [address]
        breakpointAddress := some address
        description := some ("Breakpoint at 0x" ++ hex4 address) }
  | .script scriptId =>
      { scriptId := some scriptId
        description := some "Lua script requested a stop" }

end StopEvent

/-! ## States -/

inductive Status where
  | run
  | stop
  | exit
  deriving DecidableEq, Repr

structure Debugger (F : Type) where
  memoryEdits : MemoryEdits
  watchpoints : Watchpoints
  breakpoints : Breakpoints
  scripts : Scripts F
  traceLog : TraceLog
  recorder : Recorder

structure Emulator (δ F : Type) where
  hardware : Hardware δ
  debugger : Debugger F
  debugAttached : Bool
  status : Status
  sessionId : BitVec 64
  cycleOffset : BitVec 64
  frameOffset : BitVec 64
  sessionStartCycles : BitVec 64
  sessionStartFrames : BitVec 64
  runStartCycles : BitVec 64
  lastRunCycles : BitVec 64
  stopSequence : BitVec 64
  stopRecord : StopRecord

/-- What Lua does when the scripts are checked: an order of visits and the runs. -/
structure LuaCheck (F : Type) where
  rank : Id → Nat
  runs : Id → LuaRun F

/-! ## The debugger's hook -/

namespace Debugger

variable {F : Type}

def new (recordFrames : Nat) (enabled : Bool) : Debugger F where
  memoryEdits := ∅
  watchpoints := .new
  breakpoints := .new
  scripts := .new enabled
  traceLog := .new
  recorder := .new recordFrames

def checkRead (mem : Memory) (i : Fin 2) (w : Watchpoints) : Watchpoints :=
  if mem.debug.readLen ≤ i then w
  else w.check .r (BitVec.ofNat 32 (mem.debug.readGlobalAddr i)) (mem.debug.read i) none

def checkReads (mem : Memory) (w : Watchpoints) : Watchpoints :=
  checkRead mem 1 (checkRead mem 0 w)

def checkWrite (edits : MemoryEdits) (i : Fin 2) (s : Memory × Watchpoints) : Memory × Watchpoints :=
  let (mem, w) := s
  let globalAddr := mem.debug.writeGlobalAddr i
  if mem.debug.writeLen ≤ i then s
  else if edits.readOnly (BitVec.ofNat 32 globalAddr) then
    ({ mem with
        debug := { mem.debug with
          write := Function.update mem.debug.write i (mem.debug.beforeWrite i) }
        ram := mem.ram.write globalAddr (mem.debug.beforeWrite i) }, w)
  else
    (mem, w.check .w (BitVec.ofNat 32 globalAddr) (mem.debug.write i)
      (some (mem.debug.beforeWrite i)))

def checkWrites (edits : MemoryEdits) (s : Memory × Watchpoints) : Memory × Watchpoints :=
  checkWrite edits 1 (checkWrite edits 0 s)

end Debugger

namespace Emulator

variable {δ F : Type}

/-! ## Counters and records -/

def totalCycles (s : Emulator δ F) : BitVec 64 := s.cycleOffset + s.hardware.cpu.cc

def totalFrames (s : Emulator δ F) : BitVec 64 := s.frameOffset + s.hardware.display.update.frameNum

def setHardware (f : Hardware δ → Hardware δ) (s : Emulator δ F) : Emulator δ F :=
  { s with hardware := f s.hardware }

def setDebugger (f : Debugger F → Debugger F) (s : Emulator δ F) : Emulator δ F :=
  { s with debugger := f s.debugger }

def setTraceLog (f : TraceLog → TraceLog) (s : Emulator δ F) : Emulator δ F :=
  s.setDebugger fun d => { d with traceLog := f d.traceLog }

/-- `RecordStop`; the keys of the trigger replace those of the record. -/
def recordStop (event : StopEvent) (s : Emulator δ F) : Emulator δ F :=
  let sequence := s.stopSequence + 1
  let pc := s.hardware.cpu.pc.word
  { s with
    stopSequence := sequence
    stopRecord :=
      { sequence := sequence
        reason := event.reason
        pc := pc
        globalInstructionAddress :=
          event.trigger.globalInstructionAddress.getD (s.hardware.mem.getGlobalAddr pc .ram)
        trigger := event.trigger } }

def new (hardware : Hardware δ) (debugger : Debugger F) : Emulator δ F where
  hardware := hardware
  debugger := debugger
  debugAttached := false
  status := .stop
  sessionId := 1
  cycleOffset := 0
  frameOffset := 0
  sessionStartCycles := hardware.cpu.cc
  sessionStartFrames := hardware.display.update.frameNum
  runStartCycles := hardware.cpu.cc
  lastRunCycles := 0
  stopSequence := 0
  stopRecord :=
    { sequence := 0
      reason := "unknown"
      pc := hardware.cpu.pc.word
      globalInstructionAddress := hardware.mem.getGlobalAddr hardware.cpu.pc.word .ram
      trigger := {} }

def blank : Emulator Unit Int := new (.ofRam (fun _ => 0) ()) (.new 10 true)

def noLua : LuaCheck Int := ⟨fun _ => 0, fun _ => ⟨[], none, false⟩⟩

/-! ## Reset, run and stop -/

def saveCounters (s : Emulator δ F) : Emulator δ F :=
  { s with cycleOffset := s.totalCycles, frameOffset := s.totalFrames }

def reset (dev : Devices δ) (s : Emulator δ F) : Emulator δ F :=
  (s.saveCounters.setHardware (Hardware.reset dev)).setTraceLog .reset

def restart (dev : Devices δ) (s : Emulator δ F) : Emulator δ F :=
  (s.saveCounters.setHardware (Hardware.restart dev)).setTraceLog .reset

def run (s : Emulator δ F) : Emulator δ F :=
  { s with
    runStartCycles := if s.status = Status.run then s.runStartCycles else s.totalCycles
    status := .run }

/-- `Stop(false)` -/
def halt (s : Emulator δ F) : Emulator δ F :=
  { s with
    lastRunCycles := if s.status = Status.run then s.totalCycles - s.runStartCycles else s.lastRunCycles
    status := .stop }.setTraceLog .invalidateFilter

def stop (s : Emulator δ F) : Emulator δ F := s.halt.recordStop .pause

def stopForScript (scriptId : Id) (s : Emulator δ F) : Emulator δ F :=
  s.halt.recordStop (.script scriptId)

def beginSession (s : Emulator δ F) : Emulator δ F :=
  { s with
    sessionId := s.sessionId + 1
    sessionStartCycles := s.totalCycles
    sessionStartFrames := s.totalFrames
    runStartCycles := s.totalCycles
    lastRunCycles := 0 }.setDebugger
      fun d => { d with scripts := d.scripts.markAllOverlaysUpdated }

/-! ## One instruction -/

section Instruction

variable [BEq F] [Zero F]

/-- `Recorder::Update`, which copies the picture when it goes on from a played frame. -/
def record (s : Emulator δ F) : Emulator δ F :=
  let resumes := !s.debugger.recorder.lastRecord
  (s.setDebugger fun d => { d with recorder := d.recorder.update s.hardware.machine }).setHardware
    fun h => { h with display := { h.display with
      backBuffer := if resumes then h.display.frameBuffer else h.display.backBuffer } }

def checkAccesses (s : Emulator δ F) : Memory × Watchpoints :=
  Debugger.checkWrites s.debugger.memoryEdits
    (s.hardware.mem, Debugger.checkReads s.hardware.mem s.debugger.watchpoints)

def checkBreaks (lua : LuaCheck F) (s : Emulator δ F) : Option StopEvent × Emulator δ F :=
  let d := s.debugger
  let (mem, watchpoints) := s.checkAccesses
  let (scriptBreak, scripts) := d.scripts.check (d.scripts.visited lua.rank) lua.runs
  let (watchpointBreak, checked) := watchpoints.checkBreak
  let (breakpointBreak, breakpoints) := d.breakpoints.check s.hardware.cpu mem.update
  let event : Option StopEvent :=
    match watchpointBreak, watchpoints.hit with
    | true, some hit => some (.watchpoint hit mem.debug.instrGlobalAddr)
    | _, _ =>
        if breakpointBreak then some (.breakpoint s.hardware.cpu.pc.word)
        else if scriptBreak || watchpointBreak then some (.script scripts.breakScriptId)
        else none
  (event,
    { s with
      hardware := s.hardware.setMem mem
      debugger := { d with
        watchpoints := checked
        breakpoints := breakpoints
        scripts := scripts } })

def debug (lua : LuaCheck F) (s : Emulator δ F) : Bool × Emulator δ F :=
  let checked := s.checkBreaks lua
  let s := match checked.1 with
    | none => checked.2
    | some event => checked.2.recordStop event
  let s := s.setTraceLog fun t => t.update s.hardware.cpu.pc s.hardware.mem.debug
  (checked.1.isSome, s.record)

def checkException (s : Emulator δ F) : Bool × Emulator δ F :=
  let checked := s.hardware.checkMapping
  let s := { s with hardware := checked.2 }
  if checked.1 then (true, s.recordStop .exception) else (false, s)

def hook (lua : LuaCheck F) (s : Emulator δ F) : Bool × Emulator δ F :=
  if s.debugAttached then s.debug lua else (false, s)

def executeInstruction (dev : Devices δ) (lua : LuaCheck F) (s : Emulator δ F) :
    Option (Bool × Emulator δ F) :=
  (s.hardware.executeCycles dev).map fun hardware =>
    let hooked := { s with hardware := hardware }.hook lua
    if hooked.1 then (true, hooked.2) else hooked.2.checkException

def executeRunning (dev : Devices δ) (lua : LuaCheck F) (s : Emulator δ F) :
    Option (Emulator δ F) :=
  if s.status = Status.run then
    (s.executeInstruction dev lua).map fun r => if r.1 then r.2.halt else r.2
  else none

/-- `ExecuteFrameNoBreaks`; `none` when `fuel` instructions were not enough. -/
def executeFrameLoop (dev : Devices δ) (lua : Nat → LuaCheck F) (frameNum : BitVec 64) :
    Nat → Emulator δ F → Option (Emulator δ F)
  | 0, _ => none
  | fuel + 1, s => (s.executeInstruction dev (lua fuel)).bind fun r =>
      if r.2.hardware.display.update.frameNum = frameNum then
        executeFrameLoop dev lua frameNum fuel r.2
      else some r.2

def executeFrameNoBreaks (dev : Devices δ) (fuel : Nat) (lua : Nat → LuaCheck F)
    (s : Emulator δ F) : Option (Emulator δ F) :=
  executeFrameLoop dev lua s.hardware.display.update.frameNum fuel s

end Instruction

/-! ## Requests -/

inductive KeyOperation where
  | none
  | reset
  | restart
  deriving DecidableEq

inductive MemoryEditOp where
  | add (input : MemoryEditInput)
  | del (globalAddr : BitVec 32)
  | delAll
  | restore (globalAddr : BitVec 32)

inductive Req (δ F : Type) where
  | internalBeginSession
  | run
  | stop
  | exit
  | reset
  | restart
  | executeInstr (lua : LuaCheck F)
  | executeFrame (lua : Nat → LuaCheck F)
  | executeFrameNoBreaks (lua : Nat → LuaCheck F)
  | runHeadless (limits : Hardware.HeadlessLimits)
  | host (req : Hardware.HostReq δ)
  /-- what the keyboard answers, and the devices after the key -/
  | keyHandling (op : KeyOperation) (devices : δ)
  | loadRom (data : List Byte) (addr : Addr) (autorun : Bool)
  /-- the devices with the disk in its drive -/
  | mountFdd (devices : δ) (autoBoot : Bool)
  | debugAttach (attached : Bool)
  | debugReset (resetRecorder : Bool)
  | recorderReset
  | recorderPlayForward (frames : Int)
  | recorderPlayReverse (frames : Int)
  | recorderDeserialize (data : List Byte)
  | breakpoints (op : BreakpointOp)
  | watchpoints (op : WatchpointOp)
  | memoryEdits (op : MemoryEditOp)
  | scripts (op : ScriptOp F)
  | scriptRunOnce (scriptId : Id) (run : LuaRun F)
  | traceLogFilter (texts : TraceTexts) (addressPattern instructionPattern : String)
  /-- a request that only reads, or that fails before it changes anything -/
  | query

def play (result : Recorder × Machine) (s : Emulator δ F) : Emulator δ F :=
  { s with
    hardware := (s.hardware.setMachine result.2).redraw
    debugger := { s.debugger with recorder := result.1 } }

def deserialize (data : List Byte) (s : Emulator δ F) : Option (Emulator δ F) :=
  (s.debugger.recorder.deserialize data s.hardware.machine).map fun result =>
    if result.1.version &&& Recorder.versionMask = Recorder.formatVersion then s.play result
    else s.setDebugger fun d => { d with recorder := result.1 }

def resetRecorder (s : Emulator δ F) : Emulator δ F :=
  s.setDebugger fun d => { d with recorder := d.recorder.reset s.hardware.machine }

def setRam (ram : Ram) (s : Emulator δ F) : Emulator δ F :=
  s.setHardware fun h => h.setMem { h.mem with ram := ram }

def setDevices (devices : δ) (s : Emulator δ F) : Emulator δ F :=
  s.setHardware fun h => h.setIo { h.io with devices := devices }

def loadRom (dev : Devices δ) (data : List Byte) (addr : Addr) (autorun : Bool)
    (s : Emulator δ F) : Option (Emulator δ F) :=
  if addr.toNat + data.length ≤ memoryGlobalLen then
    let s := s.stop
    let s := s.setRam (s.hardware.mem.ram.copy addr.toNat data)
    let s := s.restart dev
    let s := s.setRam (s.debugger.memoryEdits.reapply s.hardware.mem.ram)
    some (if autorun then s.run else s)
  else none

def setEdits (edits : MemoryEdits) (s : Emulator δ F) : Emulator δ F :=
  s.setDebugger fun d => { d with memoryEdits := edits }

def editMemory (op : MemoryEditOp) (s : Emulator δ F) : Emulator δ F :=
  let edits := s.debugger.memoryEdits
  let ram := s.hardware.mem.ram
  match op with
  | .add input =>
      match edits.add input ram with
      | .error _ => s
      | .ok (edits, ram) => (s.setRam ram).setEdits edits
  | .del globalAddr => s.setEdits (edits.erase globalAddr)
  | .delAll => s.setEdits ∅
  | .restore globalAddr =>
      match edits.restore globalAddr ram with
      | .error _ => s
      | .ok (edits, ram) => (s.setRam ram).setEdits edits

section Requests

variable [BEq F] [Zero F]

/-- A script that is run once stops the emulator when it asks for a break. -/
def scriptRunOnce (scriptId : Id) (run : LuaRun F) (s : Emulator δ F) : Emulator δ F :=
  let (result, scripts) := s.debugger.scripts.runOnce scriptId run
  let s := s.setDebugger fun d => { d with scripts := scripts }
  match result with
  | .error _ => s
  | .ok result => if result.breakRequested then s.stopForScript scriptId else s

/-- `ReqHandling`: `none` where it does not return within `fuel` instructions, or where the
source is undefined. -/
def handle (dev : Devices δ) (fuel : Nat) (s : Emulator δ F) : Req δ F → Option (Emulator δ F)
  | .internalBeginSession => some s.beginSession
  | .run => some s.run
  | .stop => some s.stop
  | .exit => some { s with status := .exit }
  | .reset => some (s.reset dev)
  | .restart => some (s.restart dev)
  | .executeInstr lua =>
      (s.executeInstruction dev lua).map fun r => if r.1 then r.2 else r.2.recordStop .step
  | .executeFrame lua => (s.executeFrameNoBreaks dev fuel lua).map (recordStop .frameStep)
  | .executeFrameNoBreaks lua => (s.executeFrameNoBreaks dev fuel lua).map (recordStop .frameStep)
  | .runHeadless limits =>
      (s.hardware.runHeadless dev limits fuel).map fun r => { s with hardware := r.2 }
  | .host req =>
      match req with
      -- the palette cannot be changed while the machine runs
      | .setIoPaletteEntry .. =>
          some (if s.status = Status.run then s else s.setHardware fun h => h.handle req)
      | _ => some (s.setHardware fun h => h.handle req)
  | .keyHandling op devices =>
      let s := s.setDevices devices
      match op with
      | .none => some s
      | .reset => some (s.reset dev)
      | .restart => some (s.restart dev)
  | .loadRom data addr autorun => s.loadRom dev data addr autorun
  | .mountFdd devices autoBoot =>
      let s := s.setDevices devices
      some (if autoBoot then (s.reset dev).run else s)
  | .debugAttach attached => some { s with debugAttached := attached }
  | .debugReset resetRecorder =>
      let s := s.setTraceLog .reset
      some (if resetRecorder then s.resetRecorder else s)
  | .recorderReset => some s.resetRecorder
  | .recorderPlayForward frames =>
      let s := s.setTraceLog .reset
      some (s.play (s.debugger.recorder.playForward frames s.hardware.machine))
  | .recorderPlayReverse frames =>
      let s := s.setTraceLog .reset
      some (s.play (s.debugger.recorder.playReverse frames s.hardware.machine))
  | .recorderDeserialize data => s.deserialize data
  | .breakpoints op =>
      some (s.setDebugger fun d => { d with breakpoints := (d.breakpoints.apply op).2 })
  | .watchpoints op =>
      some (s.setDebugger fun d => { d with watchpoints := (d.watchpoints.apply op).2 })
  | .memoryEdits op => some (s.editMemory op)
  | .scripts op =>
      some (s.setDebugger fun d => { d with scripts := (d.scripts.apply op).2 })
  | .scriptRunOnce scriptId run => some (s.scriptRunOnce scriptId run)
  | .traceLogFilter texts addressPattern instructionPattern =>
      if s.status = Status.run then some s
      else some (s.setTraceLog fun t => t.createFilter texts addressPattern instructionPattern)
  | .query => some s

inductive Input (δ F : Type) where
  | instruction (lua : LuaCheck F)
  | request (req : Req δ F)

/-- A step of the execution thread; it executes no instruction unless it runs. -/
def step (dev : Devices δ) (fuel : Nat) (s : Emulator δ F) : Input δ F → Option (Emulator δ F)
  | .instruction lua => s.executeRunning dev lua
  | .request req => s.handle dev fuel req

end Requests

/-! ## Queries -/

def maxSafeInteger : BitVec 64 := 9007199254740991

structure HardwareStats where
  sessionId : BitVec 64
  uptimeMs : BitVec 64
  cpuCycles : BitVec 64
  lastRunCycles : BitVec 64
  frameNumber : BitVec 64
  deriving DecidableEq

def safeCounter (value : BitVec 64) : Except String (BitVec 64) :=
  if maxSafeInteger < value then .error "hardware statistics require a bigint schema"
  else .ok value

def getHardwareStats (uptimeMs : BitVec 64) (s : Emulator δ F) : Except String HardwareStats := do
  let sessionId ← safeCounter s.sessionId
  let uptimeMs ← safeCounter uptimeMs
  let cpuCycles ← safeCounter (s.totalCycles - s.sessionStartCycles)
  let lastRunCycles ← safeCounter s.lastRunCycles
  let frameNumber ← safeCounter (s.totalFrames - s.sessionStartFrames)
  return ⟨sessionId, uptimeMs, cpuCycles, lastRunCycles, frameNumber⟩

def queryWhileRunning : String := "trace-log queries require stopped hardware"

def historyCaller (query : CallerQuery) (s : Emulator δ F) : Except String CallerResult :=
  if s.status = Status.run then .error queryWhileRunning
  else s.debugger.traceLog.findCaller query s.hardware.cpu.pc.word

def historySuccessor (generation : BitVec 64) (cursor : Nat) (s : Emulator δ F) :
    Except String Addr :=
  if s.status = Status.run then .error queryWhileRunning
  else s.debugger.traceLog.callerSuccessor generation cursor

end Emulator

end V6Emul
