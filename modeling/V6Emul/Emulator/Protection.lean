import V6Emul.Emulator.Counters
import V6Emul.Emulator.Parked
import V6Emul.Hardware.Stores

/-!
# Read-only bytes

Once the processor has stored over a read-only byte, the hook puts the old byte back.  It
looks at the stores in the debug record.  The record of `XTHL` leaves out the first of its
two stores, and `RUN_HEADLESS` does not call the hook; every other store is checked.
-/

namespace V6Emul

variable {δ F : Type}

/-! ## The hook -/

def MemoryEdits.protects (edits : MemoryEdits) (a : Nat) : Bool :=
  edits.readOnly (BitVec.ofNat 32 a)

namespace Debugger

theorem checkWrite_frame (edits : MemoryEdits) (i : Fin 2) (mem : Memory) (w : Watchpoints) :
    (checkWrite edits i (mem, w)).1.ram = (if mem.debug.writeLen ≤ i then mem.ram
      else Ram.cells.putBack edits.protects mem.ram [mem.debug.entry i]) ∧
    (checkWrite edits i (mem, w)).1.debug.writeLen = mem.debug.writeLen ∧
    (checkWrite edits i (mem, w)).1.debug.writeGlobalAddr = mem.debug.writeGlobalAddr ∧
    (checkWrite edits i (mem, w)).1.debug.beforeWrite = mem.debug.beforeWrite := by
  simp only [checkWrite]
  split
  · exact ⟨rfl, rfl, rfl, rfl⟩
  · split
    · rename_i hreadOnly
      exact ⟨(if_pos hreadOnly).symm, rfl, rfl, rfl⟩
    · rename_i hreadOnly
      exact ⟨(if_neg hreadOnly).symm, rfl, rfl, rfl⟩

theorem putBack_entry {p : Nat → Bool} {d d' : Debug} {i : Fin 2}
    (haddr : d'.writeGlobalAddr = d.writeGlobalAddr) (hbefore : d'.beforeWrite = d.beforeWrite)
    (ram : Ram) : Ram.cells.putBack p ram [d'.entry i] = Ram.cells.putBack p ram [d.entry i] := by
  have hentry : (d'.entry i).addr = (d.entry i).addr ∧ (d'.entry i).before = (d.entry i).before :=
    ⟨congrFun haddr i, congrFun hbefore i⟩
  rw [UndoLog.Cells.putBack, UndoLog.Cells.putBack, hentry.1, hentry.2]
  rfl

theorem ram_checkWrites (edits : MemoryEdits) (mem : Memory) (w : Watchpoints) :
    (checkWrites edits (mem, w)).1.ram =
      Ram.cells.putBack edits.protects mem.ram mem.debug.entries := by
  obtain ⟨hram, hlen, haddr, hbefore⟩ := checkWrite_frame edits 0 mem w
  rw [checkWrites]
  generalize checkWrite edits 0 (mem, w) = first at hram hlen haddr hbefore ⊢
  obtain ⟨mem', w'⟩ := first
  have hsecond := (checkWrite_frame edits 1 mem' w').1
  rw [hsecond, hlen, putBack_entry haddr hbefore, hram, Debug.entries]
  rcases mem.debug.writeLen with _ | _ | n
  · rfl
  · rfl
  · have hfirst : ¬ n + 1 + 1 ≤ ((0 : Fin 2) : Nat) := Nat.not_succ_le_zero _
    have hsecond : ¬ n + 1 + 1 ≤ ((1 : Fin 2) : Nat) :=
      fun hle => Nat.not_succ_le_zero _ (Nat.succ_le_succ_iff.mp hle)
    rw [if_neg hfirst, if_neg hsecond, List.take_of_length_le (Nat.le_add_left 2 n)]
    rfl

end Debugger

namespace Emulator

/-! ## One instruction -/

def storedRam (s t : Emulator δ F) : Ram :=
  Ram.cells.redo s.hardware.mem.ram (t.hardware.stores.drop s.hardware.stores.length)

/-- Read-only bytes are as they were, and all others as the processor has stored them. -/
def Protects (s t : Emulator δ F) : Prop :=
  ∀ globalAddr : BitVec 32, t.hardware.mem.ram.read globalAddr.toNat =
    if s.debugger.memoryEdits.readOnly globalAddr then s.hardware.mem.ram.read globalAddr.toNat
    else (storedRam s t).read globalAddr.toNat

def unchecked (dev : Devices δ) (headless : Bool) (s : Emulator δ F) : Nat :=
  if headless then (s.hardware.storeTargets dev).length
  else if s.hardware.toSys.nextOpcode (s.hardware.irqLine dev) = Sys.opcodeXthl then 1 else 0

def Spared (dev : Devices δ) (headless : Bool) (s : Emulator δ F) : Prop :=
  ∀ a ∈ (s.hardware.storeTargets dev).take (s.unchecked dev headless),
    s.debugger.memoryEdits.protects a = false

theorem protects_of_putBack {dev : Devices δ} {s t : Emulator δ F} {hardware : Hardware δ}
    {log : List Store} {k : Nat}
    (hstored : Sys.Stored (s.hardware.toSys.nextOpcode (s.hardware.irqLine dev)) s.hardware.toSys
      (s.hardware.storeTargets dev) hardware.toSys log)
    (hspared : ∀ a ∈ (s.hardware.storeTargets dev).take k,
      s.debugger.memoryEdits.protects a = false)
    (hstores : t.hardware.stores = hardware.stores)
    (hram : t.hardware.mem.ram =
      Ram.cells.putBack s.debugger.memoryEdits.protects hardware.mem.ram (log.drop k)) :
    Protects s t := by
  intro globalAddr
  have hsplit : hardware.stores = s.hardware.stores ++ log := hstored.stores
  have hredone : Ram.cells.redo s.hardware.mem.ram log = hardware.mem.ram := hstored.redo
  have hlog : storedRam s t = Ram.cells.redo s.hardware.mem.ram log := by
    rw [storedRam, hstores, hsplit, List.drop_left]
  have hnodup : (log.map UndoLog.Entry.addr).Nodup := by
    rw [hstored.addrs]
    exact s.hardware.nodup_storeTargets dev
  have hinside : ∀ e ∈ log, e.addr < memoryGlobalLen := by
    intro e he
    have htarget : e.addr ∈ s.hardware.storeTargets dev := by
      rw [← hstored.addrs]
      exact List.mem_map_of_mem he
    exact Hardware.storeTargets_lt htarget
  rw [← hstored.addrs] at hspared
  have hself : ∀ (ram : Ram) (a : Nat) (v : Byte), a < memoryGlobalLen →
      Ram.cells.read (Ram.cells.write ram a v) a = v :=
    fun ram a v ha => Ram.read_write_self ram v ha
  have hother : ∀ (ram : Ram) (a b : Nat) (v : Byte), a ≠ b →
      Ram.cells.read (Ram.cells.write ram a v) b = Ram.cells.read ram b :=
    fun ram _ _ v hne => Ram.read_write_ne ram v hne.symm
  have hread := UndoLog.Cells.read_putBack_drop hself hother hstored.recorded hnodup hinside
    hspared globalAddr.toNat
  rw [hredone] at hread
  rw [hram, hlog, hredone]
  have hkey : s.debugger.memoryEdits.protects globalAddr.toNat =
      s.debugger.memoryEdits.readOnly globalAddr := by
    rw [MemoryEdits.protects, BitVec.ofNat_toNat, BitVec.setWidth_eq]
  rw [hkey] at hread
  exact hread

theorem headless_protects {dev : Devices δ} {s : Emulator δ F} {hardware : Hardware δ}
    (hparked : s.hardware.Parked) (hspared : s.Spared dev true)
    (hcycles : s.hardware.executeCycles dev = some hardware) :
    Protects s { s with hardware := hardware } := by
  obtain ⟨log, hstored⟩ := Hardware.stored_executeCycles hparked hcycles
  refine protects_of_putBack hstored hspared rfl ?_
  have hlen : (s.hardware.storeTargets dev).length = log.length := by
    rw [← hstored.addrs, List.length_map]
  rw [unchecked, if_pos rfl, hlen, List.drop_length]
  rfl

theorem checkException_ram (s : Emulator δ F) :
    s.checkException.2.hardware.mem.ram = s.hardware.mem.ram ∧
      s.checkException.2.hardware.stores = s.hardware.stores := by
  by_cases hcollision : 1 < s.hardware.mem.mappingsEnabled
  · simp [checkException, Hardware.checkMapping, Memory.isException, hcollision, recordStop,
      Hardware.setMem, Memory.initRamDiskMapping]
  · simp [checkException, Hardware.checkMapping, Memory.isException, hcollision, Hardware.setMem]

variable [BEq F] [Zero F]

theorem debug_ram (lua : LuaCheck F) (s : Emulator δ F) :
    (s.debug lua).2.hardware.mem.ram = Ram.cells.putBack s.debugger.memoryEdits.protects
        s.hardware.mem.ram s.hardware.mem.debug.entries ∧
      (s.debug lua).2.hardware.stores = s.hardware.stores := by
  refine ⟨?_, ?_⟩
  · rw [(debug_frame lua s).2.1]
    exact Debugger.ram_checkWrites _ _ _
  · cases hevent : (s.checkBreaks lua).1 with
    | none =>
        rw [debug_none hevent]
        rfl
    | some e =>
        rw [debug_some hevent]
        rfl

theorem executeInstruction_protects {dev : Devices δ} {lua : LuaCheck F} {s t : Emulator δ F}
    {broke : Bool} (hparked : s.hardware.Parked) (hattached : s.debugAttached = true)
    (hspared : s.Spared dev false) (hrun : s.executeInstruction dev lua = some (broke, t)) :
    Protects s t := by
  rw [executeInstruction, Option.map_eq_some_iff] at hrun
  obtain ⟨hardware, hcycles, hrun⟩ := hrun
  obtain ⟨log, hstored⟩ := Hardware.stored_executeCycles hparked hcycles
  have hhook : hook lua { s with hardware := hardware } =
      debug lua { s with hardware := hardware } := if_pos hattached
  obtain ⟨hram, hstores⟩ := debug_ram lua { s with hardware := hardware }
  have hfiled : hardware.mem.debug.entries = log.drop (s.unchecked dev false) := hstored.filed
  rw [hfiled] at hram
  dsimp only at hrun
  rw [hhook] at hrun
  split at hrun
  · cases hrun
    exact protects_of_putBack hstored hspared hstores hram
  · have hchecked := checkException_ram (debug lua { s with hardware := hardware }).2
    rw [hrun] at hchecked
    exact protects_of_putBack hstored hspared (hchecked.2.trans hstores) (hchecked.1.trans hram)

/-! ## The instructions of a command -/

structure Ran (δ F : Type) where
  headless : Bool
  before : Emulator δ F
  after : Emulator δ F

def ranInstruction (dev : Devices δ) (lua : LuaCheck F) (s : Emulator δ F) : List (Ran δ F) :=
  (s.executeInstruction dev lua).toList.map fun r => ⟨false, s, r.2⟩

def ranFrame (dev : Devices δ) (lua : Nat → LuaCheck F) (frameNum : BitVec 64) :
    Nat → Emulator δ F → List (Ran δ F)
  | 0, _ => []
  | fuel + 1, s =>
      (s.executeInstruction dev (lua fuel)).elim [] fun r => ⟨false, s, r.2⟩ ::
        if r.2.hardware.display.update.frameNum = frameNum then ranFrame dev lua frameNum fuel r.2
        else []

omit [BEq F] [Zero F] in
/-- Those of a headless run, also of one that `fuel` was not enough for. -/
def ranHeadless (dev : Devices δ) (limits : Hardware.HeadlessLimits)
    (startCC startFrame : BitVec 64) : Nat → Emulator δ F → List (Ran δ F)
  | 0, _ => []
  | fuel + 1, s =>
      (s.hardware.executeCycles dev).elim [] fun hardware =>
        ⟨true, s, { s with hardware := hardware }⟩ ::
          if hardware.headlessDone limits startCC startFrame then []
          else ranHeadless dev limits startCC startFrame fuel { s with hardware := hardware }

def ran (dev : Devices δ) (fuel : Nat) (s : Emulator δ F) : Input δ F → List (Ran δ F)
  | .instruction lua => if s.status = Status.run then s.ranInstruction dev lua else []
  | .request (.executeInstr lua) => s.ranInstruction dev lua
  | .request (.executeFrame lua) =>
      ranFrame dev lua s.hardware.display.update.frameNum fuel s
  | .request (.executeFrameNoBreaks lua) =>
      ranFrame dev lua s.hardware.display.update.frameNum fuel s
  | .request (.runHeadless limits) =>
      ranHeadless dev limits s.hardware.cpu.cc s.hardware.display.update.frameNum fuel s
  | _ => []

def Ran.Executes (dev : Devices δ) (x : Ran δ F) : Prop :=
  if x.headless then ∃ hardware, x.before.hardware.executeCycles dev = some hardware ∧
    x.after = { x.before with hardware := hardware }
  else ∃ lua broke, x.before.executeInstruction dev lua = some (broke, x.after)

def Leads : Emulator δ F → List (Ran δ F) → Emulator δ F → Prop
  | s, [], t => s = t
  | s, x :: rest, t => x.before = s ∧ Leads x.after rest t

def executes : Input δ F → Bool
  | .instruction _ => true
  | .request (.executeInstr _) => true
  | .request (.executeFrame _) => true
  | .request (.executeFrameNoBreaks _) => true
  | .request (.runHeadless _) => true
  | _ => false

section

variable {dev : Devices δ} {s t : Emulator δ F}

omit [BEq F] [Zero F] in
theorem Ran.executes_headless [BEq F] [Zero F] {hardware : Hardware δ}
    (hcycles : s.hardware.executeCycles dev = some hardware) :
    Ran.Executes dev ⟨true, s, { s with hardware := hardware }⟩ := by
  rw [Ran.Executes, if_pos rfl]
  exact ⟨hardware, hcycles, rfl⟩

theorem Ran.executes_hooked {lua : LuaCheck F} {broke : Bool}
    (hrun : s.executeInstruction dev lua = some (broke, t)) : Ran.Executes dev ⟨false, s, t⟩ := by
  rw [Ran.Executes, if_neg Bool.false_ne_true]
  exact ⟨lua, broke, hrun⟩

theorem executes_ranInstruction {lua : LuaCheck F} (hparked : s.Parked) :
    ∀ x ∈ s.ranInstruction dev lua, x.before.Parked ∧ x.Executes dev := by
  intro x hx
  obtain ⟨⟨broke, t⟩, ht, rfl⟩ := List.mem_map.mp hx
  exact ⟨hparked, Ran.executes_hooked (Option.mem_toList.mp ht)⟩

theorem executes_ranFrame {lua : Nat → LuaCheck F} {frameNum : BitVec 64} {fuel : Nat}
    (hparked : s.Parked) :
    ∀ x ∈ ranFrame dev lua frameNum fuel s, x.before.Parked ∧ x.Executes dev := by
  induction fuel generalizing s with
  | zero => exact fun _ hx => absurd hx List.not_mem_nil
  | succ fuel ih =>
      intro x hx
      rw [ranFrame] at hx
      cases hrun : s.executeInstruction dev (lua fuel) with
      | none =>
          rw [hrun] at hx
          exact absurd hx List.not_mem_nil
      | some r =>
          rw [hrun] at hx
          rcases List.mem_cons.mp hx with hfirst | hlater
          · rw [hfirst]
            exact ⟨hparked, Ran.executes_hooked hrun⟩
          · split at hlater
            · exact ih (hparked.executeInstruction hrun) x hlater
            · exact absurd hlater List.not_mem_nil

omit [BEq F] [Zero F] in
theorem executes_ranHeadless {limits : Hardware.HeadlessLimits} {startCC startFrame : BitVec 64}
    {fuel : Nat} [BEq F] [Zero F] (hparked : s.Parked) :
    ∀ x ∈ ranHeadless dev limits startCC startFrame fuel s, x.before.Parked ∧ x.Executes dev := by
  induction fuel generalizing s with
  | zero => exact fun _ hx => absurd hx List.not_mem_nil
  | succ fuel ih =>
      intro x hx
      rw [ranHeadless] at hx
      cases hcycles : s.hardware.executeCycles dev with
      | none =>
          rw [hcycles] at hx
          exact absurd hx List.not_mem_nil
      | some hardware =>
          rw [hcycles] at hx
          rcases List.mem_cons.mp hx with hfirst | hlater
          · rw [hfirst]
            exact ⟨hparked, Ran.executes_headless hcycles⟩
          · split at hlater
            · exact absurd hlater List.not_mem_nil
            · have hexecuted : Parked { s with hardware := hardware } :=
                ⟨Hardware.parked_executeCycles hparked.hardware hcycles, hparked.recorder⟩
              exact ih hexecuted x hlater

theorem executes_ran {fuel : Nat} {input : Input δ F} (hparked : s.Parked) :
    ∀ x ∈ s.ran dev fuel input, x.before.Parked ∧ x.Executes dev := by
  cases input with
  | instruction lua =>
      rw [ran]
      split
      · exact executes_ranInstruction hparked
      · exact fun _ hx => absurd hx List.not_mem_nil
  | request req =>
      cases req with
      | executeInstr lua => exact executes_ranInstruction hparked
      | executeFrame lua => exact executes_ranFrame hparked
      | executeFrameNoBreaks lua => exact executes_ranFrame hparked
      | runHeadless limits => exact executes_ranHeadless hparked
      | _ => exact fun _ hx => absurd hx List.not_mem_nil

/-! ## Runs -/

theorem leads_ranInstruction {lua : LuaCheck F} {broke : Bool}
    (hrun : s.executeInstruction dev lua = some (broke, t)) :
    Leads s (s.ranInstruction dev lua) t := by
  rw [ranInstruction, hrun]
  exact ⟨rfl, rfl⟩

theorem leads_ranFrame {lua : Nat → LuaCheck F} {frameNum : BitVec 64} {fuel : Nat}
    (hrun : executeFrameLoop dev lua frameNum fuel s = some t) :
    Leads s (ranFrame dev lua frameNum fuel s) t := by
  induction fuel generalizing s with
  | zero => contradiction
  | succ fuel ih =>
      rw [executeFrameLoop] at hrun
      obtain ⟨r, hr, hrun⟩ := Option.bind_eq_some_iff.mp hrun
      rw [ranFrame, hr, Option.elim_some]
      refine ⟨rfl, ?_⟩
      split at hrun
      · rename_i hsame
        rw [if_pos hsame]
        exact ih hrun
      · rename_i hnext
        rw [if_neg hnext]
        exact Option.some_inj.mp hrun

omit [BEq F] [Zero F] in
theorem leads_ranHeadless {limits : Hardware.HeadlessLimits} {startCC startFrame : BitVec 64}
    {fuel : Nat} {hardware : Hardware δ}
    (hrun : s.hardware.runHeadlessLoop dev limits startCC startFrame fuel = some hardware) :
    Leads s (ranHeadless dev limits startCC startFrame fuel s) { s with hardware := hardware } := by
  induction fuel generalizing s with
  | zero => contradiction
  | succ fuel ih =>
      rw [Hardware.runHeadlessLoop] at hrun
      obtain ⟨u, hu, hrun⟩ := Option.bind_eq_some_iff.mp hrun
      rw [ranHeadless, hu, Option.elim_some]
      refine ⟨rfl, ?_⟩
      split at hrun
      · rename_i hdone
        rw [if_pos hdone, Option.some_inj.mp hrun]
        exact rfl
      · rename_i hlater
        rw [if_neg hlater]
        exact ih (s := { s with hardware := u }) hrun

theorem leads_ran {fuel : Nat} {input : Input δ F} (hexecutes : executes input = true)
    (hstep : s.step dev fuel input = some t) :
    ∃ u, Leads s (s.ran dev fuel input) u ∧ t.hardware = u.hardware := by
  unfold executes at hexecutes
  split at hexecutes
  · rw [step, executeRunning] at hstep
    split at hstep
    · rename_i hstatus
      obtain ⟨⟨broke, u⟩, hu, rfl⟩ := Option.map_eq_some_iff.mp hstep
      refine ⟨u, ?_, ?_⟩
      · rw [ran, if_pos hstatus]
        exact leads_ranInstruction hu
      · cases broke <;> rfl
    · contradiction
  · obtain ⟨⟨broke, u⟩, hu, rfl⟩ := Option.map_eq_some_iff.mp hstep
    refine ⟨u, leads_ranInstruction hu, ?_⟩
    cases broke <;> rfl
  · obtain ⟨u, hu, rfl⟩ := Option.map_eq_some_iff.mp hstep
    exact ⟨u, leads_ranFrame hu, rfl⟩
  · obtain ⟨u, hu, rfl⟩ := Option.map_eq_some_iff.mp hstep
    exact ⟨u, leads_ranFrame hu, rfl⟩
  · obtain ⟨⟨result, hardware⟩, hrun, rfl⟩ := Option.map_eq_some_iff.mp hstep
    obtain ⟨u, hu, heq⟩ := Option.map_eq_some_iff.mp hrun
    cases heq
    exact ⟨_, leads_ranHeadless hu, rfl⟩
  · contradiction

/-- Behind every instruction that a step executes under the debugger. -/
def Keeps (dev : Devices δ) (fuel : Nat) (s : Emulator δ F) (input : Input δ F) : Prop :=
  ∀ x ∈ s.ran dev fuel input, x.before.debugAttached = true → Protects x.before x.after

/-- No instruction stores unchecked over a read-only byte. -/
def Harmless (dev : Devices δ) (fuel : Nat) (s : Emulator δ F) (input : Input δ F) : Prop :=
  s.LoadsParked input ∧
    ∀ x ∈ s.ran dev fuel input, x.before.debugAttached = true → x.before.Spared dev x.headless

theorem Ran.protects {x : Ran δ F} (hparked : x.before.Parked) (hexecutes : x.Executes dev)
    (hattached : x.before.debugAttached = true) (hspared : x.before.Spared dev x.headless) :
    Protects x.before x.after := by
  rw [Ran.Executes] at hexecutes
  split at hexecutes
  · rename_i hheadless
    rw [hheadless] at hspared
    obtain ⟨hardware, hcycles, hafter⟩ := hexecutes
    rw [hafter]
    exact headless_protects hparked.hardware hspared hcycles
  · rename_i hhooked
    rw [Bool.not_eq_true] at hhooked
    rw [hhooked] at hspared
    obtain ⟨lua, broke, hrun⟩ := hexecutes
    exact executeInstruction_protects hparked.hardware hattached hspared hrun

/--
From construction on, as long as no instruction stores unchecked over a read-only byte,
every instruction keeps the read-only bytes and stores all others.
-/
theorem readOnly_bytes_law {fuel : Nat} {hardware : Hardware δ} {recordFrames : Nat}
    {enabled : Bool} {inputs : List (Input δ F)} (hparked : hardware.Parked)
    (hharmless : Runs.Along (step dev fuel) (Harmless dev fuel)
      (new hardware (.new recordFrames enabled)) inputs) :
    Runs.Along (step dev fuel) (Keeps dev fuel)
      (new hardware (.new recordFrames enabled)) inputs := by
  apply hharmless.invariant Parked
  · intro s input hs hinput
    constructor
    · intro x hx hattached
      obtain ⟨hbefore, hexecutes⟩ := executes_ran hs x hx
      exact Ran.protects hbefore hexecutes hattached (hinput.2 x hx hattached)
    · intro t ht
      exact hs.step hinput.1 ht
  · exact parked_new hparked recordFrames enabled

end

/-! ## Programs of one instruction -/

def oneOpcode (opcode : Byte) : Emulator Unit Int :=
  new (.ofRam (fun i => if i.val = 0 then opcode else 0) ()) (.new 10 true)

def guarding (opcode : Byte) : List (Input Unit Int) :=
  [.request (.debugAttach true), .request (.memoryEdits (.add ⟨0, opcode, "", true, true⟩))]

def guarded (opcode : Byte) : Emulator Unit Int :=
  editMemory (.add ⟨0, opcode, "", true, true⟩) { oneOpcode opcode with debugAttached := true }

theorem exec_guarding (fuel : Nat) (opcode : Byte) :
    Runs.exec (step .silent fuel) (oneOpcode opcode) (guarding opcode) = some (guarded opcode) :=
  rfl

theorem harmless_guarding {fuel : Nat} {opcode : Byte} {input : Input Unit Int}
    (hinput : Harmless .silent fuel (guarded opcode) input) :
    Runs.Along (step .silent fuel) (Harmless .silent fuel) (oneOpcode opcode)
      (guarding opcode ++ [input]) := by
  refine ⟨⟨trivial, fun x hx => absurd hx List.not_mem_nil⟩, fun s hs => ?_⟩
  refine ⟨⟨trivial, fun x hx => absurd hx List.not_mem_nil⟩, fun t ht => ?_⟩
  have hexec : Runs.exec (step .silent fuel) (oneOpcode opcode) (guarding opcode) = some t := by
    rw [guarding, Runs.exec, hs, Option.bind_some, Runs.exec, ht, Option.bind_some, Runs.exec]
  rw [exec_guarding, Option.some_inj] at hexec
  rw [← hexec]
  exact ⟨hinput, fun _ _ => trivial⟩

/-- A witness: the hook puts back what `MOV M,A` stores over itself. -/
theorem readOnly_bytes_law_mov :
    Runs.Along (step .silent 0) (Keeps .silent 0) (oneOpcode 0x77)
      (guarding 0x77 ++ [.request (.executeInstr noLua)]) := by
  rw [oneOpcode]
  apply readOnly_bytes_law (Hardware.parked_ofRam _ _)
  apply harmless_guarding
  refine ⟨trivial, fun x hx _ => ?_⟩
  obtain ⟨r, -, rfl⟩ := List.mem_map.mp hx
  have hopcode : (guarded 0x77).hardware.toSys.nextOpcode
      ((guarded 0x77).hardware.irqLine .silent) ≠ Sys.opcodeXthl := by decide +kernel
  have hchecked : (guarded 0x77).unchecked .silent false = 0 := by
    rw [unchecked, if_neg Bool.false_ne_true, if_neg hopcode]
  intro a ha
  rw [hchecked] at ha
  exact absurd ha List.not_mem_nil

theorem readOnly_guarded (opcode : Byte) :
    (guarded opcode).debugger.memoryEdits.readOnly 0 = true := rfl

theorem read_guarded (opcode : Byte) : (guarded opcode).hardware.mem.ram.read 0 = opcode := by
  have hinside : 0 < memoryGlobalLen := by decide
  exact Ram.read_write_self _ opcode hinside

theorem not_keeps {fuel : Nat} {opcode : Byte} {input : Input Unit Int} {headless : Bool}
    {t : Emulator Unit Int} (hopcode : opcode ≠ 0)
    (hran : ⟨headless, guarded opcode, t⟩ ∈ (guarded opcode).ran .silent fuel input)
    (hzero : t.hardware.mem.ram.read 0 = 0) :
    ¬ Runs.Along (step .silent fuel) (Keeps .silent fuel) (oneOpcode opcode)
      (guarding opcode ++ [input]) := by
  intro hkeeps
  have hlast := (hkeeps.append (exec_guarding fuel opcode)).1
  have hkept : t.hardware.mem.ram.read 0 = _ := hlast _ hran rfl 0
  rw [if_pos (readOnly_guarded opcode)] at hkept
  have hread : t.hardware.mem.ram.read 0 = opcode := hkept.trans (read_guarded opcode)
  exact hopcode (hread.symm.trans hzero)

/-- `RUN_HEADLESS` stores over a read-only byte, and so does `XTHL` under the hook. -/
theorem readOnly_bytes_overwritten :
    ¬ Runs.Along (step .silent 1) (Keeps .silent 1) (oneOpcode 0x77)
        (guarding 0x77 ++ [.request (.runHeadless { maxCycles := 1 })]) ∧
      ¬ Runs.Along (step .silent 0) (Keeps .silent 0) (oneOpcode 0xE3)
        (guarding 0xE3 ++ [.request (.executeInstr noLua)]) := by
  constructor
  · have hlost : ((guarded 0x77).hardware.executeCycles .silent).map
        (fun hardware => hardware.mem.ram.read 0) = some 0 := by decide +kernel
    obtain ⟨hardware, hcycles, hzero⟩ := Option.map_eq_some_iff.mp hlost
    have hran : ⟨true, guarded 0x77, { guarded 0x77 with hardware := hardware }⟩ ∈
        (guarded 0x77).ran .silent 1 (.request (.runHeadless { maxCycles := 1 })) := by
      rw [ran, ranHeadless, hcycles, Option.elim_some]
      exact List.mem_cons_self
    exact not_keeps (by decide) hran hzero
  · have hlost : ((guarded 0xE3).executeInstruction .silent noLua).map
        (fun r => r.2.hardware.mem.ram.read 0) = some 0 := by decide +kernel
    obtain ⟨r, hrun, hzero⟩ := Option.map_eq_some_iff.mp hlost
    have hran : ⟨false, guarded 0xE3, r.2⟩ ∈
        (guarded 0xE3).ran .silent 0 (.request (.executeInstr noLua)) := by
      rw [ran, ranInstruction, hrun]
      exact List.mem_cons_self
    exact not_keeps (by decide) hran hzero

end Emulator

end V6Emul
