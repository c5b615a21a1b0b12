import V6Emul.Emulator.Model

/-!
# The record of the last stop

A client tells by the sequence number that execution has ended again, and by the
record why.  The law is about one step; a run keeps it as long as no step meets one of
the four places that record a stop where nothing ends: `STOP` and a script that is run
once while the machine is stopped, `LOAD_ROM`, and the breaks that a frame ignores.
-/

namespace V6Emul

/-! ## Watchpoints that matched -/

namespace Watchpoints

def HitKnown (w : Watchpoints) : Prop := w.wpBreak = true → w.hit.isSome

theorem HitKnown.check {w : Watchpoints} (h : w.HitKnown) (access : WatchpointAccess)
    (globalAddr : BitVec 32) (value : Byte) (oldValue : Option Byte) :
    (w.check access globalAddr value oldValue).HitKnown := by
  rw [Watchpoints.check]
  dsimp only
  split
  · exact h
  · intro _
    simp

theorem hitKnown_checkBreak {w : Watchpoints} (h : w.HitKnown) : w.checkBreak.2.HitKnown := by
  rw [checkBreak]
  split
  · exact h
  · intro hbreak
    cases hbreak

theorem HitKnown.apply {w : Watchpoints} (h : w.HitKnown) (op : WatchpointOp) :
    (w.apply op).2.HitKnown := by
  cases op with
  | clear =>
      simp only [Watchpoints.apply, clear]
      split <;> exact h
  | add wp => exact h
  | addNew wp => exact h
  | edit wp =>
      simp only [Watchpoints.apply, edit]
      split <;> exact h
  | addJson j =>
      simp only [Watchpoints.apply, addJson]
      split <;> exact h
  | del id =>
      simp only [Watchpoints.apply, del]
      split <;> exact h
  | check access globalAddr value oldValue => exact h.check access globalAddr value oldValue
  | checkBreak => exact hitKnown_checkBreak h

theorem checkBreak_fst (w : Watchpoints) : w.checkBreak.1 = w.wpBreak := by
  rw [checkBreak]
  cases w.wpBreak <;> rfl

end Watchpoints

namespace Debugger

theorem hitKnown_checkReads (mem : Memory) {w : Watchpoints} (h : w.HitKnown) :
    (checkReads mem w).HitKnown := by
  have hread : ∀ i (w : Watchpoints), w.HitKnown → (checkRead mem i w).HitKnown := by
    intro i w h
    rw [checkRead]
    split
    · exact h
    · exact h.check _ _ _ _
  exact hread 1 _ (hread 0 _ h)

theorem mappingsEnabled_checkWrites (edits : MemoryEdits) (s : Memory × Watchpoints) :
    (checkWrites edits s).1.mappingsEnabled = s.1.mappingsEnabled := by
  have hwrite : ∀ i (s : Memory × Watchpoints),
      (checkWrite edits i s).1.mappingsEnabled = s.1.mappingsEnabled := by
    intro i s
    rw [checkWrite]
    dsimp only
    split_ifs <;> rfl
  exact (hwrite 1 _).trans (hwrite 0 s)

theorem hitKnown_checkWrites (edits : MemoryEdits) {s : Memory × Watchpoints} (h : s.2.HitKnown) :
    (checkWrites edits s).2.HitKnown := by
  have hwrite : ∀ i (s : Memory × Watchpoints), s.2.HitKnown →
      (checkWrite edits i s).2.HitKnown := by
    intro i s h
    rw [checkWrite]
    dsimp only
    split_ifs
    · exact h
    · exact h
    · exact h.check _ _ _ _
  exact hwrite 1 _ (hwrite 0 _ h)

end Debugger

/-! ## Scripts that asked for a break -/

namespace Scripts

variable {F : Type} [BEq F] [Zero F]

theorem runScript_break {s t : Scripts F} {key : Id} {script : Script} {run : LuaRun F}
    {result : RunResult} (h : s.runScript key script run = (.ok result, t)) :
    result.breakRequested = run.calledBreak ∧
      t.breakScriptId = (if run.calledBreak then script.scriptId else s.breakScriptId) ∧
      t.scripts = s.scripts.insert key (afterRun script run) := by
  rw [runScript] at h
  split at h
  · cases h
  · obtain ⟨overlays, hdrawn⟩ :=
      drawAll_frame { s with break_ := false, currentScriptId := script.scriptId } run.draws
    simp only [hdrawn, setScript, countUpdate, Prod.mk.injEq, Except.ok.injEq] at h
    obtain ⟨rfl, rfl⟩ := h
    refine ⟨?_, ?_, ?_⟩
    all_goals split_ifs <;> simp_all

theorem checkLoop_quiet {s : Scripts F} {runs : Id → LuaRun F} {order : List Id}
    (h : (s.checkLoop runs order).1 = false) :
    (s.checkLoop runs order).2.breakScriptId = s.breakScriptId := by
  induction order generalizing s with
  | nil => rfl
  | cons scriptId order ih =>
      rw [checkLoop] at h ⊢
      cases hlookup : s.scripts.lookup scriptId with
      | none =>
          rw [hlookup] at h
          exact ih h
      | some script =>
          rw [hlookup] at h
          dsimp only at h ⊢
          by_cases hscheduled : scheduled script = true
          · rw [if_pos hscheduled] at h ⊢
            rcases hrun : s.runScript scriptId script (runs scriptId) with ⟨error | result, t⟩
            · rw [runScript] at hrun
              split at hrun
              · cases hrun
                rfl
              · cases hrun
            · rw [hrun] at h
              dsimp only at h ⊢
              obtain ⟨hrequested, hid, -⟩ := runScript_break hrun
              rw [Bool.or_eq_false_iff, hrequested] at h
              rw [ih h.2, hid, h.1]
              rfl
          · rw [if_neg hscheduled] at h ⊢
            exact ih h

theorem checkLoop_break {s : Scripts F} {runs : Id → LuaRun F} {order : List Id}
    (h : (s.checkLoop runs order).1 = true) :
    ∃ key script, s.scripts.lookup key = some script ∧ (runs key).calledBreak = true ∧
      (s.checkLoop runs order).2.breakScriptId = script.scriptId := by
  induction order generalizing s with
  | nil => cases h
  | cons scriptId order ih =>
      rw [checkLoop] at h ⊢
      cases hlookup : s.scripts.lookup scriptId with
      | none =>
          rw [hlookup] at h
          exact ih h
      | some script =>
          rw [hlookup] at h
          dsimp only at h ⊢
          by_cases hscheduled : scheduled script = true
          · rw [if_pos hscheduled] at h ⊢
            rcases hrun : s.runScript scriptId script (runs scriptId) with ⟨result | result, t⟩
            · rw [hrun] at h
              cases h
            · rw [hrun] at h
              dsimp only at h ⊢
              obtain ⟨hrequested, hid, hscripts⟩ := runScript_break hrun
              by_cases hrest : (t.checkLoop runs order).1 = true
              · obtain ⟨key, found, hkey, hcalled, hbreak⟩ := ih hrest
                rw [hscripts] at hkey
                by_cases hsame : key = scriptId
                · rw [hsame, AList.lookup_insert, Option.some_inj] at hkey
                  refine ⟨scriptId, script, hlookup, hsame ▸ hcalled, hbreak.trans ?_⟩
                  rw [← hkey]
                  exact afterRun_scriptId script _
                · rw [AList.lookup_insert_ne hsame] at hkey
                  exact ⟨key, found, hkey, hcalled, hbreak⟩
              · rw [Bool.not_eq_true] at hrest
                rw [hrest, Bool.or_false, hrequested] at h
                rw [h, if_pos rfl] at hid
                exact ⟨scriptId, script, hlookup, h, (checkLoop_quiet hrest).trans hid⟩
          · rw [if_neg hscheduled] at h ⊢
            exact ih h

theorem check_break {s : Scripts F} {order : List Id} {runs : Id → LuaRun F}
    (h : (s.check order runs).1 = true) :
    ∃ key script, s.scripts.lookup key = some script ∧ (runs key).calledBreak = true ∧
      (s.check order runs).2.breakScriptId = script.scriptId := by
  rw [check] at h ⊢
  split at h
  · rename_i henabled
    rw [if_pos henabled]
    exact checkLoop_break h
  · cases h

end Scripts

namespace Emulator

variable {δ F : Type}

/-! ## The law -/

def recordOf (e : StopEvent) (t : Emulator δ F) : StopRecord where
  sequence := t.stopSequence
  reason := e.reason
  pc := t.hardware.cpu.pc.word
  globalInstructionAddress :=
    e.trigger.globalInstructionAddress.getD
      (t.hardware.mem.getGlobalAddr t.hardware.cpu.pc.word .ram)
  trigger := e.trigger

/-- What a step adds to the records: nothing, or the next one, which describes its event. -/
def Adds (e : Option StopEvent) (s t : Emulator δ F) : Prop :=
  match e with
  | none => t.stopSequence = s.stopSequence ∧ t.stopRecord = s.stopRecord
  | some e => t.stopSequence = s.stopSequence + 1 ∧ t.stopRecord = t.recordOf e

/-- Why the checks after an instruction break, in the state that the instruction leaves. -/
inductive Cause (lua : LuaCheck F) (s : Emulator δ F) : StopEvent → Prop where
  | watchpoint {hit : WatchpointHit} :
      s.checkAccesses.2.wpBreak = true → s.checkAccesses.2.hit = some hit →
      Cause lua s (.watchpoint hit s.checkAccesses.1.debug.instrGlobalAddr)
  | breakpoint :
      (s.debugger.breakpoints.check s.hardware.cpu s.checkAccesses.1.update).1 = true →
      Cause lua s (.breakpoint s.hardware.cpu.pc.word)
  | script {key : Id} {script : Script} :
      s.debugger.scripts.scripts.lookup key = some script → (lua.runs key).calledBreak = true →
      Cause lua s (.script script.scriptId)
  | exception : 1 < s.hardware.mem.mappingsEnabled → Cause lua s .exception

inductive Event (dev : Devices δ) (s : Emulator δ F) : Input δ F → StopEvent → Prop where
  | pause : Event dev s (.request .stop) .pause
  | break_ {lua : LuaCheck F} {hardware : Hardware δ} {e : StopEvent} :
      s.hardware.executeCycles dev = some hardware →
      Cause lua { s with hardware := hardware } e → Event dev s (.instruction lua) e
  | script {scriptId : Id} {run : LuaRun F} : run.calledBreak = true →
      Event dev s (.request (.scriptRunOnce scriptId run)) (.script scriptId)
  | step {lua : LuaCheck F} : Event dev s (.request (.executeInstr lua)) .step
  | stepBreak {lua : LuaCheck F} {hardware : Hardware δ} {e : StopEvent} :
      s.hardware.executeCycles dev = some hardware →
      Cause lua { s with hardware := hardware } e →
      Event dev s (.request (.executeInstr lua)) e
  | frameStep {lua : Nat → LuaCheck F} : Event dev s (.request (.executeFrame lua)) .frameStep
  | frameStepNoBreaks {lua : Nat → LuaCheck F} :
      Event dev s (.request (.executeFrameNoBreaks lua)) .frameStep

/-- Whether a step ends execution: a single step and a frame step do, and otherwise the
status tells; `LOAD_ROM` starts the machine anew. -/
def ends (s t : Emulator δ F) : Input δ F → Bool
  | .request (.executeInstr _) => true
  | .request (.executeFrame _) => true
  | .request (.executeFrameNoBreaks _) => true
  | .request (.loadRom ..) => false
  | _ => decide (s.status = .run) && decide (t.status = .stop)

/-- The sequence number counts the steps that end execution, and the record is that of the last. -/
def Law (dev : Devices δ) (s : Emulator δ F) (input : Input δ F) (t : Emulator δ F) : Prop :=
  if ends s t input then ∃ e, Event dev s input e ∧ Adds (some e) s t else Adds none s t

/-! ## One instruction -/

theorem checkException_adds (s : Emulator δ F) :
    if s.checkException.1 then
      1 < s.hardware.mem.mappingsEnabled ∧ Adds (some .exception) s s.checkException.2
    else Adds none s s.checkException.2 := by
  rw [checkException]
  by_cases hcollision : 1 < s.hardware.mem.mappingsEnabled
  · simp [Hardware.checkMapping, Memory.isException, hcollision, Adds, recordStop, recordOf]
  · simp [Hardware.checkMapping, Memory.isException, hcollision, Adds]

theorem checkException_status (s : Emulator δ F) : s.checkException.2.status = s.status := by
  rw [checkException]
  split <;> rfl

theorem checkException_debugger (s : Emulator δ F) : s.checkException.2.debugger = s.debugger := by
  rw [checkException]
  split <;> rfl

structure Executed (dev : Devices δ) (lua : LuaCheck F) (s : Emulator δ F) (broke : Bool)
    (t : Emulator δ F) : Prop where
  adds : if broke then
      ∃ hardware e, s.hardware.executeCycles dev = some hardware ∧
        Cause lua { s with hardware := hardware } e ∧ Adds (some e) s t
    else Adds none s t
  status : t.status = s.status
  hitKnown : t.debugger.watchpoints.HitKnown

theorem executed_checkException {dev : Devices δ} (lua : LuaCheck F) {s u : Emulator δ F}
    {hardware : Hardware δ} (hcycles : s.hardware.executeCycles dev = some hardware)
    (hadds : Adds none s u) (hstatus : u.status = s.status)
    (hmappings : u.hardware.mem.mappingsEnabled = hardware.mem.mappingsEnabled)
    (hknown : u.debugger.watchpoints.HitKnown) :
    Executed dev lua s u.checkException.1 u.checkException.2 := by
  have hexception := u.checkException_adds
  refine ⟨?_, u.checkException_status.trans hstatus, ?_⟩
  · split
    · rename_i hbroke
      rw [if_pos hbroke, hmappings] at hexception
      obtain ⟨hcollision, hsequence, hrecord⟩ := hexception
      exact ⟨hardware, .exception, hcycles, .exception hcollision,
        hsequence.trans (congrArg (· + 1) hadds.1), hrecord⟩
    · rename_i hbroke
      rw [if_neg hbroke] at hexception
      exact ⟨hexception.1.trans hadds.1, hexception.2.trans hadds.2⟩
  · rw [checkException_debugger]
    exact hknown

section Steps

variable [BEq F] [Zero F]

def Uninterrupted (dev : Devices δ) (lua : Nat → LuaCheck F) (frameNum : BitVec 64) :
    Nat → Emulator δ F → Prop
  | 0, _ => True
  | fuel + 1, s => ∀ broke t, s.executeInstruction dev (lua fuel) = some (broke, t) →
      broke = false ∧
        (t.hardware.display.update.frameNum = frameNum → Uninterrupted dev lua frameNum fuel t)

def Lawful (dev : Devices δ) (fuel : Nat) (s : Emulator δ F) : Input δ F → Prop
  | .request .stop => s.status = .run
  | .request (.scriptRunOnce scriptId run) =>
      ∀ result, (s.debugger.scripts.runOnce scriptId run).1 = .ok result →
        result.breakRequested = true → s.status = .run
  | .request (.executeFrame lua) =>
      Uninterrupted dev lua s.hardware.display.update.frameNum fuel s
  | .request (.executeFrameNoBreaks lua) =>
      Uninterrupted dev lua s.hardware.display.update.frameNum fuel s
  | .request (.loadRom ..) => False
  | _ => True

theorem checkBreaks_cause {lua : LuaCheck F} {s : Emulator δ F}
    (hknown : s.debugger.watchpoints.HitKnown) {e : StopEvent}
    (h : (s.checkBreaks lua).1 = some e) : Cause lua s e := by
  have haccessed : s.checkAccesses.2.HitKnown :=
    Debugger.hitKnown_checkWrites _ (Debugger.hitKnown_checkReads _ hknown)
  rw [checkBreaks] at h
  dsimp only at h
  rw [Watchpoints.checkBreak_fst] at h
  split at h
  · rename_i hit hbreak hhit
    cases h
    exact .watchpoint hbreak hhit
  · rename_i hnone
    have hquiet : s.checkAccesses.2.wpBreak = false := by
      by_contra hbreak
      rw [Bool.not_eq_false] at hbreak
      obtain ⟨hit, hhit⟩ := Option.isSome_iff_exists.mp (haccessed hbreak)
      exact hnone hit hbreak hhit
    rw [hquiet, Bool.or_false] at h
    split_ifs at h with hbreakpoint hscript
    · cases h
      exact .breakpoint hbreakpoint
    · cases h
      obtain ⟨key, script, hkey, hcalled, hid⟩ := Scripts.check_break hscript
      rw [hid]
      exact .script hkey hcalled

theorem debug_none {lua : LuaCheck F} {s : Emulator δ F} (h : (s.checkBreaks lua).1 = none) :
    s.debug lua = (false, ((s.checkBreaks lua).2.setTraceLog fun t =>
      t.update s.hardware.cpu.pc s.checkAccesses.1.debug).record) := by
  rw [debug, h]
  rfl

theorem debug_some {lua : LuaCheck F} {s : Emulator δ F} {e : StopEvent}
    (h : (s.checkBreaks lua).1 = some e) :
    s.debug lua = (true, (((s.checkBreaks lua).2.recordStop e).setTraceLog fun t =>
      t.update s.hardware.cpu.pc s.checkAccesses.1.debug).record) := by
  rw [debug, h]
  rfl

theorem debug_adds (lua : LuaCheck F) {s : Emulator δ F}
    (hknown : s.debugger.watchpoints.HitKnown) :
    if (s.debug lua).1 then ∃ e, Cause lua s e ∧ Adds (some e) s (s.debug lua).2
    else Adds none s (s.debug lua).2 := by
  cases hevent : (s.checkBreaks lua).1 with
  | none =>
      rw [debug_none hevent]
      exact ⟨rfl, rfl⟩
  | some e =>
      rw [debug_some hevent]
      exact ⟨e, checkBreaks_cause hknown hevent, rfl, rfl⟩

theorem debug_frame (lua : LuaCheck F) (s : Emulator δ F) :
    (s.debug lua).2.status = s.status ∧
      (s.debug lua).2.hardware.mem = s.checkAccesses.1 ∧
      (s.debug lua).2.debugger.watchpoints = s.checkAccesses.2.checkBreak.2 := by
  cases hevent : (s.checkBreaks lua).1 with
  | none =>
      rw [debug_none hevent]
      exact ⟨rfl, rfl, rfl⟩
  | some e =>
      rw [debug_some hevent]
      exact ⟨rfl, rfl, rfl⟩

/-- What the hook adds; it leaves the status and the number of enabled mappings. -/
structure Hooked (lua : LuaCheck F) (s : Emulator δ F) (broke : Bool) (t : Emulator δ F) :
    Prop where
  adds : if broke then ∃ e, Cause lua s e ∧ Adds (some e) s t else Adds none s t
  status : t.status = s.status
  mappings : t.hardware.mem.mappingsEnabled = s.hardware.mem.mappingsEnabled
  hitKnown : t.debugger.watchpoints.HitKnown

theorem hooked_hook (lua : LuaCheck F) {s : Emulator δ F}
    (hknown : s.debugger.watchpoints.HitKnown) : Hooked lua s (s.hook lua).1 (s.hook lua).2 := by
  rw [hook]
  by_cases hattached : s.debugAttached = true
  · rw [if_pos hattached]
    obtain ⟨hstatus, hmem, hwatchpoints⟩ := debug_frame lua s
    refine ⟨debug_adds lua hknown, hstatus, ?_, ?_⟩
    · rw [hmem]
      exact Debugger.mappingsEnabled_checkWrites _ _
    · rw [hwatchpoints]
      exact Watchpoints.hitKnown_checkBreak
        (Debugger.hitKnown_checkWrites _ (Debugger.hitKnown_checkReads _ hknown))
  · rw [if_neg hattached]
    exact ⟨⟨rfl, rfl⟩, rfl, rfl, hknown⟩

theorem executed_of_eq {dev : Devices δ} {lua : LuaCheck F} {s t : Emulator δ F} {broke : Bool}
    (hknown : s.debugger.watchpoints.HitKnown)
    (h : s.executeInstruction dev lua = some (broke, t)) : Executed dev lua s broke t := by
  rw [executeInstruction, Option.map_eq_some_iff] at h
  obtain ⟨hardware, hcycles, h⟩ := h
  dsimp only at h
  have hhooked := hooked_hook lua (s := { s with hardware := hardware }) hknown
  by_cases hbroke : (hook lua { s with hardware := hardware }).1 = true
  · rw [if_pos hbroke] at h
    cases h
    have hadds := hhooked.adds
    rw [if_pos hbroke] at hadds
    obtain ⟨e, hcause, hadds⟩ := hadds
    exact ⟨⟨hardware, e, hcycles, hcause, hadds⟩, hhooked.status, hhooked.hitKnown⟩
  · rw [if_neg hbroke] at h
    have hadds := hhooked.adds
    rw [if_neg hbroke] at hadds
    have hexecuted := executed_checkException lua hcycles hadds hhooked.status
      hhooked.mappings hhooked.hitKnown
    rw [h] at hexecuted
    exact hexecuted

/-! ## The other steps -/

omit [BEq F] [Zero F] in
theorem law_of_quiet {dev : Devices δ} {s t : Emulator δ F} {input : Input δ F}
    (hends : ends s t input = false) (hsequence : t.stopSequence = s.stopSequence)
    (hrecord : t.stopRecord = s.stopRecord) : Law dev s input t := by
  rw [Law, hends]
  exact ⟨hsequence, hrecord⟩

omit [BEq F] [Zero F] in
theorem ends_status {s t : Emulator δ F} (h : t.status = s.status ∨ t.status ≠ .stop) :
    (decide (s.status = .run) && decide (t.status = .stop)) = false := by
  rcases h with hsame | hgoes
  · rw [hsame]
    cases s.status <;> rfl
  · simp [hgoes]

omit [BEq F] [Zero F] in
theorem law_of_event {dev : Devices δ} {s t : Emulator δ F} {input : Input δ F} {e : StopEvent}
    (hends : ends s t input = true) (hevent : Event dev s input e) (hadds : Adds (some e) s t) :
    Law dev s input t := by
  rw [Law, hends]
  exact ⟨e, hevent, hadds⟩

theorem executeRunning_law {dev : Devices δ} {lua : LuaCheck F} {s t : Emulator δ F}
    (hknown : s.debugger.watchpoints.HitKnown) (h : s.executeRunning dev lua = some t) :
    Law dev s (.instruction lua) t ∧ t.debugger.watchpoints.HitKnown := by
  rw [executeRunning] at h
  split at h
  · rename_i hrun
    obtain ⟨⟨broke, u⟩, hu, h⟩ := Option.map_eq_some_iff.mp h
    have hexecuted := executed_of_eq hknown hu
    have hadds := hexecuted.adds
    cases broke with
    | true =>
        cases h
        obtain ⟨hardware, e, hcycles, hcause, hadds⟩ := hadds
        refine ⟨law_of_event ?_ (.break_ hcycles hcause) hadds, hexecuted.hitKnown⟩
        simp [ends, hrun, halt, setTraceLog, setDebugger]
    | false =>
        cases h
        refine ⟨law_of_quiet ?_ hadds.1 hadds.2, hexecuted.hitKnown⟩
        simp [ends, hexecuted.status, hrun]
  · cases h

theorem executeInstr_law {dev : Devices δ} {lua : LuaCheck F} {s t : Emulator δ F} {fuel : Nat}
    (hknown : s.debugger.watchpoints.HitKnown)
    (h : s.handle dev fuel (.executeInstr lua) = some t) :
    Law dev s (.request (.executeInstr lua)) t ∧ t.debugger.watchpoints.HitKnown := by
  obtain ⟨⟨broke, u⟩, hu, h⟩ := Option.map_eq_some_iff.mp h
  have hexecuted := executed_of_eq hknown hu
  have hadds := hexecuted.adds
  cases broke with
  | true =>
      cases h
      obtain ⟨hardware, e, hcycles, hcause, hadds⟩ := hadds
      exact ⟨law_of_event rfl (.stepBreak hcycles hcause) hadds, hexecuted.hitKnown⟩
  | false =>
      cases h
      exact ⟨law_of_event rfl .step ⟨congrArg (· + 1) hadds.1, rfl⟩, hexecuted.hitKnown⟩

theorem executeFrameLoop_adds {dev : Devices δ} {lua : Nat → LuaCheck F} {frameNum : BitVec 64}
    {fuel : Nat} {s t : Emulator δ F} (hknown : s.debugger.watchpoints.HitKnown)
    (hquiet : Uninterrupted dev lua frameNum fuel s)
    (h : executeFrameLoop dev lua frameNum fuel s = some t) :
    Adds none s t ∧ t.debugger.watchpoints.HitKnown := by
  induction fuel generalizing s with
  | zero => cases h
  | succ fuel ih =>
      rw [executeFrameLoop] at h
      obtain ⟨⟨broke, u⟩, hu, h⟩ := Option.bind_eq_some_iff.mp h
      have hexecuted := executed_of_eq hknown hu
      obtain ⟨rfl, hrest⟩ := hquiet broke u hu
      have hadds := hexecuted.adds
      dsimp only at h
      split at h
      · rename_i hsame
        obtain ⟨hlater, hknown'⟩ := ih hexecuted.hitKnown (hrest hsame) h
        exact ⟨⟨hlater.1.trans hadds.1, hlater.2.trans hadds.2⟩, hknown'⟩
      · cases h
        exact ⟨hadds, hexecuted.hitKnown⟩

theorem frameStep_adds {dev : Devices δ} {lua : Nat → LuaCheck F} {fuel : Nat} {s t : Emulator δ F}
    (hknown : s.debugger.watchpoints.HitKnown)
    (hquiet : Uninterrupted dev lua s.hardware.display.update.frameNum fuel s)
    (h : (s.executeFrameNoBreaks dev fuel lua).map (recordStop .frameStep) = some t) :
    Adds (some .frameStep) s t ∧ t.debugger.watchpoints.HitKnown := by
  obtain ⟨u, hu, h⟩ := Option.map_eq_some_iff.mp h
  obtain ⟨hadds, hknown'⟩ := executeFrameLoop_adds hknown hquiet hu
  cases h
  exact ⟨⟨congrArg (· + 1) hadds.1, rfl⟩, hknown'⟩

theorem scriptRunOnce_law {dev : Devices δ} {scriptId : Id} {run : LuaRun F} {s : Emulator δ F}
    (hlaw : ∀ result, (s.debugger.scripts.runOnce scriptId run).1 = .ok result →
      result.breakRequested = true → s.status = .run) :
    Law dev s (.request (.scriptRunOnce scriptId run)) (s.scriptRunOnce scriptId run) := by
  rw [scriptRunOnce]
  rcases hran : s.debugger.scripts.runOnce scriptId run with ⟨error | result, scripts⟩
  · exact law_of_quiet (ends_status (.inl rfl)) rfl rfl
  · rw [hran] at hlaw
    dsimp only
    by_cases hbreak : result.breakRequested = true
    · have hrun : s.status = .run := hlaw result rfl hbreak
      have hcalled : run.calledBreak = true := by
        rw [Scripts.runOnce] at hran
        split at hran
        · cases hran
        · rw [← (Scripts.runScript_break hran).1]
          exact hbreak
      rw [if_pos hbreak]
      refine law_of_event ?_ (.script hcalled) ⟨rfl, rfl⟩
      simp [ends, hrun, stopForScript, recordStop, halt, setTraceLog, setDebugger]
    · rw [if_neg hbreak]
      exact law_of_quiet (ends_status (.inl rfl)) rfl rfl

theorem watchpoints_scriptRunOnce (scriptId : Id) (run : LuaRun F) (s : Emulator δ F) :
    (s.scriptRunOnce scriptId run).debugger.watchpoints = s.debugger.watchpoints := by
  rw [scriptRunOnce]
  rcases s.debugger.scripts.runOnce scriptId run with ⟨error | result, scripts⟩
  · rfl
  · dsimp only
    split <;> rfl

omit [BEq F] [Zero F] in
theorem editMemory_frame (op : MemoryEditOp) (s : Emulator δ F) :
    (s.editMemory op).status = s.status ∧ Adds none s (s.editMemory op) ∧
      (s.editMemory op).debugger.watchpoints = s.debugger.watchpoints := by
  cases op with
  | add input =>
      simp only [editMemory]
      split <;> exact ⟨rfl, ⟨rfl, rfl⟩, rfl⟩
  | del globalAddr => exact ⟨rfl, ⟨rfl, rfl⟩, rfl⟩
  | delAll => exact ⟨rfl, ⟨rfl, rfl⟩, rfl⟩
  | restore globalAddr =>
      simp only [editMemory]
      split <;> exact ⟨rfl, ⟨rfl, rfl⟩, rfl⟩

theorem lawful_step {dev : Devices δ} {fuel : Nat} {s t : Emulator δ F} {input : Input δ F}
    (hknown : s.debugger.watchpoints.HitKnown) (hlaw : Lawful dev fuel s input)
    (h : s.step dev fuel input = some t) :
    Law dev s input t ∧ t.debugger.watchpoints.HitKnown := by
  cases input with
  | instruction lua => exact executeRunning_law hknown h
  | request req =>
      rw [step] at h
      cases req with
      | executeInstr lua => exact executeInstr_law hknown h
      | executeFrame lua =>
          obtain ⟨hadds, hknown'⟩ := frameStep_adds hknown hlaw h
          exact ⟨law_of_event rfl .frameStep hadds, hknown'⟩
      | executeFrameNoBreaks lua =>
          obtain ⟨hadds, hknown'⟩ := frameStep_adds hknown hlaw h
          exact ⟨law_of_event rfl .frameStepNoBreaks hadds, hknown'⟩
      | loadRom data addr autorun => exact hlaw.elim
      | stop =>
          cases h
          have hrun : s.status = .run := hlaw
          refine ⟨law_of_event ?_ .pause ⟨rfl, rfl⟩, hknown⟩
          simp [ends, hrun, stop, recordStop, halt, setTraceLog, setDebugger]
      | scriptRunOnce scriptId run =>
          cases h
          refine ⟨scriptRunOnce_law hlaw, ?_⟩
          rw [watchpoints_scriptRunOnce]
          exact hknown
      | internalBeginSession =>
          cases h
          exact ⟨law_of_quiet (ends_status (.inl rfl)) rfl rfl, hknown⟩
      | run =>
          cases h
          exact ⟨law_of_quiet (ends_status (.inr Status.noConfusion)) rfl rfl, hknown⟩
      | exit =>
          cases h
          exact ⟨law_of_quiet (ends_status (.inr Status.noConfusion)) rfl rfl, hknown⟩
      | reset =>
          cases h
          exact ⟨law_of_quiet (ends_status (.inl rfl)) rfl rfl, hknown⟩
      | restart =>
          cases h
          exact ⟨law_of_quiet (ends_status (.inl rfl)) rfl rfl, hknown⟩
      | runHeadless limits =>
          obtain ⟨r, -, hr⟩ := Option.map_eq_some_iff.mp h
          cases hr
          exact ⟨law_of_quiet (ends_status (.inl rfl)) rfl rfl, hknown⟩
      | host req =>
          cases req with
          | setIoPaletteEntry index hwColor =>
              rw [handle] at h
              cases h
              split
              · exact ⟨law_of_quiet (ends_status (.inl rfl)) rfl rfl, hknown⟩
              · exact ⟨law_of_quiet (ends_status (.inl rfl)) rfl rfl, hknown⟩
          | _ =>
              cases h
              exact ⟨law_of_quiet (ends_status (.inl rfl)) rfl rfl, hknown⟩
      | keyHandling op devices =>
          cases op <;> cases h <;> exact ⟨law_of_quiet (ends_status (.inl rfl)) rfl rfl, hknown⟩
      | mountFdd devices autoBoot =>
          cases h
          cases autoBoot
          · exact ⟨law_of_quiet (ends_status (.inl rfl)) rfl rfl, hknown⟩
          · exact ⟨law_of_quiet (ends_status (.inr Status.noConfusion)) rfl rfl, hknown⟩
      | debugReset resetRecorder =>
          cases h
          cases resetRecorder <;> exact ⟨law_of_quiet (ends_status (.inl rfl)) rfl rfl, hknown⟩
      | recorderDeserialize data =>
          obtain ⟨r, -, hr⟩ := Option.map_eq_some_iff.mp h
          split at hr <;> cases hr <;>
            exact ⟨law_of_quiet (ends_status (.inl rfl)) rfl rfl, hknown⟩
      | watchpoints op =>
          cases h
          exact ⟨law_of_quiet (ends_status (.inl rfl)) rfl rfl, hknown.apply op⟩
      | memoryEdits op =>
          cases h
          obtain ⟨hstatus, hadds, hwatchpoints⟩ := s.editMemory_frame op
          refine ⟨law_of_quiet (ends_status (.inl hstatus)) hadds.1 hadds.2, ?_⟩
          rw [hwatchpoints]
          exact hknown
      | traceLogFilter texts addressPattern instructionPattern =>
          rw [handle] at h
          split at h <;> cases h <;>
            exact ⟨law_of_quiet (ends_status (.inl rfl)) rfl rfl, hknown⟩
      | _ =>
          cases h
          exact ⟨law_of_quiet (ends_status (.inl rfl)) rfl rfl, hknown⟩

/-! ## Runs -/

/-- The requests that start the machine anew or join it. -/
def joins : Input δ F → Bool
  | .request .reset => true
  | .request .restart => true
  | .request (.mountFdd _ true) => true
  | .request (.debugAttach _) => true
  | .request .internalBeginSession => true
  | _ => false

theorem joins_adds {dev : Devices δ} {fuel : Nat} {s t : Emulator δ F} {input : Input δ F}
    (hjoins : joins input = true) (h : s.step dev fuel input = some t) : Adds none s t := by
  unfold joins at hjoins
  split at hjoins <;> first | (cases h; exact ⟨rfl, rfl⟩) | cases hjoins

/--
From construction on, as long as nothing is recorded where nothing ends, every step
that ends execution adds one record, which describes it, and no other step adds one.
-/
theorem stop_record_law {dev : Devices δ} {fuel : Nat} {hardware : Hardware δ} {recordFrames : Nat}
    {enabled : Bool} {inputs : List (Input δ F)}
    (hlaw : Runs.Along (step dev fuel) (Lawful dev fuel)
      (new hardware (.new recordFrames enabled)) inputs) :
    Runs.Along (step dev fuel) (fun s input => ∀ t, s.step dev fuel input = some t →
        Law dev s input t ∧ (joins input = true → Adds none s t))
      (new hardware (.new recordFrames enabled)) inputs := by
  apply hlaw.invariant fun s => s.debugger.watchpoints.HitKnown
  · intro s input hknown hinput
    constructor
    · intro t ht
      exact ⟨(lawful_step hknown hinput ht).1, fun hjoins => joins_adds hjoins ht⟩
    · intro t ht
      exact (lawful_step hknown hinput ht).2
  · intro hbreak
    cases hbreak

end Steps

/-- A witness: a new emulator is run, stopped and reset. -/
theorem stop_record_law_stop :
    Runs.Along (step .silent 0) (fun s input => ∀ t, s.step .silent 0 input = some t →
        Law .silent s input t ∧ (joins input = true → Adds none s t))
      blank [.request .run, .request .stop, .request .reset] := by
  refine stop_record_law ⟨trivial, fun s hs => ⟨?_, fun t ht => ⟨trivial, fun _ _ => trivial⟩⟩⟩
  cases hs
  rfl

theorem loadRom_adds (dev : Devices δ) {data : List Byte} {addr : Addr} (autorun : Bool)
    (s : Emulator δ F) (hfits : addr.toNat + data.length ≤ memoryGlobalLen) :
    ∃ t, s.loadRom dev data addr autorun = some t ∧ t.stopSequence = s.stopSequence + 1 := by
  rw [loadRom, if_pos hfits]
  refine ⟨_, rfl, ?_⟩
  cases autorun <;> rfl

/-- Loading a program into a stopped machine records a pause. -/
theorem loadRom_records_pause :
    ¬ Runs.Along (step .silent 0) (fun s input => ∀ t, s.step .silent 0 input = some t →
        Law .silent s input t ∧ (joins input = true → Adds none s t))
      blank [.request (.loadRom [0x76#8] 0x0100#16 false)] := by
  rintro ⟨hlaw, -⟩
  have hfits : (0x0100#16).toNat + [0x76#8].length ≤ memoryGlobalLen := by decide
  obtain ⟨t, ht, hsequence⟩ := blank.loadRom_adds .silent false hfits
  have hkept : t.stopSequence = blank.stopSequence := (hlaw t ht).1.1
  rw [hsequence] at hkept
  exact absurd hkept (by decide)

end Emulator

end V6Emul
