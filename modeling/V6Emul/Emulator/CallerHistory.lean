import V6Emul.Debugger.TraceHistory
import V6Emul.Emulator.Model
import V6Emul.Recorder.Reload

/-!
# The history of callers and the timeline of the machine

A caller is looked up from the live program counter backwards through the recorded
instructions.  What replaces the machine has to empty the records and to change their
generation, so that no cursor outlives it.  Loading a recording replaces the machine and
does neither.
-/

namespace V6Emul

namespace Emulator

variable {δ F : Type}

/-! ## Timelines -/

def acceptsRecording (s : Emulator δ F) : Input δ F → Bool
  | .request (.recorderDeserialize data) =>
      (s.debugger.recorder.deserialize data s.hardware.machine).any fun result =>
        decide (result.1.version &&& Recorder.versionMask = Recorder.formatVersion)
  | _ => false

def replacesTimeline (s : Emulator δ F) : Input δ F → Bool
  | .request .reset => true
  | .request .restart => true
  | .request (.keyHandling op _) => decide (op ≠ .none)
  | .request (.loadRom ..) => true
  | .request (.mountFdd _ autoBoot) => autoBoot
  | .request (.recorderPlayForward _) => true
  | .request (.recorderPlayReverse _) => true
  | .request (.recorderDeserialize data) => s.acceptsRecording (.request (.recorderDeserialize data))
  | _ => false

def lastItem (s : Emulator δ F) : TraceItem :=
  TraceLog.itemOf s.hardware.cpu.pc s.hardware.mem.debug

section Executed

variable [BEq F] [Zero F]

def instructionItems (dev : Devices δ) (lua : LuaCheck F) (s : Emulator δ F) : List TraceItem :=
  ((s.executeInstruction dev lua).map fun r => r.2.lastItem).toList

def frameItems (dev : Devices δ) (lua : Nat → LuaCheck F) (frameNum : BitVec 64) :
    Nat → Emulator δ F → List TraceItem
  | 0, _ => []
  | fuel + 1, s => (s.executeInstruction dev (lua fuel)).elim [] fun r =>
      if r.2.hardware.display.update.frameNum = frameNum then
        frameItems dev lua frameNum fuel r.2 ++ [r.2.lastItem]
      else [r.2.lastItem]

/-- The records of the instructions that a step executes, newest first; `RUN_HEADLESS`
never shows its instructions to the debugger. -/
def executedItems (dev : Devices δ) (fuel : Nat) (s : Emulator δ F) : Input δ F → List TraceItem
  | .instruction lua => s.instructionItems dev lua
  | .request (.executeInstr lua) => s.instructionItems dev lua
  | .request (.executeFrame lua) =>
      s.frameItems dev lua s.hardware.display.update.frameNum fuel
  | .request (.executeFrameNoBreaks lua) =>
      s.frameItems dev lua s.hardware.display.update.frameNum fuel
  | _ => []

structure Chronicle where
  led : List TraceItem
  work : Nat

def Chronicle.start : Chronicle := ⟨[], 0⟩

def Chronicle.next (c : Chronicle) (dev : Devices δ) (fuel : Nat) (s : Emulator δ F)
    (input : Input δ F) : Chronicle where
  led := if s.replacesTimeline input then [] else s.executedItems dev fuel input ++ c.led
  work := c.work + (s.executedItems dev fuel input).length + 1

def stepChronicled (dev : Devices δ) (fuel : Nat) (s : Emulator δ F × Chronicle)
    (input : Input δ F) : Option (Emulator δ F × Chronicle) :=
  (s.1.step dev fuel input).map fun t => (t, s.2.next dev fuel s.1 input)

def chronicled (dev : Devices δ) (fuel : Nat) (s : Emulator δ F) (inputs : List (Input δ F))
    (n : Nat) : Option (Emulator δ F × Chronicle) :=
  Runs.exec (stepChronicled dev fuel) (s, .start) (inputs.take n)

end Executed

structure Rejects (s : Emulator δ F) (generation : BitVec 64) (cursor : Nat) : Prop where
  caller : ∀ rangeStart rangeEnd, ∃ error,
    s.historyCaller ⟨rangeStart, rangeEnd, some (generation, cursor)⟩ = .error error
  successor : ∃ error, s.historySuccessor generation cursor = .error error

structure Historied [BEq F] [Zero F] (dev : Devices δ) (fuel : Nat) (s : Emulator δ F)
    (inputs : List (Input δ F)) : Prop where
  replaced : ∀ n input t u c d, inputs[n]? = some input → chronicled dev fuel s inputs n = some (t, c) →
    chronicled dev fuel s inputs (n + 1) = some (u, d) → t.replacesTimeline input = true →
      u.debugger.traceLog.historyGeneration ≠ t.debugger.traceLog.historyGeneration ∧
        u.debugger.traceLog.historyCount = 0
  stale : ∀ i j k input t u v b c d, i ≤ j → j < k → chronicled dev fuel s inputs i = some (t, b) →
    chronicled dev fuel s inputs j = some (u, c) → inputs[j]? = some input →
      u.replacesTimeline input = true → chronicled dev fuel s inputs k = some (v, d) →
        ∀ query generation callerPc entrancePc cursor,
          t.historyCaller query = .ok (.found generation callerPc entrancePc cursor) →
            v.Rejects generation cursor
  caller : ∀ n t c, chronicled dev fuel s inputs n = some (t, c) → t.status ≠ .run →
    ∃ items, items.Sublist c.led ∧ ∀ query, t.historyCaller query =
      TraceLog.callerIn items t.debugger.traceLog.historyGeneration query t.hardware.cpu.pc.word

/-! ## The log of one step -/

structure Grows (t : TraceLog) (items : List TraceItem) (u : TraceLog) : Prop where
  retains : ∀ old, t.Retains old → ∃ kept, u.Retains kept ∧ kept.Sublist (items ++ old)
  generation : ∃ k ≤ items.length,
    u.historyGeneration = t.historyGeneration + BitVec.ofNat 64 k

theorem Grows.refl (t : TraceLog) : Grows t [] t where
  retains := fun old hold => ⟨old, hold, List.Sublist.refl old⟩
  generation := ⟨0, Nat.le_refl 0, (BitVec.add_zero _).symm⟩

theorem Grows.trans {t u v : TraceLog} {items later : List TraceItem} (htu : Grows t items u)
    (huv : Grows u later v) : Grows t (later ++ items) v where
  retains := by
    intro old hold
    obtain ⟨kept, hkept, hsub⟩ := htu.retains old hold
    obtain ⟨kept', hkept', hsub'⟩ := huv.retains kept hkept
    refine ⟨kept', hkept', hsub'.trans ?_⟩
    rw [List.append_assoc]
    exact (List.append_sublist_append_left later).mpr hsub
  generation := by
    obtain ⟨k, hk, hgeneration⟩ := htu.generation
    obtain ⟨k', hk', hgeneration'⟩ := huv.generation
    refine ⟨k + k', ?_, ?_⟩
    · rw [List.length_append]
      omega
    · rw [hgeneration', hgeneration, BitVec.add_assoc, ← BitVec.ofNat_add]

theorem Grows.unrecorded {t u : TraceLog} (h : Grows t [] u) (item : TraceItem) :
    Grows t [item] u where
  retains := by
    intro old hold
    obtain ⟨kept, hkept, hsub⟩ := h.retains old hold
    exact ⟨kept, hkept, hsub.trans (List.sublist_cons_self item old)⟩
  generation := by
    obtain ⟨k, hk, hgeneration⟩ := h.generation
    exact ⟨k, hk.trans (Nat.zero_le 1), hgeneration⟩

theorem grows_update (t : TraceLog) (pc : RegPair) (debug : Debug) :
    Grows t [TraceLog.itemOf pc debug] (t.update pc debug) where
  retains := fun _ hold => hold.update pc debug
  generation := by
    rcases t.historyGeneration_update pc debug with hsame | hnext
    · exact ⟨0, Nat.zero_le 1, hsame.trans (BitVec.add_zero _).symm⟩
    · exact ⟨1, Nat.le_refl 1, hnext⟩

section Run

variable [BEq F] [Zero F]

theorem grows_hook (lua : LuaCheck F) (s : Emulator δ F) :
    Grows s.debugger.traceLog [(s.hook lua).2.lastItem] (s.hook lua).2.debugger.traceLog := by
  rw [hook]
  split
  · rw [debug]
    cases (s.checkBreaks lua).1 with
    | none => exact grows_update _ _ _
    | some event => exact grows_update _ _ _
  · exact (Grows.refl _).unrecorded _

omit [BEq F] [Zero F] in
theorem lastItem_checkException (s : Emulator δ F) :
    s.checkException.2.lastItem = s.lastItem ∧
      s.checkException.2.debugger.traceLog = s.debugger.traceLog := by
  have hmapping : ∀ h : Hardware δ, h.checkMapping.2.cpu = h.cpu ∧
      h.checkMapping.2.mem.debug = h.mem.debug := by
    intro h
    rw [Hardware.checkMapping]
    dsimp only
    split <;> exact ⟨rfl, rfl⟩
  obtain ⟨hcpu, hdebug⟩ := hmapping s.hardware
  rw [checkException]
  split
  · refine ⟨?_, rfl⟩
    rw [lastItem, recordStop, hcpu, hdebug, lastItem]
  · refine ⟨?_, rfl⟩
    rw [lastItem, hcpu, hdebug, lastItem]

theorem grows_executeInstruction {dev : Devices δ} {lua : LuaCheck F} {s : Emulator δ F}
    {r : Bool × Emulator δ F} (h : s.executeInstruction dev lua = some r) :
    Grows s.debugger.traceLog [r.2.lastItem] r.2.debugger.traceLog := by
  rw [executeInstruction, Option.map_eq_some_iff] at h
  obtain ⟨hardware, -, h⟩ := h
  have hhook := grows_hook lua { s with hardware := hardware }
  dsimp only at h
  split at h
  · cases h
    exact hhook
  · cases h
    obtain ⟨hitem, hlog⟩ := lastItem_checkException ({ s with hardware := hardware }.hook lua).2
    rw [hitem, hlog]
    exact hhook

theorem grows_instructionItems {dev : Devices δ} {lua : LuaCheck F} {s : Emulator δ F}
    {r : Bool × Emulator δ F} (h : s.executeInstruction dev lua = some r) :
    Grows s.debugger.traceLog (s.instructionItems dev lua) r.2.debugger.traceLog := by
  rw [instructionItems, h]
  exact grows_executeInstruction h

theorem grows_executeFrameLoop {dev : Devices δ} {lua : Nat → LuaCheck F} {frameNum : BitVec 64}
    {fuel : Nat} {s t : Emulator δ F} (h : s.executeFrameLoop dev lua frameNum fuel = some t) :
    Grows s.debugger.traceLog (s.frameItems dev lua frameNum fuel) t.debugger.traceLog := by
  induction fuel generalizing s with
  | zero => cases h
  | succ fuel ih =>
      rw [executeFrameLoop] at h
      obtain ⟨r, hr, h⟩ := Option.bind_eq_some_iff.mp h
      have hfirst := grows_executeInstruction hr
      rw [frameItems, hr, Option.elim_some]
      split at h
      · rename_i hframe
        rw [if_pos hframe]
        exact hfirst.trans (ih h)
      · rename_i hframe
        cases h
        rw [if_neg hframe]
        exact hfirst

/-! ## One step of the emulator -/

structure Continues (dev : Devices δ) (fuel : Nat) (s : Emulator δ F) (input : Input δ F)
    (t : Emulator δ F) : Prop where
  retains : ∀ items, s.debugger.traceLog.Retains items →
    ∃ kept, t.debugger.traceLog.Retains kept ∧
      kept.Sublist (if s.replacesTimeline input then [] else s.executedItems dev fuel input ++ items)
  generation : ∃ k ≤ (s.executedItems dev fuel input).length + 1,
    t.debugger.traceLog.historyGeneration =
      s.debugger.traceLog.historyGeneration + BitVec.ofNat 64 k ∧
        (s.replacesTimeline input = true → k = 1)

theorem continues_of_grows {dev : Devices δ} {fuel : Nat} {s t : Emulator δ F}
    {input : Input δ F} (hgoes : s.replacesTimeline input = false)
    (h : Grows s.debugger.traceLog (s.executedItems dev fuel input) t.debugger.traceLog) :
    Continues dev fuel s input t where
  retains := by
    intro items hitems
    rw [if_neg (by rw [hgoes]; exact Bool.false_ne_true)]
    exact h.retains items hitems
  generation := by
    obtain ⟨k, hk, hgeneration⟩ := h.generation
    exact ⟨k, hk.trans (Nat.le_succ _), hgeneration, fun h => Bool.noConfusion (hgoes.symm.trans h)⟩

theorem continues_of_reset {dev : Devices δ} {fuel : Nat} {s t : Emulator δ F} {input : Input δ F}
    (log : TraceLog) (hlog : t.debugger.traceLog = log.reset)
    (hgeneration : log.historyGeneration = s.debugger.traceLog.historyGeneration) :
    Continues dev fuel s input t where
  retains := fun _ _ => ⟨[], hlog ▸ log.retains_reset, List.nil_sublist _⟩
  generation := by
    refine ⟨1, Nat.succ_le_succ (Nat.zero_le _), ?_, fun _ => rfl⟩
    rw [hlog, ← hgeneration]
    rfl

omit [BEq F] [Zero F] in
theorem grows_invalidateFilter (t : TraceLog) : Grows t [] t.invalidateFilter where
  retains := fun old hold => ⟨old, ⟨hold.window, hold.count⟩, List.Sublist.refl old⟩
  generation := ⟨0, Nat.le_refl 0, (BitVec.add_zero _).symm⟩

omit [BEq F] [Zero F] in
theorem grows_createFilter (t : TraceLog) (texts : TraceTexts)
    (addressPattern instructionPattern : String) :
    Grows t [] (t.createFilter texts addressPattern instructionPattern) where
  retains := fun old hold => ⟨old, ⟨hold.window, hold.count⟩, List.Sublist.refl old⟩
  generation := ⟨0, Nat.le_refl 0, (BitVec.add_zero _).symm⟩

theorem continues_of_same {dev : Devices δ} {fuel : Nat} {s t : Emulator δ F} {input : Input δ F}
    (hgoes : s.replacesTimeline input = false) (hitems : s.executedItems dev fuel input = [])
    (hlog : t.debugger.traceLog = s.debugger.traceLog) : Continues dev fuel s input t := by
  apply continues_of_grows hgoes
  rw [hitems, hlog]
  exact .refl _

theorem continues_executeRunning {dev : Devices δ} {fuel : Nat} {lua : LuaCheck F}
    {s t : Emulator δ F} (h : s.executeRunning dev lua = some t) :
    Continues dev fuel s (.instruction lua) t := by
  rw [executeRunning] at h
  split at h
  · obtain ⟨⟨broke, u⟩, hu, h⟩ := Option.map_eq_some_iff.mp h
    have hitems := grows_instructionItems hu
    apply continues_of_grows rfl
    cases broke with
    | true =>
        cases h
        exact hitems.trans (grows_invalidateFilter u.debugger.traceLog)
    | false =>
        cases h
        exact hitems
  · cases h

omit [BEq F] [Zero F] in
theorem traceLog_editMemory (op : MemoryEditOp) (s : Emulator δ F) :
    (s.editMemory op).debugger.traceLog = s.debugger.traceLog := by
  cases op <;> simp only [editMemory] <;> try split
  all_goals rfl

theorem grows_scriptRunOnce (scriptId : Id) (run : LuaRun F) (s : Emulator δ F) :
    Grows s.debugger.traceLog [] (s.scriptRunOnce scriptId run).debugger.traceLog := by
  rw [scriptRunOnce]
  rcases s.debugger.scripts.runOnce scriptId run with ⟨error | result, scripts⟩
  · exact .refl _
  · dsimp only
    split
    · exact grows_invalidateFilter s.debugger.traceLog
    · exact .refl _

theorem continues_loadRom {dev : Devices δ} {fuel : Nat} {data : List Byte} {addr : Addr}
    {autorun : Bool} {s t : Emulator δ F} (h : s.loadRom dev data addr autorun = some t) :
    Continues dev fuel s (.request (.loadRom data addr autorun)) t := by
  rw [loadRom] at h
  split at h
  · cases h
    cases autorun <;>
      exact continues_of_reset s.debugger.traceLog.invalidateFilter rfl rfl
  · cases h

theorem continues_deserialize {dev : Devices δ} {fuel : Nat} {data : List Byte}
    {s t : Emulator δ F}
    (hkeeps : s.acceptsRecording (.request (.recorderDeserialize data)) = false)
    (h : s.deserialize data = some t) :
    Continues dev fuel s (.request (.recorderDeserialize data)) t := by
  rw [deserialize] at h
  obtain ⟨result, hresult, h⟩ := Option.map_eq_some_iff.mp h
  rw [acceptsRecording, hresult] at hkeeps
  have hversion : ¬ result.1.version &&& Recorder.versionMask = Recorder.formatVersion := by
    simpa using hkeeps
  rw [if_neg hversion] at h
  cases h
  refine continues_of_same ?_ rfl rfl
  rw [replacesTimeline, acceptsRecording, hresult]
  exact hkeeps

theorem continues {dev : Devices δ} {fuel : Nat} {s t : Emulator δ F} {input : Input δ F}
    (hkeeps : s.acceptsRecording input = false) (h : s.step dev fuel input = some t) :
    Continues dev fuel s input t := by
  cases input with
  | instruction lua => exact continues_executeRunning h
  | request req =>
      rw [step] at h
      cases req with
      | reset =>
          cases h
          exact continues_of_reset s.debugger.traceLog rfl rfl
      | restart =>
          cases h
          exact continues_of_reset s.debugger.traceLog rfl rfl
      | stop =>
          cases h
          exact continues_of_grows rfl (grows_invalidateFilter s.debugger.traceLog)
      | executeInstr lua =>
          obtain ⟨⟨broke, u⟩, hu, h⟩ := Option.map_eq_some_iff.mp h
          have hitems := grows_instructionItems hu
          cases broke <;> cases h <;> exact continues_of_grows rfl hitems
      | executeFrame lua =>
          obtain ⟨u, hu, h⟩ := Option.map_eq_some_iff.mp h
          cases h
          have hitems := grows_executeFrameLoop hu
          exact continues_of_grows rfl hitems
      | executeFrameNoBreaks lua =>
          obtain ⟨u, hu, h⟩ := Option.map_eq_some_iff.mp h
          cases h
          have hitems := grows_executeFrameLoop hu
          exact continues_of_grows rfl hitems
      | runHeadless limits =>
          obtain ⟨r, -, h⟩ := Option.map_eq_some_iff.mp h
          cases h
          exact continues_of_same rfl rfl rfl
      | host req =>
          apply continues_of_same rfl rfl
          cases req with
          | setIoPaletteEntry index hwColor =>
              rw [handle] at h
              cases h
              split <;> rfl
          | _ =>
              cases h
              rfl
      | keyHandling op devices =>
          cases op with
          | none =>
              cases h
              exact continues_of_same rfl rfl rfl
          | reset =>
              cases h
              exact continues_of_reset s.debugger.traceLog rfl rfl
          | restart =>
              cases h
              exact continues_of_reset s.debugger.traceLog rfl rfl
      | loadRom data addr autorun => exact continues_loadRom h
      | mountFdd devices autoBoot =>
          cases h
          cases autoBoot with
          | true => exact continues_of_reset s.debugger.traceLog rfl rfl
          | false => exact continues_of_same rfl rfl rfl
      | debugReset resetRecorder =>
          cases h
          cases resetRecorder <;>
            exact continues_of_reset s.debugger.traceLog rfl rfl
      | recorderPlayForward frames =>
          cases h
          exact continues_of_reset s.debugger.traceLog rfl rfl
      | recorderPlayReverse frames =>
          cases h
          exact continues_of_reset s.debugger.traceLog rfl rfl
      | recorderDeserialize data => exact continues_deserialize hkeeps h
      | memoryEdits op =>
          cases h
          exact continues_of_same rfl rfl (traceLog_editMemory op s)
      | scriptRunOnce scriptId runs =>
          cases h
          exact continues_of_grows rfl (grows_scriptRunOnce scriptId runs s)
      | traceLogFilter texts addressPattern instructionPattern =>
          rw [handle] at h
          split at h
          · cases h
            exact continues_of_same rfl rfl rfl
          · cases h
            exact continues_of_grows rfl (grows_createFilter s.debugger.traceLog _ _ _)
      | _ =>
          cases h
          exact continues_of_same rfl rfl rfl

/-! ## Runs -/

theorem stepChronicled_fst (dev : Devices δ) (fuel : Nat) (s : Emulator δ F × Chronicle)
    (input : Input δ F) : (stepChronicled dev fuel s input).map Prod.fst = s.1.step dev fuel input := by
  rw [stepChronicled, Option.map_map]
  exact Option.map_id'

omit [BEq F] [Zero F] in
theorem traceLog_deserialize {data : List Byte} {s t : Emulator δ F}
    (h : s.deserialize data = some t) : t.debugger.traceLog = s.debugger.traceLog := by
  rw [deserialize] at h
  obtain ⟨result, -, h⟩ := Option.map_eq_some_iff.mp h
  split at h <;> cases h <;> rfl

def Later (s t : Emulator δ F × Chronicle) : Prop :=
  ∃ k, s.2.work + k ≤ t.2.work ∧ t.1.debugger.traceLog.historyGeneration =
    s.1.debugger.traceLog.historyGeneration + BitVec.ofNat 64 k

theorem later_step {dev : Devices δ} {fuel : Nat} (s : Emulator δ F × Chronicle)
    (input : Input δ F) (t : Emulator δ F × Chronicle)
    (h : stepChronicled dev fuel s input = some t) : Later s t := by
  obtain ⟨u, hu, rfl⟩ := Option.map_eq_some_iff.mp h
  cases hkeeps : s.1.acceptsRecording input with
  | false =>
      obtain ⟨k, hk, hgeneration, -⟩ := (continues hkeeps hu).generation
      refine ⟨k, ?_, hgeneration⟩
      change s.2.work + k ≤ s.2.work + _ + 1
      omega
  | true =>
      have hlog : u.debugger.traceLog = s.1.debugger.traceLog := by
        cases input with
        | instruction lua => cases hkeeps
        | request req =>
            cases req with
            | recorderDeserialize data => exact traceLog_deserialize hu
            | _ => cases hkeeps
      refine ⟨0, Nat.le_trans (Nat.le_add_right _ _) (Nat.le_add_right _ _), ?_⟩
      rw [hlog]
      exact (BitVec.add_zero _).symm

omit [BEq F] [Zero F] in
theorem Later.refl (s : Emulator δ F × Chronicle) : Later s s :=
  ⟨0, Nat.le_refl _, (BitVec.add_zero _).symm⟩

omit [BEq F] [Zero F] in
theorem Later.trans {s t u : Emulator δ F × Chronicle} (hst : Later s t) (htu : Later t u) :
    Later s u := by
  obtain ⟨k, hk, hgeneration⟩ := hst
  obtain ⟨k', hk', hgeneration'⟩ := htu
  refine ⟨k + k', by omega, ?_⟩
  rw [hgeneration', hgeneration, BitVec.add_assoc, ← BitVec.ofNat_add]

theorem later_of_le {dev : Devices δ} {fuel : Nat} {s : Emulator δ F} {inputs : List (Input δ F)}
    {m n : Nat} {t u : Emulator δ F × Chronicle} (hle : m ≤ n)
    (ht : chronicled dev fuel s inputs m = some t) (hu : chronicled dev fuel s inputs n = some u) :
    Later t u := by
  obtain ⟨p, rest, hp, hrest⟩ := Runs.exec_take_le hle hu
  have hsame : some p = some t := hp.symm.trans ht
  cases hsame
  exact Runs.exec_relates Later.refl Later.trans later_step hrest

omit [BEq F] [Zero F] in
theorem generation_of_found {t : TraceLog} {query : CallerQuery} {livePc : Addr}
    {generation : BitVec 64} {callerPc entrancePc : Addr} {cursor : Nat}
    (h : t.findCaller query livePc = .ok (.found generation callerPc entrancePc cursor)) :
    generation = t.historyGeneration := by
  have hscan : ∀ n cursor₀ destination, t.scanCaller query.rangeStart query.rangeEnd n cursor₀
      destination = .found generation callerPc entrancePc cursor →
        generation = t.historyGeneration := by
    intro n
    induction n with
    | zero => exact fun _ _ hfound => CallerResult.noConfusion hfound
    | succ n ih =>
        intro cursor₀ destination hfound
        rw [TraceLog.scanCaller] at hfound
        split at hfound
        · cases hfound
          rfl
        · exact ih _ _ hfound
  rw [TraceLog.findCaller] at h
  generalize query.continues = continued at h
  split at h
  · cases h
  · cases continued with
    | none => exact hscan _ _ _ (Except.ok.inj h)
    | some continued =>
        dsimp only at h
        split at h
        · cases h
        · split at h
          · cases h
          · exact hscan _ _ _ (Except.ok.inj h)

omit [BEq F] [Zero F] in
theorem rejects_of_ne {s : Emulator δ F} {generation : BitVec 64} {cursor : Nat}
    (hne : generation ≠ s.debugger.traceLog.historyGeneration) : s.Rejects generation cursor where
  caller := by
    intro rangeStart rangeEnd
    rw [historyCaller]
    split
    · exact ⟨_, rfl⟩
    · rw [TraceLog.findCaller]
      split
      · exact ⟨_, rfl⟩
      · dsimp only
        rw [if_pos hne]
        exact ⟨_, rfl⟩
  successor := by
    rw [historySuccessor]
    split
    · exact ⟨_, rfl⟩
    · rw [TraceLog.callerSuccessor, if_pos hne]
      exact ⟨_, rfl⟩

def Unloaded (dev : Devices δ) (fuel : Nat) (s : Emulator δ F) (inputs : List (Input δ F)) : Prop :=
  Runs.Along (step dev fuel) (fun s input => s.acceptsRecording input = false) s inputs

theorem unloaded_iff {dev : Devices δ} {fuel : Nat} {s : Emulator δ F}
    {inputs : List (Input δ F)} :
    Unloaded dev fuel s inputs ↔ ∀ n input t c, chronicled dev fuel s inputs n = some (t, c) →
      inputs[n]? = some input → t.acceptsRecording input = false := by
  have hstates := fun n => Runs.exec_comap (f := Prod.fst) (stepChronicled_fst dev fuel)
    (s, Chronicle.start) (inputs.take n)
  rw [Unloaded, Runs.along_iff_take]
  constructor
  · intro h n input t c ht hinput
    refine h n input t ?_ hinput
    rw [← hstates n, show Runs.exec _ _ _ = _ from ht]
    rfl
  · intro h n input t ht hinput
    rw [← hstates n] at ht
    obtain ⟨⟨t, c⟩, hc, rfl⟩ := Option.map_eq_some_iff.mp ht
    exact h n input t c hc hinput

theorem chronicled_succ {dev : Devices δ} {fuel : Nat} {s t u : Emulator δ F}
    {inputs : List (Input δ F)} {n : Nat} {c d : Chronicle} {input : Input δ F}
    (ht : chronicled dev fuel s inputs n = some (t, c)) (hinput : inputs[n]? = some input)
    (hu : chronicled dev fuel s inputs (n + 1) = some (u, d)) :
    t.step dev fuel input = some u ∧ d = c.next dev fuel t input := by
  have hsucc := Runs.exec_take_succ ht hinput
  rw [show Runs.exec _ _ _ = _ from hu] at hsucc
  obtain ⟨v, hv, heq⟩ := Option.map_eq_some_iff.mp hsucc.symm
  cases heq
  exact ⟨hv, rfl⟩

theorem retains_chronicled {dev : Devices δ} {fuel : Nat} {s : Emulator δ F}
    {inputs : List (Input δ F)} (hstart : s.debugger.traceLog.Retains [])
    (hunloaded : Unloaded dev fuel s inputs) {n : Nat} {t : Emulator δ F} {c : Chronicle}
    (h : chronicled dev fuel s inputs n = some (t, c)) :
    ∃ kept, t.debugger.traceLog.Retains kept ∧ kept.Sublist c.led := by
  have hpairs : Runs.Along (stepChronicled dev fuel)
      (fun p input => p.1.acceptsRecording input = false) (s, Chronicle.start) inputs := by
    have hfst : ∀ (p : Emulator δ F × Chronicle) input q, stepChronicled dev fuel p input = some q →
        p.1.step dev fuel input = some q.1 := by
      intro p input q hq
      rw [← stepChronicled_fst, hq]
      rfl
    exact Runs.Along.comap (P := fun s input => s.acceptsRecording input = false) hfst hunloaded
  refine hpairs.invariant_take (fun p => ∃ kept, p.1.debugger.traceLog.Retains kept ∧
    kept.Sublist p.2.led) ?_ ⟨[], hstart, List.Sublist.refl _⟩ n h
  rintro ⟨p, c⟩ input ⟨kept, hkept, hsub⟩ hkeeps q hq
  obtain ⟨u, hu, rfl⟩ := Option.map_eq_some_iff.mp hq
  obtain ⟨kept', hkept', hsub'⟩ := (continues hkeeps hu).retains kept hkept
  refine ⟨kept', hkept', hsub'.trans ?_⟩
  rw [Chronicle.next]
  split
  · exact List.Sublist.refl _
  · exact (List.append_sublist_append_left _).mpr hsub

omit [BEq F] [Zero F] in
theorem ne_of_advanced {x y : BitVec 64} {k : Nat} (hpos : 0 < k) (hlt : k < 2 ^ 64)
    (h : y = x + BitVec.ofNat 64 k) : x ≠ y := by
  intro heq
  rw [← heq] at h
  have hnat := congrArg BitVec.toNat h
  rw [BitVec.toNat_add, BitVec.toNat_ofNat] at hnat
  have hx := x.isLt
  omega

theorem historied_of_unloaded {dev : Devices δ} {fuel : Nat} {s : Emulator δ F}
    {inputs : List (Input δ F)} (hstart : s.debugger.traceLog.Retains [])
    (hwork : ∀ n t c, chronicled dev fuel s inputs n = some (t, c) → c.work < 2 ^ 64)
    (hunloaded : Unloaded dev fuel s inputs) : Historied dev fuel s inputs where
  replaced := by
    intro n input t u c d hinput ht hu hreplaces
    obtain ⟨hstep, -⟩ := chronicled_succ ht hinput hu
    have hcontinues := continues (unloaded_iff.mp hunloaded n input t c ht hinput) hstep
    constructor
    · obtain ⟨k, -, hgeneration, hone⟩ := hcontinues.generation
      rw [hone hreplaces] at hgeneration
      exact (ne_of_advanced Nat.one_pos (by decide) hgeneration).symm
    · obtain ⟨kept, hkept, -⟩ := retains_chronicled hstart hunloaded ht
      obtain ⟨kept', hkept', hsub⟩ := hcontinues.retains kept hkept
      rw [if_pos hreplaces, List.sublist_nil] at hsub
      rw [hkept'.count, hsub]
      rfl
  stale := by
    intro i j k input t u v b c d hij hjk ht hu hinput hreplaces hv query generation callerPc
      entrancePc cursor hfound
    obtain ⟨⟨w, e⟩, rest, hw, hrest⟩ := Runs.exec_take_le (Nat.succ_le_of_lt hjk) hv
    obtain ⟨hstep, rfl⟩ := chronicled_succ hu hinput hw
    have hkeeps := unloaded_iff.mp hunloaded j input u c hu hinput
    obtain ⟨one, -, hreplaced, hone⟩ := (continues hkeeps hstep).generation
    obtain ⟨before, hbefore, hissued⟩ := later_of_le hij ht hu
    obtain ⟨later, hlater, hused⟩ := later_of_le (Nat.succ_le_of_lt hjk) hw hv
    have hadvanced : v.debugger.traceLog.historyGeneration =
        t.debugger.traceLog.historyGeneration + BitVec.ofNat 64 (before + 1 + later) := by
      rw [hused, hreplaced, hone hreplaces, hissued, BitVec.ofNat_add, BitVec.ofNat_add,
        BitVec.add_assoc, BitVec.add_assoc, BitVec.add_assoc]
    have hbound : before + 1 + later < 2 ^ 64 := by
      have hd := hwork k v d hv
      change b.work + before ≤ c.work at hbefore
      change c.work + _ + 1 + later ≤ d.work at hlater
      omega
    apply rejects_of_ne
    rw [historyCaller] at hfound
    split at hfound
    · cases hfound
    · rw [generation_of_found hfound]
      exact ne_of_advanced (by omega) hbound hadvanced
  caller := by
    intro n t c h hstopped
    obtain ⟨kept, hkept, hsub⟩ := retains_chronicled hstart hunloaded h
    refine ⟨kept, hsub, fun query => ?_⟩
    rw [historyCaller, if_neg hstopped]
    exact hkept.findCaller query _

theorem unloaded_of_historied {dev : Devices δ} {fuel : Nat} {s : Emulator δ F}
    {inputs : List (Input δ F)} (h : Historied dev fuel s inputs) :
    Unloaded dev fuel s inputs := by
  apply unloaded_iff.mpr
  intro n input t c ht hinput
  cases hloads : t.acceptsRecording input with
  | false => rfl
  | true =>
      cases input with
      | instruction lua => cases hloads
      | request req =>
          cases req with
          | recorderDeserialize data =>
              obtain ⟨u, hu⟩ : ∃ u, t.deserialize data = some u := by
                cases hresult : t.debugger.recorder.deserialize data t.hardware.machine with
                | none =>
                    rw [acceptsRecording, hresult] at hloads
                    cases hloads
                | some result => exact ⟨_, congrArg (Option.map _) hresult⟩
              have hsucc : chronicled dev fuel s inputs (n + 1) =
                  some (u, c.next dev fuel t (.request (.recorderDeserialize data))) := by
                rw [chronicled, Runs.exec_take_succ ht hinput, stepChronicled]
                exact congrArg (Option.map _) hu
              have hchanged := (h.replaced n _ t u c _ hinput ht hsucc hloads).1
              exact absurd (congrArg TraceLog.historyGeneration (traceLog_deserialize hu)) hchanged
          | _ => cases hloads

/--
For every run of a new emulator in which fewer than 2^64 instructions are executed and
requests handled: the history keeps to its timeline exactly when no recording is loaded.
-/
theorem history_keeps_timeline_iff {dev : Devices δ} {fuel : Nat} {hardware : Hardware δ}
    {recordFrames : Nat} {enabled : Bool} {inputs : List (Input δ F)}
    (hwork : ∀ n t c, chronicled dev fuel (new hardware (.new recordFrames enabled)) inputs n =
      some (t, c) → c.work < 2 ^ 64) :
    Historied dev fuel (new hardware (.new recordFrames enabled)) inputs ↔
      Unloaded dev fuel (new hardware (.new recordFrames enabled)) inputs :=
  ⟨unloaded_of_historied, historied_of_unloaded TraceLog.retains_new hwork⟩

end Run

def attachedRun : List (Input Unit Int) :=
  [.request (.debugAttach true), .request .run, .instruction noLua, .request .reset]

/-- A witness: the history keeps to its timeline, and has one record before the reset. -/
theorem history_keeps_timeline_iff_attached :
    Historied .silent 0 blank attachedRun ∧
      (chronicled .silent 0 blank attachedRun 3).map
        (fun p => (p.1.debugger.traceLog.historyCount, p.2.work)) = some (1, 4) := by
  refine ⟨(history_keeps_timeline_iff ?_).mpr ?_, by decide +kernel⟩
  · intro n t c h
    have hstate : chronicled .silent 0 blank attachedRun n = some (t, c) := h
    have hwork : ∀ n ≤ 4, (chronicled .silent 0 blank attachedRun n).all
        (fun p => decide (p.2.work ≤ 5)) = true := by
      decide +kernel
    have hlast : chronicled .silent 0 blank attachedRun (min n 4) = some (t, c) := by
      rw [← hstate, chronicled, chronicled, ← List.take_length (l := attachedRun), List.take_take,
        List.take_take]
      congr 2
      exact (Nat.min_assoc _ _ _).trans (congrArg _ (Nat.min_self 4))
    have hle := hwork (min n 4) (Nat.min_le_right n 4)
    rw [hlast] at hle
    have hfive : c.work ≤ 5 := of_decide_eq_true hle
    omega
  · exact ⟨rfl, fun _ _ => ⟨rfl, fun _ _ => ⟨rfl, fun _ _ => ⟨rfl, fun _ _ => trivial⟩⟩⟩⟩

def freshRecorder : Recorder := blank.resetRecorder.debugger.recorder

theorem acceptsRecording_fresh : blank.resetRecorder.acceptsRecording
    (.request (.recorderDeserialize freshRecorder.serialize)) = true := by
  have hversion : freshRecorder.version &&& Recorder.versionMask = Recorder.formatVersion := by
    decide
  have hstates : freshRecorder.serializedStates = [freshRecorder.states 1] := by
    decide
  have hencodable : ∀ x ∈ freshRecorder.serializedStates, x.Encodable := by
    intro x hx
    have hlog : (freshRecorder.states 1).log = [] := by decide
    rw [hstates, List.mem_singleton] at hx
    rw [hx]
    refine ⟨by rw [hlog]; decide, fun e he => ?_⟩
    rw [hlog] at he
    exact absurd he List.not_mem_nil
  obtain ⟨states, hloaded, -⟩ := Recorder.deserialize_serialize freshRecorder freshRecorder
    blank.resetRecorder.hardware.machine hversion (by decide) (by decide) _ [] hstates rfl hencodable
  rw [acceptsRecording, show blank.resetRecorder.debugger.recorder = freshRecorder from rfl, hloaded,
    Option.any_some]
  exact decide_eq_true hversion

/-- A recording is loaded into the emulator that it was made by. -/
theorem deserialize_keeps_history : ¬ Historied .silent 0 blank
    [.request .recorderReset, .request (.recorderDeserialize freshRecorder.serialize)] := by
  intro h
  have hunloaded := unloaded_of_historied h
  have hkeeps := hunloaded.2 blank.resetRecorder rfl
  exact Bool.noConfusion (acceptsRecording_fresh.symm.trans hkeeps.1)

end Emulator

end V6Emul
