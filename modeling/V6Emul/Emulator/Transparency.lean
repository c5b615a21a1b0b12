import V6Emul.Emulator.Protection

/-!
# A debugger that looks on

The hook touches the machine where it puts a read-only byte back and where a break keeps
`IsException` from noticing a collision.  Otherwise a program runs under the debugger, with
its breakpoints, scripts, traces and records, as it runs without one.
-/

namespace V6Emul

variable {δ F : Type}

/-! ## The hook -/

namespace Debugger

theorem checkWrite_quiet {edits : MemoryEdits} {i : Fin 2} {mem : Memory} (w : Watchpoints)
    (h : mem.debug.writeLen ≤ i ∨ edits.protects (mem.debug.writeGlobalAddr i) = false) :
    (checkWrite edits i (mem, w)).1 = mem := by
  simp only [checkWrite]
  split
  · rfl
  · rename_i hwritten
    have hspared := h.resolve_left hwritten
    rw [MemoryEdits.protects] at hspared
    simp [hspared]

theorem checkWrites_quiet {edits : MemoryEdits} {mem : Memory} (w : Watchpoints)
    (h : ∀ e ∈ mem.debug.entries, edits.protects e.addr = false) :
    (checkWrites edits (mem, w)).1 = mem := by
  have hat : ∀ i : Fin 2,
      mem.debug.writeLen ≤ i ∨ edits.protects (mem.debug.writeGlobalAddr i) = false := by
    intro i
    refine or_iff_not_imp_left.mpr fun hwritten => h (mem.debug.entry i) ?_
    rw [Debug.entries, List.mem_take_iff_getElem]
    refine ⟨i, lt_min (Nat.lt_of_not_le hwritten) i.isLt, ?_⟩
    obtain rfl | rfl : i = 0 ∨ i = 1 := by omega
    · rfl
    · rfl
  have hfirst := checkWrite_quiet w (hat 0)
  rw [checkWrites]
  generalize checkWrite edits 0 (mem, w) = first at hfirst ⊢
  obtain ⟨mem', w'⟩ := first
  cases hfirst
  exact checkWrite_quiet w' (hat 1)

end Debugger

theorem Recorder.lastRecord_update (r : Recorder) (m : Machine) :
    (r.update m).lastRecord = true := by
  have hresumed : (if r.lastRecord then r else r.cleanMemUpdates).lastRecord = true := by
    split
    · assumption
    · rfl
  simp only [Recorder.update]
  generalize (if r.lastRecord then r else r.cleanMemUpdates) = resumed at hresumed
  split_ifs <;> exact hresumed

namespace Emulator

theorem record_live {s : Emulator δ F} (hlive : s.debugger.recorder.lastRecord = true) :
    s.record.hardware = s.hardware ∧ s.record.debugger.recorder.lastRecord = true := by
  refine ⟨?_, Recorder.lastRecord_update _ _⟩
  simp [record, setDebugger, setHardware, hlive]

variable [BEq F] [Zero F]

theorem debug_quiet (lua : LuaCheck F) {s : Emulator δ F}
    (hspared : ∀ e ∈ s.hardware.mem.debug.entries, s.debugger.memoryEdits.protects e.addr = false)
    (hlive : s.debugger.recorder.lastRecord = true) :
    (s.debug lua).2.hardware = s.hardware ∧
      (s.debug lua).2.debugger.recorder.lastRecord = true := by
  have hmem : s.checkAccesses.1 = s.hardware.mem := Debugger.checkWrites_quiet _ hspared
  have hchecked : (s.checkBreaks lua).2.hardware = s.hardware := by
    change s.hardware.setMem s.checkAccesses.1 = _
    rw [hmem]
    rfl
  cases hevent : (s.checkBreaks lua).1 with
  | none =>
      rw [debug_none hevent, ← hchecked]
      exact record_live hlive
  | some event =>
      rw [debug_some hevent, ← hchecked]
      exact record_live hlive

/-! ## One instruction -/

/-- The emulator's machine and one without a debugger, but for the count of the mappings. -/
structure Beside (s : Emulator δ F) (h : Hardware δ) : Prop where
  hardware : s.hardware = h.withCount s.hardware.mem.mappingsEnabled
  counts : s.hardware.mem.mappingsEnabled ≤ 1 ∧ h.mem.mappingsEnabled ≤ 1
  parked : h.Parked
  live : s.debugger.recorder.lastRecord = true

/--
The instruction stores to no read-only byte under the debugger, and a second RAM disk that
it enables is noticed behind it.
-/
def LooksOn (dev : Devices δ) (x : Ran δ F) : Prop :=
  x.headless = false ∧ (x.before.debugAttached = true →
    (∀ a ∈ x.before.hardware.storeTargets dev,
      x.before.debugger.memoryEdits.protects a = false) ∧
    (x.before.hardware.Collides dev → x.after.hardware.mem.mappingsEnabled = 0))

theorem checkMapping_withCount {h : Hardware δ} {count : Nat}
    (hcount : 1 < count ↔ 1 < h.mem.mappingsEnabled) :
    (h.withCount count).checkMapping.2 = h.checkMapping.2 := by
  by_cases hcollision : 1 < h.mem.mappingsEnabled
  · have hmore := hcount.mpr hcollision
    simp [Hardware.checkMapping, Memory.isException, Hardware.withCount, Memory.withCount,
      Memory.withRegisters, Hardware.setMem, Memory.initRamDiskMapping, hcollision, hmore]
  · have hfew := mt hcount.mp hcollision
    simp [Hardware.checkMapping, Memory.isException, Hardware.withCount, Memory.withCount,
      Memory.withRegisters, Hardware.setMem, hcollision, hfew]

theorem mappingsEnabled_checkMapping (h : Hardware δ) :
    h.checkMapping.2.mem.mappingsEnabled = 0 := by
  by_cases hcollision : 1 < h.mem.mappingsEnabled
  · simp [Hardware.checkMapping, Memory.isException, hcollision, Hardware.setMem,
      Memory.initRamDiskMapping]
  · simp [Hardware.checkMapping, Memory.isException, hcollision, Hardware.setMem]

omit [BEq F] [Zero F] in
theorem hardware_checkException (s : Emulator δ F) :
    s.checkException.2.hardware = s.hardware.checkMapping.2 := by
  rw [checkException]
  split <;> rfl

omit [BEq F] [Zero F] in
theorem spared_entries {dev : Devices δ} {edits : MemoryEdits} {h u : Hardware δ}
    (hparked : h.Parked) (hspared : ∀ a ∈ h.storeTargets dev, edits.protects a = false)
    (hcycles : h.executeCycles dev = some u) :
    ∀ e ∈ u.mem.debug.entries, edits.protects e.addr = false := by
  obtain ⟨log, hstored⟩ := Hardware.stored_executeCycles hparked hcycles
  intro e he
  apply hspared
  have hlog : e ∈ log := by
    rw [hstored.filed] at he
    exact List.mem_of_mem_drop he
  rw [← hstored.addrs]
  exact List.mem_map_of_mem hlog

theorem hook_quiet {dev : Devices δ} (lua : LuaCheck F) {s : Emulator δ F} {u : Hardware δ}
    (hparked : s.hardware.Parked) (hlive : s.debugger.recorder.lastRecord = true)
    (hspared : s.debugAttached = true → ∀ a ∈ s.hardware.storeTargets dev,
      s.debugger.memoryEdits.protects a = false) (hcycles : s.hardware.executeCycles dev = some u) :
    (hook lua { s with hardware := u }).2.hardware = u ∧
      (hook lua { s with hardware := u }).2.debugger.recorder.lastRecord = true := by
  rw [hook]
  split
  · rename_i hattached
    exact debug_quiet lua (s := { s with hardware := u })
      (spared_entries hparked (hspared hattached) hcycles) hlive
  · exact ⟨rfl, hlive⟩

theorem Beside.executeInstruction {dev : Devices δ} {lua : LuaCheck F} {s t : Emulator δ F}
    {h : Hardware δ} {broke : Bool} (hb : s.Beside h)
    (hrun : s.executeInstruction dev lua = some (broke, t))
    (hlooks : LooksOn dev ⟨false, s, t⟩) :
    ∃ h', (h.executeInstruction dev none).map Prod.snd = some h' ∧ t.Beside h' := by
  have hparked : s.hardware.Parked := by
    rw [hb.hardware]
    exact Hardware.parked_withCount hb.parked _
  rw [Emulator.executeInstruction, Option.map_eq_some_iff] at hrun
  obtain ⟨u, hu, hrun⟩ := hrun
  obtain ⟨v, hv⟩ := Option.isSome_iff_exists.mp (h.executeCycles_isSome dev)
  obtain ⟨count, hcount⟩ := Hardware.executeCycles_withCount dev s.hardware.mem.mappingsEnabled h
  rw [← hb.hardware, hu, hv, Option.map_some, Option.some_inj] at hcount
  have hplain : (h.executeInstruction dev none).map Prod.snd = some v.checkMapping.2 := by
    simp [Hardware.executeInstruction, hv]
  have hsame : s.hardware.Collides dev ↔ h.Collides dev := by
    rw [hb.hardware]
    exact Hardware.collides_withCount dev (.inr hb.counts)
  have hu' : s.hardware.Collides dev ↔ 1 < u.mem.mappingsEnabled := by
    have hregisters := congrArg Prod.snd (Hardware.registers_executeCycles hparked hu)
    exact iff_of_eq (congrArg (1 < ·) hregisters.symm)
  have hv' : h.Collides dev ↔ 1 < v.mem.mappingsEnabled := by
    have hregisters := congrArg Prod.snd (Hardware.registers_executeCycles hb.parked hv)
    exact iff_of_eq (congrArg (1 < ·) hregisters.symm)
  refine ⟨_, hplain, ?_⟩
  obtain ⟨hquiet, hlive⟩ := hook_quiet lua hparked hb.live
    (fun hattached => (hlooks.2 hattached).1) hu
  dsimp only at hrun
  split at hrun
  · -- a break keeps the collision check from running
    rename_i hbroke
    cases hrun
    have hattached : s.debugAttached = true := by
      by_contra hdetached
      rw [hook, if_neg hdetached] at hbroke
      exact Bool.false_ne_true hbroke
    have hsingle : ¬ s.hardware.Collides dev := by
      intro hcollides
      have hnoticed := (hlooks.2 hattached).2 hcollides
      have hseveral := hu'.mp hcollides
      dsimp only at hnoticed
      rw [hquiet] at hnoticed
      exact Nat.not_lt_zero 1 (hnoticed ▸ hseveral)
    have hfew : ¬ 1 < v.mem.mappingsEnabled := mt (hsame.trans hv').mpr hsingle
    have hchecked : v.checkMapping.2 = v.withCount 0 := by
      simp [Hardware.checkMapping, Memory.isException, hfew]
      rfl
    refine ⟨?_, ?_, Hardware.parked_checkMapping (Hardware.parked_executeCycles hb.parked hv),
      hlive⟩
    · rw [hquiet, hchecked, hcount]
      rfl
    · rw [hquiet, mappingsEnabled_checkMapping]
      exact ⟨Nat.le_of_not_lt (mt hu'.mpr hsingle), Nat.zero_le 1⟩
  · have hchecked := hardware_checkException (hook lua { s with hardware := u }).2
    have hkept := checkException_debugger (hook lua { s with hardware := u }).2
    rw [hrun] at hchecked hkept
    have hunited : t.hardware = v.checkMapping.2 := by
      rw [hcount] at hu'
      rw [hchecked, hquiet, hcount]
      exact checkMapping_withCount (hu'.symm.trans (hsame.trans hv'))
    refine ⟨?_, ?_, Hardware.parked_checkMapping (Hardware.parked_executeCycles hb.parked hv), ?_⟩
    · rw [hunited]
      rfl
    · rw [hunited, mappingsEnabled_checkMapping]
      exact ⟨Nat.zero_le 1, Nat.zero_le 1⟩
    · rw [hkept]
      exact hlive

/-! ## Many instructions -/

/-- The inputs that change the machine by no more than the instructions they execute. -/
def observes : Input δ F → Bool
  | .instruction _ => true
  | .request req =>
      match req with
      | .internalBeginSession => true
      | .run => true
      | .stop => true
      | .exit => true
      | .executeInstr _ => true
      | .executeFrame _ => true
      | .executeFrameNoBreaks _ => true
      | .debugAttach _ => true
      | .debugReset _ => true
      | .recorderReset => true
      | .breakpoints _ => true
      | .watchpoints _ => true
      | .memoryEdits (.del _) => true
      | .memoryEdits .delAll => true
      | .scripts _ => true
      | .scriptRunOnce .. => true
      | .traceLogFilter .. => true
      | .query => true
      | _ => false

def resetsRecorder : Input δ F → Bool
  | .request .recorderReset => true
  | .request (.debugReset resetRecorder) => resetRecorder
  | _ => false

/-- The instructions of a run, in their order. -/
def ranIn (dev : Devices δ) (fuel : Nat) : Emulator δ F → List (Input δ F) → List (Ran δ F)
  | _, [] => []
  | s, input :: rest =>
      s.ran dev fuel input ++ (s.step dev fuel input).elim [] fun t => ranIn dev fuel t rest

section

variable {dev : Devices δ} {fuel : Nat} {s t : Emulator δ F} {h h₀ : Hardware δ} {n : Nat}

theorem leads_observes {input : Input δ F} (hobserves : observes input = true)
    (hstep : s.step dev fuel input = some t) :
    ∃ u, Leads s (s.ran dev fuel input) u ∧ t.hardware = u.hardware ∧
      (t.debugger.recorder = u.debugger.recorder ∨
        resetsRecorder input = true ∧ t.debugger.recorder.lastRecord = true) := by
  cases input with
  | instruction lua =>
      rw [step, executeRunning] at hstep
      split at hstep
      · rename_i hstatus
        obtain ⟨⟨broke, u⟩, hu, rfl⟩ := Option.map_eq_some_iff.mp hstep
        rw [ran, if_pos hstatus]
        refine ⟨u, leads_ranInstruction hu, ?_⟩
        cases broke <;> exact ⟨rfl, .inl rfl⟩
      · contradiction
  | request req =>
      rw [step] at hstep
      cases req with
      | executeInstr lua =>
          obtain ⟨⟨broke, u⟩, hu, rfl⟩ := Option.map_eq_some_iff.mp hstep
          refine ⟨u, leads_ranInstruction hu, ?_⟩
          cases broke <;> exact ⟨rfl, .inl rfl⟩
      | executeFrame lua =>
          obtain ⟨u, hu, rfl⟩ := Option.map_eq_some_iff.mp hstep
          exact ⟨u, leads_ranFrame hu, rfl, .inl rfl⟩
      | executeFrameNoBreaks lua =>
          obtain ⟨u, hu, rfl⟩ := Option.map_eq_some_iff.mp hstep
          exact ⟨u, leads_ranFrame hu, rfl, .inl rfl⟩
      | debugReset resetRecorder =>
          cases hstep
          cases resetRecorder with
          | false => exact ⟨s, rfl, rfl, .inl rfl⟩
          | true => exact ⟨s, rfl, rfl, .inr ⟨rfl, rfl⟩⟩
      | recorderReset =>
          cases hstep
          exact ⟨s, rfl, rfl, .inr ⟨rfl, rfl⟩⟩
      | memoryEdits op =>
          cases op with
          | del globalAddr =>
              cases hstep
              exact ⟨s, rfl, rfl, .inl rfl⟩
          | delAll =>
              cases hstep
              exact ⟨s, rfl, rfl, .inl rfl⟩
          | _ => exact absurd hobserves Bool.false_ne_true
      | scriptRunOnce scriptId run =>
          cases hstep
          refine ⟨s, rfl, ?_⟩
          rw [scriptRunOnce]
          rcases s.debugger.scripts.runOnce scriptId run with ⟨error | result, scripts⟩
          · exact ⟨rfl, .inl rfl⟩
          · dsimp only
            split <;> exact ⟨rfl, .inl rfl⟩
      | traceLogFilter texts addressPattern instructionPattern =>
          rw [handle] at hstep
          split at hstep <;> cases hstep <;> exact ⟨s, rfl, rfl, .inl rfl⟩
      | _ =>
          first
            | exact absurd hobserves Bool.false_ne_true
            | cases hstep
              exact ⟨s, rfl, rfl, .inl rfl⟩

theorem Beside.leads {instructions : List (Ran δ F)} (hb : s.Beside h)
    (hplain : Hardware.interactive dev n h₀ = some h) (hleads : Leads s instructions t)
    (hall : ∀ x ∈ instructions, x.Executes dev ∧ LooksOn dev x) :
    ∃ h', Hardware.interactive dev (n + instructions.length) h₀ = some h' ∧ t.Beside h' := by
  induction instructions generalizing s h n with
  | nil => exact ⟨h, hplain, hleads ▸ hb⟩
  | cons x rest ih =>
      obtain ⟨hbefore, hleads⟩ := hleads
      obtain ⟨hexecutes, hlooks⟩ := hall x List.mem_cons_self
      obtain ⟨headless, before, after⟩ := x
      cases hbefore
      cases hlooks.1
      obtain ⟨lua, broke, hrun⟩ := hexecutes
      obtain ⟨h', hh', hb'⟩ := hb.executeInstruction hrun hlooks
      have hnext : Hardware.interactive dev (n + 1) h₀ = some h' := by
        rw [Hardware.interactive, hplain, Option.bind_some, hh']
      rw [List.length_cons, ← Nat.add_assoc, Nat.add_right_comm]
      exact ih hb' hnext hleads fun y hy => hall y (List.mem_cons_of_mem _ hy)

omit [BEq F] [Zero F] in
theorem loadsParked_of_observes {input : Input δ F} (hobserves : observes input = true) :
    s.LoadsParked input := by
  cases input with
  | instruction lua => trivial
  | request req =>
      cases req with
      | recorderDeserialize data => exact absurd hobserves Bool.false_ne_true
      | _ => trivial

theorem Beside.run {inputs : List (Input δ F)} (hb : s.Beside h) (hparked : s.Parked)
    (hplain : Hardware.interactive dev n h₀ = some h)
    (hobserves : ∀ input ∈ inputs, observes input = true)
    (hlooks : ∀ x ∈ s.ranIn dev fuel inputs, LooksOn dev x)
    (hrun : Runs.exec (step dev fuel) s inputs = some t) :
    ∃ h', Hardware.interactive dev (n + (s.ranIn dev fuel inputs).length) h₀ = some h' ∧
      t.Beside h' := by
  induction inputs generalizing s h n with
  | nil =>
      cases hrun
      exact ⟨h, hplain, hb⟩
  | cons input rest ih =>
      have hinput := hobserves input List.mem_cons_self
      obtain ⟨s', hs', hrun⟩ := Option.bind_eq_some_iff.mp hrun
      rw [ranIn, hs', Option.elim_some] at hlooks
      obtain ⟨u, hleads, hhardware, hrecorder⟩ := leads_observes hinput hs'
      obtain ⟨h', hh', hb'⟩ := hb.leads hplain hleads fun x hx =>
        ⟨(executes_ran hparked x hx).2, hlooks x (List.mem_append_left _ hx)⟩
      have hbehind : s'.Beside h' := by
        refine ⟨?_, ?_, hb'.parked, ?_⟩
        · rw [hhardware]
          exact hb'.hardware
        · rw [hhardware]
          exact hb'.counts
        · rcases hrecorder with hkept | ⟨-, hlive⟩
          · rw [hkept]
            exact hb'.live
          · exact hlive
      rw [ranIn, hs', Option.elim_some, List.length_append, ← Nat.add_assoc]
      exact ih hbehind (hparked.step (loadsParked_of_observes hinput) hs') hh'
        (fun i hi => hobserves i (List.mem_cons_of_mem _ hi))
        (fun x hx => hlooks x (List.mem_append_right _ hx)) hrun

/--
A run under the debugger leaves the machine as its instructions leave it without one:
breakpoints, watchpoints, scripts, traces and records do not show in it.
-/
theorem debugger_transparent {inputs : List (Input δ F)} (hparked : s.Parked)
    (hcount : s.hardware.mem.mappingsEnabled ≤ 1)
    (hlive : s.debugger.recorder.lastRecord = true)
    (hobserves : ∀ input ∈ inputs, observes input = true)
    (hlooks : ∀ x ∈ s.ranIn dev fuel inputs, LooksOn dev x)
    (hrun : Runs.exec (step dev fuel) s inputs = some t) :
    ∃ h, Hardware.interactive dev (s.ranIn dev fuel inputs).length s.hardware = some h ∧
      t.hardware.SameState h := by
  have hstart : s.Beside s.hardware := ⟨rfl, ⟨hcount, hcount⟩, hparked.hardware, hlive⟩
  obtain ⟨h, hplain, hb⟩ := hstart.run hparked (n := 0) rfl hobserves hlooks hrun
  rw [Nat.zero_add] at hplain
  refine ⟨h, hplain, ?_⟩
  rw [hb.hardware]
  exact ⟨rfl, rfl, rfl, rfl, rfl, rfl⟩

end

/-- A witness: `MOV M,A` under the hook and without it. -/
theorem debugger_transparent_mov :
    ∃ t h, Runs.exec (step .silent 0) (oneOpcode 0x77)
        [.request (.debugAttach true), .request (.executeInstr noLua)] = some t ∧
      Hardware.interactive .silent 1 (oneOpcode 0x77).hardware = some h ∧
      t.hardware.SameState h := by
  let s : Emulator Unit Int := { oneOpcode 0x77 with debugAttached := true }
  have hends : (s.executeInstruction .silent noLua).isSome = true := by decide +kernel
  obtain ⟨⟨broke, u⟩, hu⟩ := Option.isSome_iff_exists.mp hends
  have hran : (oneOpcode 0x77).ranIn .silent 0
      [.request (.debugAttach true), .request (.executeInstr noLua)] = [⟨false, s, u⟩] := by
    have hattached : (oneOpcode 0x77).step .silent 0 (.request (.debugAttach true)) = some s := rfl
    have hhandled : s.step .silent 0 (.request (.executeInstr noLua)) =
        some (if broke then u else u.recordStop .step) := by
      rw [step, handle, hu]
      rfl
    rw [ranIn, hattached, Option.elim_some, ranIn, hhandled, Option.elim_some, ranIn]
    change s.ranInstruction .silent noLua ++ [] = _
    rw [ranInstruction, hu]
    rfl
  have hlooks : LooksOn .silent ⟨false, s, u⟩ := by
    refine ⟨rfl, fun _ => ⟨fun a ha => rfl, fun hcollides => ?_⟩⟩
    have hsingle : (s.hardware.memAfterNext .silent).mappingsEnabled ≤ 1 := by decide +kernel
    exact absurd hcollides (Nat.not_lt.mpr hsingle)
  obtain ⟨t, ht⟩ : ∃ t, Runs.exec (step .silent 0) (oneOpcode 0x77)
      [.request (.debugAttach true), .request (.executeInstr noLua)] = some t :=
    Option.isSome_iff_exists.mp (by decide +kernel)
  have hparked : (oneOpcode 0x77).Parked := parked_new (Hardware.parked_ofRam _ _) _ _
  obtain ⟨h, hplain, hsame⟩ := debugger_transparent hparked (Nat.zero_le 1) rfl (by decide)
    (fun x hx => by
      rw [hran] at hx
      rw [List.mem_singleton.mp hx]
      exact hlooks) ht
  rw [hran] at hplain
  exact ⟨t, h, ht, hplain, hsame⟩

end Emulator

end V6Emul
