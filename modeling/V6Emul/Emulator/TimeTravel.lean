import V6Emul.Emulator.Transparency
import V6Emul.Hardware.Replay
import V6Emul.Recorder.FrameNumbers
import V6Emul.Recorder.Playback

/-!
# Time travel

The debugger keeps a state for every frame and the stores in between.  Playing in reverse
leads to a machine that stood at the beginning of a frame, and from there the program runs
as it ran before, under the debugger or without it.
-/

namespace V6Emul

variable {δ F : Type}

/-! ## Frames of a run -/

namespace Hardware

variable {dev : Devices δ} {h : Hardware δ}

def frameAfter (dev : Devices δ) (h : Hardware δ) (n : Nat) : Option (BitVec 64) :=
  (interactive dev n h).map fun t => t.display.update.frameNum

def frameStarts (dev : Devices δ) (h : Hardware δ) : Nat → List Nat
  | 0 => [0]
  | n + 1 =>
      if h.frameAfter dev (n + 1) = h.frameAfter dev n then frameStarts dev h n
      else (n + 1) :: frameStarts dev h n

theorem frameStarts_le {n : Nat} : ∀ i ∈ frameStarts dev h n, i ≤ n := by
  induction n with
  | zero => simp [frameStarts]
  | succ n ih =>
      intro i hi
      rw [frameStarts] at hi
      split at hi
      · exact Nat.le_succ_of_le (ih i hi)
      · rcases List.mem_cons.mp hi with rfl | hi
        · exact Nat.le_refl _
        · exact Nat.le_succ_of_le (ih i hi)

theorem frame_checkMapping {h : Hardware δ} (hfew : ¬ 1 < h.mem.mappingsEnabled) :
    h.checkMapping.2.machine.frame = h.machine.frame := by
  simp [Hardware.checkMapping, Memory.isException, hfew]
  rfl

theorem readsNoChip_withCount (count : Nat) (h : Hardware δ) :
    (h.withCount count).ReadsNoChip dev ↔ h.ReadsNoChip dev := by
  have hirq : (h.withCount count).irqLine dev = h.irqLine dev := irqLine_setMem dev h rfl
  rw [ReadsNoChip, ReadsNoChip, nextIn, nextIn, hirq]
  rfl

theorem executeInstruction_withCount {count : Nat} (hparked : h.Parked)
    (hcounts : count ≤ 1 ∧ h.mem.mappingsEnabled ≤ 1) :
    ((h.withCount count).executeInstruction dev none).map Prod.snd =
      (h.executeInstruction dev none).map Prod.snd := by
  obtain ⟨count', hcount⟩ := executeCycles_withCount dev count h
  obtain ⟨t, ht⟩ := Option.isSome_iff_exists.mp (h.executeCycles_isSome dev)
  rw [ht, Option.map_some] at hcount
  have hfirst := congrArg Prod.snd
    (registers_executeCycles (parked_withCount hparked count) hcount)
  have hsecond := congrArg Prod.snd (registers_executeCycles hparked ht)
  have hiff : 1 < count' ↔ 1 < t.mem.mappingsEnabled := by
    change count' = _ at hfirst
    change t.mem.mappingsEnabled = _ at hsecond
    rw [hfirst, hsecond]
    exact collides_withCount dev (.inr hcounts)
  simp only [Hardware.executeInstruction, hcount, ht, Option.map_some]
  exact congrArg some (Emulator.checkMapping_withCount hiff)

theorem interactive_withCount {count : Nat} (hparked : h.Parked)
    (hcounts : count ≤ 1 ∧ h.mem.mappingsEnabled ≤ 1) (n : Nat) :
    interactive dev (n + 1) (h.withCount count) = interactive dev (n + 1) h := by
  induction n with
  | zero =>
      rw [interactive, interactive, interactive, interactive]
      exact executeInstruction_withCount hparked hcounts
  | succ n ih => rw [interactive, ih, ← interactive]

theorem mappingsEnabled_interactive {t : Hardware δ} {n : Nat} (hcount : h.mem.mappingsEnabled ≤ 1)
    (hrun : interactive dev n h = some t) : t.mem.mappingsEnabled ≤ 1 := by
  cases n with
  | zero =>
      cases hrun
      exact hcount
  | succ n =>
      obtain ⟨s, -, hnext⟩ := Option.bind_eq_some_iff.mp hrun
      simp only [Hardware.executeInstruction, Option.map_map, Option.map_eq_some_iff] at hnext
      obtain ⟨u, -, rfl⟩ := hnext
      exact (Emulator.mappingsEnabled_checkMapping u).trans_le (Nat.zero_le 1)

/-- Equal but for the picture, the debug record, the chips and the count of the mappings. -/
structure Relives (h h' : Hardware δ) : Prop where
  cpu : h.cpu = h'.cpu
  ram : h.mem.ram = h'.mem.ram
  mappings : h.mem.mappings = h'.mem.mappings
  update : h.mem.update = h'.mem.update
  state : h.io.state = h'.io.state
  beam : h.display.update = h'.display.update

theorem Resumes.relives {D : δ → δ → Prop} {h h' : Hardware δ} (hh : h.Resumes D h') :
    h.Relives h' := by
  have hmem := hh.raster.bus.mem
  refine ⟨hh.cpu, ?_, ?_, ?_, hh.raster.bus.io.state, ?_⟩
  · exact Runs.eq_of_erased hmem Memory.ram fun _ => rfl
  · exact Runs.eq_of_erased hmem Memory.mappings fun _ => rfl
  · exact Runs.eq_of_erased hmem Memory.update fun _ => rfl
  · exact Runs.eq_of_erased hh.raster.beam Display.update fun _ => rfl

theorem Relives.frame {h h' : Hardware δ} (hh : h.Relives h') :
    h.machine.frame = h'.machine.frame := by
  simp [Machine.frame, Machine.snapshot, machine, hh.cpu, hh.ram, hh.update, hh.state, hh.beam]

theorem setRaster_resumes {D : δ → δ → Prop} {r : Raster δ} (hr : h.raster.Resumes D r) :
    h.Resumes D (h.setRaster r) := ⟨rfl, hr⟩

theorem Resumes.trans_eq {D : δ → δ → Prop} {h h' h'' : Hardware δ} (hh : h.Resumes D h')
    (hh' : h'.Resumes Eq h'') : h.Resumes D h'' := by
  obtain ⟨hcpu, ⟨⟨hmem, hstate, htime, hdevices⟩, hbeam⟩⟩ := hh'
  refine ⟨hh.cpu.trans hcpu, ⟨⟨hh.raster.bus.mem.trans hmem, hh.raster.bus.io.state.trans hstate,
    hh.raster.bus.io.paletteCommitTime.trans htime, ?_⟩, hh.raster.beam.trans hbeam⟩⟩
  exact hdevices ▸ hh.raster.bus.io.devices

theorem redraw_resumes (h : Hardware δ) : h.Resumes Eq h.redraw := by
  rw [redraw]
  exact setRaster_resumes h.raster.frameBuffUpdate_resumes

theorem resumes_atFrame {D : δ → δ → Prop} {past h : Hardware δ}
    (hfixed : h.raster.fixed = past.raster.fixed) (hmappings : past.mem.mappings = h.mem.mappings)
    (hdevices : D past.io.devices h.io.devices) :
    (past.withCount h.mem.mappingsEnabled).Resumes D
      (h.setMachine (h.machine.atFrame past.machine.frame)) := by
  obtain ⟨hmem, hscreen⟩ := Prod.mk.inj hfixed
  obtain ⟨hrom, hclear⟩ := Prod.mk.inj hmem
  obtain ⟨htime, hborder⟩ := Prod.mk.inj hscreen
  obtain ⟨hleft, hpxl⟩ := Prod.mk.inj hborder
  have hold : past.mem = { past.mem with
      rom := h.mem.rom
      mappings := h.mem.mappings
      ramDiskClearAfterRestart := h.mem.ramDiskClearAfterRestart } := by
    rw [← hmappings, show h.mem.rom = past.mem.rom from hrom,
      show h.mem.ramDiskClearAfterRestart = past.mem.ramDiskClearAfterRestart from hclear]
  have hscene : past.display = { past.display with
      borderLeft := h.display.borderLeft
      irqCommitPxl := h.display.irqCommitPxl } := by
    rw [show h.display.borderLeft = past.display.borderLeft from hleft,
      show h.display.irqCommitPxl = past.display.irqCommitPxl from hpxl]
  refine ⟨rfl, ⟨⟨?_, rfl, htime.symm, hdevices⟩, ?_⟩⟩
  · have hseen := congrArg (fun m : Memory => (m.withCount h.mem.mappingsEnabled).seen) hold
    exact hseen
  · have hbeam := congrArg Display.beam hscene
    exact hbeam

end Hardware

/-! ## The recorder behind an instruction -/

namespace Emulator

variable [BEq F] [Zero F]

theorem recorder_debug (lua : LuaCheck F) {s : Emulator δ F}
    (hspared : ∀ e ∈ s.hardware.mem.debug.entries,
      s.debugger.memoryEdits.protects e.addr = false) :
    (s.debug lua).2.debugger.recorder = s.debugger.recorder.update s.hardware.machine := by
  have hmem : s.checkAccesses.1 = s.hardware.mem := Debugger.checkWrites_quiet _ hspared
  have hchecked : (s.checkBreaks lua).2.hardware.machine = s.hardware.machine := by
    change (s.hardware.setMem s.checkAccesses.1).machine = _
    rw [hmem]
    rfl
  rw [← hchecked]
  cases hevent : (s.checkBreaks lua).1 with
  | none =>
      rw [debug_none hevent]
      rfl
  | some event =>
      rw [debug_some hevent]
      rfl

/-- The debugger records the instruction, whose stores it knows, and it hears no chip. -/
structure Travels (dev : Devices δ) (x : Ran δ F) : Prop where
  headless : x.headless = false
  attached : x.before.debugAttached = true
  spared : ∀ a ∈ x.before.hardware.storeTargets dev,
    x.before.debugger.memoryEdits.protects a = false
  single : ¬ x.before.hardware.Collides dev
  filed : x.before.hardware.toSys.nextOpcode (x.before.hardware.irqLine dev) ≠ Sys.opcodeXthl
  deaf : x.before.hardware.ReadsNoChip dev

structure Recorded (dev : Devices δ) (h₀ : Hardware δ) (n : Nat) (s : Emulator δ F)
    (h : Hardware δ) : Prop where
  beside : s.Beside h
  plain : Hardware.interactive dev n h₀ = some h
  frames : ∃ frames m, Recorder.UpdateRun frames s.debugger.recorder m ∧
    m.frame = h.machine.frame ∧
    List.Forall₂
      (fun f i => (Hardware.interactive dev i h₀).map (fun p => p.machine.frame) = some f)
      frames (Hardware.frameStarts dev h₀ n)
  frameNum : s.debugger.recorder.frameNum = h.display.update.frameNum
  deaf : ∀ i < n, ∀ p, Hardware.interactive dev i h₀ = some p → p.ReadsNoChip dev

variable {dev : Devices δ} {s t : Emulator δ F} {h h₀ : Hardware δ} {n : Nat}

theorem recorder_executeInstruction {lua : LuaCheck F} {broke : Bool}
    (hparked : s.hardware.Parked) (hlive : s.debugger.recorder.lastRecord = true)
    (htravels : Travels dev ⟨false, s, t⟩)
    (hrun : s.executeInstruction dev lua = some (broke, t)) :
    ∃ u, s.hardware.executeCycles dev = some u ∧
      t.debugger.recorder = s.debugger.recorder.update u.machine ∧
      u.machine.frame = t.hardware.machine.frame := by
  rw [Emulator.executeInstruction, Option.map_eq_some_iff] at hrun
  obtain ⟨u, hu, hrun⟩ := hrun
  have hquiet := (hook_quiet lua hparked hlive (fun _ => htravels.spared) hu).1
  have hfiled : (hook lua { s with hardware := u }).2.debugger.recorder =
      s.debugger.recorder.update u.machine := by
    rw [hook, if_pos htravels.attached]
    exact recorder_debug lua (s := { s with hardware := u })
      (spared_entries hparked htravels.spared hu)
  have hfew : ¬ 1 < u.mem.mappingsEnabled := by
    have hregisters := congrArg Prod.snd (Hardware.registers_executeCycles hparked hu)
    change u.mem.mappingsEnabled = _ at hregisters
    rw [hregisters]
    exact htravels.single
  refine ⟨u, hu, ?_⟩
  dsimp only at hrun
  split at hrun
  · cases hrun
    exact ⟨hfiled, congrArg (fun h : Hardware δ => h.machine.frame) hquiet.symm⟩
  · have hchecked := hardware_checkException (hook lua { s with hardware := u }).2
    have hkept := checkException_debugger (hook lua { s with hardware := u }).2
    rw [hrun] at hchecked hkept
    dsimp only at hchecked hkept
    rw [hkept, hchecked, hquiet]
    exact ⟨hfiled, (Hardware.frame_checkMapping hfew).symm⟩

theorem Recorded.executeInstruction {lua : LuaCheck F} {broke : Bool}
    (hrec : Recorded dev h₀ n s h) (hrun : s.executeInstruction dev lua = some (broke, t))
    (htravels : Travels dev ⟨false, s, t⟩) : ∃ h', Recorded dev h₀ (n + 1) t h' := by
  have hlooks : LooksOn dev ⟨false, s, t⟩ :=
    ⟨rfl, fun _ => ⟨htravels.spared, fun hcollides => absurd hcollides htravels.single⟩⟩
  obtain ⟨h', hnext, hb'⟩ := hrec.beside.executeInstruction hrun hlooks
  have hplain : Hardware.interactive dev (n + 1) h₀ = some h' := by
    rw [Hardware.interactive, hrec.plain, Option.bind_some, hnext]
  have hsame : s.hardware.machine.frame = h.machine.frame := by
    rw [hrec.beside.hardware]
    rfl
  have hparked : s.hardware.Parked := by
    rw [hrec.beside.hardware]
    exact Hardware.parked_withCount hrec.beside.parked _
  obtain ⟨u, hu, hrecorder, hframe⟩ :=
    recorder_executeInstruction hparked hrec.beside.live htravels hrun
  have hreached : u.machine.frame = h'.machine.frame := by
    rw [hframe, hb'.hardware]
    rfl
  have hcount : u.machine.display.frameNum = h'.display.update.frameNum :=
    congrArg (fun f : Frame => f.saved.display.frameNum) hreached
  refine ⟨h', hb', hplain, ?_, ?_, ?_⟩
  · obtain ⟨frames, m, hupdates, hm, hstarts⟩ := hrec.frames
    have hexec : m.Executes u.machine := by
      obtain ⟨log, hstored⟩ := Hardware.stored_executeCycles hparked hu
      have hram : m.mem.ram = s.hardware.mem.ram := congrArg UndoLog.Frame.mem (hm.trans hsame.symm)
      have hentries : u.machine.mem.debug.entries = log := by
        refine hstored.filed.trans ?_
        rw [if_neg htravels.filed, List.drop_zero]
      rw [Machine.Executes, hentries, hram]
      exact ⟨hstored.recorded, hstored.redo.symm⟩
    refine ⟨(s.debugger.recorder.dueFrame u.machine).toList ++ frames, u.machine, ?_, hreached, ?_⟩
    · rw [hrecorder]
      exact hupdates.update u.machine hexec
    · have hafter : h₀.frameAfter dev n = some h.display.update.frameNum := by
        rw [Hardware.frameAfter, hrec.plain]
        rfl
      have hafter' : h₀.frameAfter dev (n + 1) = some h'.display.update.frameNum := by
        rw [Hardware.frameAfter, hplain]
        rfl
      rw [Recorder.dueFrame, hrec.frameNum, hcount, Hardware.frameStarts, hafter, hafter']
      by_cases hnew : h'.display.update.frameNum = h.display.update.frameNum
      · rw [if_neg (not_not_intro hnew.symm), if_pos (congrArg some hnew)]
        exact hstarts
      · rw [if_pos (Ne.symm hnew), if_neg (fun heq => hnew (Option.some.inj heq))]
        refine .cons ?_ hstarts
        rw [hplain, hreached]
        rfl
  · rw [hrecorder, Recorder.frameNum_update, hcount]
  · intro i hi p hp
    rcases Nat.lt_succ_iff_lt_or_eq.mp hi with hlt | rfl
    · exact hrec.deaf i hlt p hp
    · rw [hrec.plain] at hp
      cases hp
      have hdeaf := htravels.deaf
      rw [hrec.beside.hardware] at hdeaf
      exact (Hardware.readsNoChip_withCount _ _).mp hdeaf

/-! ## Many instructions -/

theorem Recorded.leads {instructions : List (Ran δ F)} (hrec : Recorded dev h₀ n s h)
    (hleads : Leads s instructions t)
    (hall : ∀ x ∈ instructions, x.Executes dev ∧ Travels dev x) :
    ∃ h', Recorded dev h₀ (n + instructions.length) t h' := by
  induction instructions generalizing s h n with
  | nil => exact ⟨h, hleads ▸ hrec⟩
  | cons x rest ih =>
      obtain ⟨hbefore, hleads⟩ := hleads
      obtain ⟨hexecutes, htravels⟩ := hall x List.mem_cons_self
      obtain ⟨headless, before, after⟩ := x
      cases hbefore
      cases htravels.headless
      obtain ⟨lua, broke, hrun⟩ := hexecutes
      obtain ⟨h', hrec'⟩ := hrec.executeInstruction hrun htravels
      rw [List.length_cons, ← Nat.add_assoc, Nat.add_right_comm]
      exact ih hrec' hleads fun y hy => hall y (List.mem_cons_of_mem _ hy)

/-- The inputs that execute instructions or look on, and leave what has been recorded. -/
def records (input : Input δ F) : Bool := observes input && !resetsRecorder input

theorem Recorded.run {fuel : Nat} {inputs : List (Input δ F)} (hrec : Recorded dev h₀ n s h)
    (hparked : s.Parked) (hrecords : ∀ input ∈ inputs, records input = true)
    (htravels : ∀ x ∈ s.ranIn dev fuel inputs, Travels dev x)
    (hrun : Runs.exec (step dev fuel) s inputs = some t) :
    t.Parked ∧ ∃ h', Recorded dev h₀ (n + (s.ranIn dev fuel inputs).length) t h' := by
  induction inputs generalizing s h n with
  | nil =>
      cases hrun
      exact ⟨hparked, h, hrec⟩
  | cons input rest ih =>
      obtain ⟨hobserves, hkeeps⟩ := Bool.and_eq_true_iff.mp
        (hrecords input List.mem_cons_self)
      obtain ⟨s', hs', hrun⟩ := Option.bind_eq_some_iff.mp hrun
      rw [ranIn, hs', Option.elim_some] at htravels
      obtain ⟨u, hleads, hhardware, hrecorder⟩ := leads_observes hobserves hs'
      have hkept : s'.debugger.recorder = u.debugger.recorder := by
        refine hrecorder.resolve_right ?_
        rintro ⟨hresets, -⟩
        rw [hresets] at hkeeps
        exact Bool.false_ne_true hkeeps
      obtain ⟨h', hb', hplain', hframes', hcount', hdeaf'⟩ := hrec.leads hleads fun x hx =>
        ⟨(executes_ran hparked x hx).2, htravels x (List.mem_append_left _ hx)⟩
      have hbehind : Recorded dev h₀ (n + (s.ran dev fuel input).length) s' h' := by
        refine ⟨⟨?_, ?_, hb'.parked, ?_⟩, hplain', ?_, ?_, hdeaf'⟩
        · rw [hhardware]
          exact hb'.hardware
        · rw [hhardware]
          exact hb'.counts
        · rw [hkept]
          exact hb'.live
        · rw [hkept]
          exact hframes'
        · rw [hkept]
          exact hcount'
      rw [ranIn, hs', Option.elim_some, List.length_append, ← Nat.add_assoc]
      exact ih hbehind (hparked.step (loadsParked_of_observes hobserves) hs')
        (fun i hi => hrecords i (List.mem_cons_of_mem _ hi))
        (fun x hx => htravels x (List.mem_append_right _ hx)) hrun

omit [BEq F] [Zero F] in
theorem Recorded.start (hparked : s.hardware.Parked) (hcount : s.hardware.mem.mappingsEnabled ≤ 1)
    (hframes : 0 < s.debugger.recorder.recordFrames) :
    Recorded dev s.hardware 0 s.resetRecorder s.hardware := by
  refine ⟨⟨rfl, ⟨hcount, hcount⟩, hparked, rfl⟩, rfl, ?_, rfl, ?_⟩
  · exact ⟨_, s.hardware.machine, .reset s.debugger.recorder s.hardware.machine hframes, rfl,
      .cons rfl .nil⟩
  · intro i hi
    exact absurd hi (Nat.not_lt_zero i)

/-! ## Back and on -/

theorem retains_of_frame {frames : List Frame} {r : Recorder} {m m' : Machine} {tl : History}
    {base : Nat} (h : Recorder.Retains frames r m tl base) (hframe : m.frame = m'.frame) :
    Recorder.Retains frames r m' tl base := by
  have hsaved : m.snapshot = m'.snapshot := congrArg UndoLog.Frame.saved hframe
  have hram : m.mem.ram = m'.mem.ram := congrArg UndoLog.Frame.mem hframe
  obtain ⟨⟨hidx, hcurrent, hrecorded, hlast, hwindow, hlinked, hposition⟩, hlive, hretained,
    hslot⟩ := h
  rw [hsaved, hram] at hposition
  exact ⟨⟨hidx, hcurrent, hrecorded, hlast, hwindow, hlinked, hposition⟩, hlive, hretained, hslot⟩

theorem exists_of_forall₂ {α β : Type} {R : α → β → Prop} {as : List α} {bs : List β}
    (h : List.Forall₂ R as bs) {i : Nat} {a : α} (ha : as[i]? = some a) :
    ∃ b, bs[i]? = some b ∧ R a b := by
  induction h generalizing i with
  | nil => cases ha
  | @cons a' b as bs hab _ ih =>
      cases i with
      | zero =>
          cases ha
          exact ⟨b, rfl, hab⟩
      | succ i => exact ih ha

theorem Recorded.playReverse {fuel k : Nat} {u : Emulator δ F} (hrec : Recorded dev h₀ n s h)
    (hk : 1 ≤ k)
    (hslot : s.debugger.recorder.recordFrames ∣ sizeT ∨
      min k s.debugger.recorder.stateRecorded ≤ s.debugger.recorder.stateIdx + 1)
    (hstep : s.step dev fuel (.request (.recorderPlayReverse k)) = some u) :
    ∃ m past,
      (Hardware.frameStarts dev h₀ n)[min k (min (Hardware.frameStarts dev h₀ n).length
        s.debugger.recorder.recordFrames) - 1]? = some m ∧
      Hardware.interactive dev m h₀ = some past ∧
      u.hardware = (s.hardware.setMachine
        (s.hardware.machine.atFrame past.machine.frame)).redraw := by
  obtain ⟨frames, m₀, hupdates, hm₀, hstarts⟩ := hrec.frames
  obtain ⟨tl, base, hretains⟩ := hupdates.retains
  have hcurrent : m₀.frame = s.hardware.machine.frame := by
    rw [hm₀, hrec.beside.hardware]
    rfl
  have hhere := retains_of_frame hretains hcurrent
  have hplay := (hhere.playReverse hk hslot).1
  obtain ⟨m, hm, hpast⟩ := exists_of_forall₂ hstarts (hhere.start_back_iterate hk)
  obtain ⟨past, hpast, hframe⟩ := Option.map_eq_some_iff.mp hpast
  refine ⟨m, past, ?_, hpast, ?_⟩
  · rw [← hstarts.length_eq]
    exact hm
  · rw [step, handle, Option.some_inj] at hstep
    rw [← hstep, play]
    dsimp only [setTraceLog, setDebugger]
    rw [hplay, hframe]

end Emulator

namespace Hardware

theorem relives_interactive {h past back : Hardware (Chips Board)} {count m : Nat}
    (hparked : h.Parked) (hpast : interactive Board.devices m h = some past)
    (hcounts : count ≤ 1 ∧ past.mem.mappingsEnabled ≤ 1)
    (hback : (past.withCount count).Resumes Board.SameKeys back) {i : Nat}
    (hdeaf : ∀ j < m + i, ∀ p, interactive Board.devices j h = some p →
      p.ReadsNoChip Board.devices) :
    ∃ t t', interactive Board.devices (m + i) h = some t ∧
      interactive Board.devices i back = some t' ∧ t.Relives t' := by
  have hreached : ∀ j, interactive Board.devices (m + j) h = interactive Board.devices j past := by
    intro j
    rw [interactive_add, hpast, Option.bind_some]
  have hpast' := parked_interactive hparked hpast
  cases i with
  | zero =>
      obtain ⟨hcpu, hram, hmappings, hupdate, hstate, hbeam⟩ := hback.relives
      exact ⟨past, back, hpast, rfl, hcpu, hram, hmappings, hupdate, hstate, hbeam⟩
  | succ i =>
      have hsame : ∀ n, interactive Board.devices (n + 1) (past.withCount count) =
          interactive Board.devices (n + 1) past := interactive_withCount hpast' hcounts
      obtain ⟨t, ht⟩ := Option.isSome_iff_exists.mp
        (interactive_isSome Board.devices (i + 1) (past.withCount count))
      have hreads : ∀ j < i + 1, ∀ p, interactive Board.devices j (past.withCount count) = some p →
          p.ReadsNoChip Board.devices := by
        intro j hj p hp
        cases j with
        | zero =>
            cases hp
            exact (readsNoChip_withCount _ _).mpr
              (hdeaf m (Nat.lt_add_of_pos_right (Nat.succ_pos i)) past hpast)
        | succ j =>
            rw [hsame, ← hreached] at hp
            exact hdeaf _ (Nat.add_lt_add_left hj m) p hp
      obtain ⟨t', ht', hresumes⟩ := hback.interactive Board.sharesKeys
        (parked_withCount hpast' count) hreads ht
      refine ⟨t, t', ?_, ht', hresumes.relives⟩
      rw [hreached, ← hsame, ht]

end Hardware

namespace Emulator

variable [BEq F] [Zero F] {s t u : Emulator (Chips Board) F} {inputs : List (Input (Chips Board) F)}
  {fuel k : Nat}

/--
Playing back by `k` leads to the machine as it was when the `k`-th frame from the end began,
or the oldest that the ring keeps.  If the mapping registers, which the recorder does not
keep, are what they were then, the program runs from there as it ran before.
-/
theorem rewind_relives (hparked : s.Parked) (hcount : s.hardware.mem.mappingsEnabled ≤ 1)
    (hframes : 0 < s.debugger.recorder.recordFrames)
    (hrecords : ∀ input ∈ inputs, records input = true)
    (htravels : ∀ x ∈ s.resetRecorder.ranIn Board.devices fuel inputs, Travels Board.devices x)
    (hrun : Runs.exec (step Board.devices fuel) s.resetRecorder inputs = some t) (hk : 1 ≤ k)
    (hslot : t.debugger.recorder.recordFrames ∣ sizeT ∨
      min k t.debugger.recorder.stateRecorded ≤ t.debugger.recorder.stateIdx + 1)
    (hrewind : t.step Board.devices fuel (.request (.recorderPlayReverse k)) = some u) :
    let n := (s.resetRecorder.ranIn Board.devices fuel inputs).length
    let starts := s.hardware.frameStarts Board.devices n
    ∃ m past, starts[min k (min starts.length t.debugger.recorder.recordFrames) - 1]? = some m ∧
      m ≤ n ∧ Hardware.interactive Board.devices m s.hardware = some past ∧
      u.hardware.machine.frame = past.machine.frame ∧
      (past.mem.mappings = t.hardware.mem.mappings → ∀ i, m + i ≤ n → ∃ h h',
        Hardware.interactive Board.devices (m + i) s.hardware = some h ∧
        Hardware.interactive Board.devices i u.hardware = some h' ∧ h.Relives h') := by
  intro n starts
  have hstart : s.step Board.devices fuel (.request .recorderReset) = some s.resetRecorder := rfl
  have hload : LoadsParked s (.request .recorderReset) := trivial
  have hreset : s.resetRecorder.Parked := hparked.step hload hstart
  obtain ⟨-, h, hrec⟩ := (Recorded.start hparked.hardware hcount hframes).run hreset hrecords
    htravels hrun
  rw [Nat.zero_add] at hrec
  obtain ⟨m, past, hm, hpast, hu⟩ := hrec.playReverse hk hslot hrewind
  have hle : m ≤ n := Hardware.frameStarts_le m (List.mem_of_getElem? hm)
  have hback := hrec.beside.hardware
  refine ⟨m, past, hm, hle, hpast, ?_, ?_⟩
  · rw [hu]
    exact (Hardware.redraw_resumes _).relives.frame.symm
  · intro hmappings i hi
    have hfixed : t.hardware.raster.fixed = past.raster.fixed := by
      rw [hback]
      exact (Hardware.fixed_interactive hrec.plain).trans
        (Hardware.fixed_interactive hpast).symm
    have hkeys : Board.SameKeys past.io.devices t.hardware.io.devices := by
      have hnow := Board.sameKeys_interactive hparked.hardware hrec.plain
      rw [hback]
      exact (Board.sameKeys_interactive hparked.hardware hpast).symm.trans hnow
    have hresumes := (Hardware.resumes_atFrame hfixed hmappings hkeys).trans_eq
      (Hardware.redraw_resumes _)
    rw [← hu] at hresumes
    exact Hardware.relives_interactive hparked.hardware hpast
      ⟨hrec.beside.counts.1, Hardware.mappingsEnabled_interactive hcount hpast⟩ hresumes
      fun j hj => hrec.deaf j (Nat.lt_of_lt_of_le hj hi)

def atMov : Emulator (Chips Board) Int :=
  { new (.ofRam (fun i => if i.val = 0 then 0x77 else 0)
      ⟨⟨.new, .new, false⟩, .reset, ⟨.init, 0⟩⟩) (.new 16 true) with debugAttached := true }

theorem ranIn_atMov {broke : Bool} {v : Emulator (Chips Board) Int}
    (hv : atMov.resetRecorder.executeInstruction Board.devices noLua = some (broke, v)) :
    atMov.resetRecorder.ranIn Board.devices 0 [.request (.executeInstr noLua)] =
      [⟨false, atMov.resetRecorder, v⟩] := by
  have hhandled : atMov.resetRecorder.step Board.devices 0 (.request (.executeInstr noLua)) =
      some (if broke then v else v.recordStop .step) := by
    rw [step, handle, hv]
    rfl
  rw [ranIn, hhandled, Option.elim_some, ranIn]
  change atMov.resetRecorder.ranInstruction Board.devices noLua ++ [] = _
  rw [ranInstruction, hv]
  rfl

theorem travels_atMov (v : Emulator (Chips Board) Int) :
    Travels Board.devices ⟨false, atMov.resetRecorder, v⟩ := by
  have hnext : atMov.resetRecorder.hardware.toSys.nextOpcode
      (atMov.resetRecorder.hardware.irqLine Board.devices) = 0x77 := by decide +kernel
  have hsingle : (atMov.resetRecorder.hardware.memAfterNext Board.devices).mappingsEnabled ≤ 1 := by
    decide +kernel
  refine ⟨rfl, rfl, fun _ _ => rfl, Nat.not_lt.mpr hsingle, ?_, ?_⟩
  · rw [hnext]
    decide
  · intro port hport
    rw [Hardware.nextIn, hnext, if_neg (by decide)] at hport
    exact absurd hport (Option.not_mem_none _)

/-- A witness: the store is taken back and made again. -/
theorem rewind_relives_mov :
    ∃ t u h h', Runs.exec (step Board.devices 0) atMov.resetRecorder
        [.request (.executeInstr noLua)] = some t ∧
      t.step Board.devices 0 (.request (.recorderPlayReverse 1)) = some u ∧
      Hardware.interactive Board.devices 1 atMov.hardware = some h ∧
      Hardware.interactive Board.devices 1 u.hardware = some h' ∧ h.Relives h' := by
  have hends : (atMov.resetRecorder.executeInstruction Board.devices noLua).isSome = true := by
    decide +kernel
  obtain ⟨⟨broke, v⟩, hv⟩ := Option.isSome_iff_exists.mp hends
  have hoverview : (Runs.exec (step Board.devices 0) atMov.resetRecorder
      [.request (.executeInstr noLua)]).map (fun t => (t.debugger.recorder.recordFrames,
        (List.finRange ramDiskMax).map t.hardware.mem.mappings)) =
      some (16, (List.finRange ramDiskMax).map atMov.hardware.mem.mappings) := by decide +kernel
  obtain ⟨t, ht, hsame⟩ := Option.map_eq_some_iff.mp hoverview
  obtain ⟨hring, hmappings⟩ := Prod.mk.inj hsame
  have hparked : atMov.Parked := by
    have hnew : (new (F := Int) atMov.hardware (.new 16 true)).Parked :=
      parked_new (Hardware.parked_ofRam _ _) _ _
    exact hnew.congr rfl rfl
  have htravels : ∀ x ∈ atMov.resetRecorder.ranIn Board.devices 0 [.request (.executeInstr noLua)],
      Travels Board.devices x := by
    intro x hx
    rw [ranIn_atMov hv] at hx
    rw [List.mem_singleton.mp hx]
    exact travels_atMov v
  obtain ⟨u, hu⟩ : ∃ u, t.step Board.devices 0 (.request (.recorderPlayReverse 1)) = some u :=
    ⟨_, rfl⟩
  obtain ⟨m, past, hm, -, hpast, -, hagain⟩ := rewind_relives (k := 1) hparked (Nat.zero_le 1)
    (by decide) (by decide) htravels ht (Nat.le_refl 1) (.inl (by rw [hring]; decide)) hu
  have hstarts : atMov.hardware.frameStarts Board.devices 1 = [0] := if_pos (by decide +kernel)
  have hlen : (atMov.resetRecorder.ranIn Board.devices 0 [.request (.executeInstr noLua)]).length =
      1 := by rw [ranIn_atMov hv, List.length_singleton]
  rw [hlen, hstarts, hring] at hm
  rw [hlen] at hagain
  cases hm
  cases hpast
  have hregisters : atMov.hardware.mem.mappings = t.hardware.mem.mappings := by
    funext disk
    exact (List.map_inj_left.mp hmappings disk (List.mem_finRange disk)).symm
  obtain ⟨h, h', hh, hh', hrelives⟩ := hagain hregisters 1 (Nat.le_refl 1)
  exact ⟨t, u, h, h', ht, hu, hh, hh', hrelives⟩

end Emulator

end V6Emul
