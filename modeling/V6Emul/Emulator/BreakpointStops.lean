import V6Emul.Debugger.BreakpointRuns
import V6Emul.Emulator.Transparency
import V6Emul.Hardware.Replay

/-!
# Where a run stops

The debugger checks the breakpoints behind every instruction.  A run under it goes on for as
long as the program without a debugger comes to no breakpoint that has counted its visits,
and it stops at the first one.
-/

namespace V6Emul

structure Boundary where
  cpu : CpuState
  mem : Update

/-! ## A collection over the boundaries of a run -/

namespace Breakpoints

open Breakpoint

def visits (bp : Breakpoint) (addr : Addr) (past : List Boundary) : Nat :=
  past.countP fun v => v.cpu.pc.word == addr && bp.checkStatus v.cpu v.mem

/-- The breakpoint at the boundary holds there, and has counted its visits with this one. -/
def Due (b : Breakpoints) (past : List Boundary) (v : Boundary) : Prop :=
  ∃ bp, b.find v.cpu.pc.word = some bp ∧ bp.checkStatus v.cpu v.mem ∧
    bp.counter.toNat ≤ visits bp v.cpu.pc.word past + 1

def countDown (bp : Breakpoint) (n : Nat) : Breakpoint :=
  { bp with counter := BitVec.ofNat 64 (bp.counter.toNat - n) }

structure CountedDown (b : Breakpoints) (past : List Boundary) (c : Breakpoints) : Prop where
  find : ∀ addr, c.find addr = (b.find addr).map fun bp => countDown bp (visits bp addr past)
  left : ∀ addr bp, b.find addr = some bp →
    visits bp addr past = 0 ∨ visits bp addr past < bp.counter.toNat

variable {b c : Breakpoints} {past : List Boundary}

theorem countedDown_start (b : Breakpoints) : b.CountedDown [] b where
  find addr := by
    cases b.find addr with
    | none => rfl
    | some bp => simp [visits, countDown]
  left _ _ _ := .inl rfl

theorem visits_append (bp : Breakpoint) (addr : Addr) (past : List Boundary) (v : Boundary) :
    visits bp addr (past ++ [v]) = visits bp addr past +
      if v.cpu.pc.word = addr ∧ bp.checkStatus v.cpu v.mem then 1 else 0 := by
  simp [visits, List.countP_append, List.countP_singleton]

theorem counter_countDown (bp : Breakpoint) (n : Nat) :
    (countDown bp n).counter.toNat = bp.counter.toNat - n := toNat_counter_sub bp.counter n

theorem CountedDown.due_iff (h : b.CountedDown past c) (v : Boundary) :
    (c.check v.cpu v.mem).1 = true ↔ b.Due past v := by
  have hfind := h.find v.cpu.pc.word
  cases hbp : b.find v.cpu.pc.word with
  | none =>
      rw [hbp] at hfind
      rw [check_of_none v.mem hfind]
      simp [Due, hbp]
  | some bp =>
      rw [hbp, Option.map_some] at hfind
      by_cases hholds : bp.checkStatus v.cpu v.mem
      · rw [(check_of_checkStatus hfind hholds).1, counter_countDown]
        simp only [Due, hbp, Option.some_inj, exists_eq_left', hholds, true_and]
        omega
      · rw [check_of_not_checkStatus hfind hholds]
        simp [Due, hbp, hholds]

theorem CountedDown.uncounted (h : b.CountedDown past c) {v : Boundary}
    (hnone : ∀ bp, b.find v.cpu.pc.word = some bp → ¬ bp.checkStatus v.cpu v.mem) :
    b.CountedDown (past ++ [v]) c := by
  have hsame : ∀ addr bp, b.find addr = some bp →
      visits bp addr (past ++ [v]) = visits bp addr past := by
    intro addr bp haddr
    rw [visits_append, if_neg, Nat.add_zero]
    rintro ⟨rfl, hholds⟩
    exact hnone bp haddr hholds
  refine ⟨fun addr => ?_, fun addr bp haddr => ?_⟩
  · rw [h.find addr]
    exact Option.map_congr fun bp haddr => by rw [hsame addr bp haddr]
  · rw [hsame addr bp haddr]
    exact h.left addr bp haddr

theorem CountedDown.counted (h : b.CountedDown past c) {v : Boundary} {bp : Breakpoint}
    (hbp : b.find v.cpu.pc.word = some bp) (hholds : bp.checkStatus v.cpu v.mem)
    (hleft : visits bp v.cpu.pc.word past + 1 < bp.counter.toNat) :
    b.CountedDown (past ++ [v]) (c.check v.cpu v.mem).2 := by
  have hfind := h.find v.cpu.pc.word
  rw [hbp, Option.map_some] at hfind
  have hone : visits bp v.cpu.pc.word (past ++ [v]) = visits bp v.cpu.pc.word past + 1 := by
    rw [visits_append, if_pos ⟨rfl, hholds⟩]
  have hother : ∀ addr other, addr ≠ v.cpu.pc.word →
      visits other addr (past ++ [v]) = visits other addr past := by
    intro addr other hne
    rw [visits_append, if_neg fun hat => hne hat.1.symm, Nat.add_zero]
  constructor
  · intro addr
    rw [(check_of_checkStatus hfind hholds).2]
    split_ifs with haddr
    · subst haddr
      rw [hbp, Option.map_some, hone, visited, if_neg, counter_countDown, Nat.sub_sub]
      · rfl
      · rw [counter_countDown]
        omega
    · rw [h.find addr]
      exact Option.map_congr fun other _ => by rw [hother addr other haddr]
  · intro addr other hfound
    by_cases haddr : addr = v.cpu.pc.word
    · subst haddr
      rw [hbp] at hfound
      cases hfound
      rw [hone]
      exact .inr hleft
    · rw [hother addr other haddr]
      exact h.left addr other hfound

theorem CountedDown.check (h : b.CountedDown past c) {v : Boundary} (hdue : ¬ b.Due past v) :
    b.CountedDown (past ++ [v]) (c.check v.cpu v.mem).2 := by
  have hfind := h.find v.cpu.pc.word
  cases hbp : b.find v.cpu.pc.word with
  | none =>
      rw [hbp] at hfind
      rw [check_of_none v.mem hfind]
      exact h.uncounted fun bp hfound => absurd (hbp.symm.trans hfound) (by simp)
  | some bp =>
      by_cases hholds : bp.checkStatus v.cpu v.mem
      · refine h.counted hbp hholds (Nat.lt_of_not_le fun hle => hdue ⟨bp, hbp, hholds, hle⟩)
      · rw [hbp, Option.map_some] at hfind
        rw [check_of_not_checkStatus hfind hholds]
        refine h.uncounted fun other hfound => ?_
        rw [hbp, Option.some_inj] at hfound
        exact hfound ▸ hholds

end Breakpoints

/-! ## Watchpoints that watch nothing -/

namespace Watchpoints

structure AtRest (w : Watchpoints) : Prop where
  inactive : ∀ e ∈ w.wps.entries, e.2.active = false
  unmatched : w.wpBreak = false

theorem AtRest.check {w : Watchpoints} (h : w.AtRest) (access : WatchpointAccess)
    (globalAddr : BitVec 32) (value : Byte) (oldValue : Option Byte) :
    (w.check access globalAddr value oldValue).AtRest := by
  have hnone : (w.wps.entries.filter fun e => (e.2.check access globalAddr value).1) = [] := by
    refine List.filter_eq_nil_iff.mpr fun e he => ?_
    simp [Watchpoint.check, h.inactive e he]
  simp only [Watchpoints.check, hnone, List.map_nil, List.isEmpty_nil, if_true]
  refine ⟨fun e he => ?_, h.unmatched⟩
  obtain ⟨old, hold, rfl⟩ := List.mem_map.mp he
  simp [Watchpoint.check, h.inactive old hold]

theorem AtRest.checkReads {w : Watchpoints} (h : w.AtRest) (mem : Memory) :
    (Debugger.checkReads mem w).AtRest := by
  have hread : ∀ (i : Fin 2) (w : Watchpoints), w.AtRest → (Debugger.checkRead mem i w).AtRest := by
    intro i w hw
    rw [Debugger.checkRead]
    split
    · exact hw
    · exact hw.check _ _ _ _
  exact hread 1 _ (hread 0 _ h)

theorem AtRest.checkWrites {w : Watchpoints} (h : w.AtRest) (edits : MemoryEdits) (mem : Memory) :
    (Debugger.checkWrites edits (mem, w)).2.AtRest := by
  have hwrite : ∀ (i : Fin 2) (s : Memory × Watchpoints), s.2.AtRest →
      (Debugger.checkWrite edits i s).2.AtRest := by
    intro i s hs
    simp only [Debugger.checkWrite]
    split_ifs
    · exact hs
    · exact hs
    · exact hs.check _ _ _ _
  exact hwrite 1 _ (hwrite 0 _ h)

theorem AtRest.checkBreak {w : Watchpoints} (h : w.AtRest) : w.checkBreak = (false, w) := by
  simp [Watchpoints.checkBreak, h.unmatched]

end Watchpoints

/-! ## The plain program -/

namespace Sys

variable {σ : Type}

theorem enter_withCount (irq : Bool) (count : Nat) (s : Sys σ) :
    ({ s with mem := s.mem.withCount count }).enter irq =
      { s.enter irq with mem := (s.enter irq).mem.withCount count } := by
  have hbegin : ∀ t : Sys σ, ({ t with mem := t.mem.withCount count }).beginInstruction =
      { t.beginInstruction with mem := t.beginInstruction.mem.withCount count } := by
    intro t
    rw [beginInstruction, beginInstruction]
    split <;> rfl
  rw [enter, enter]
  split
  · exact hbegin (s.latchIrq irq)
  · rfl

theorem targets_withCount (op : Byte) (mc count : Nat) (s : Sys σ) :
    ({ s with mem := s.mem.withCount count }).targets op mc = s.targets op mc := by
  rw [targets, targets]
  cases decode op <;> rfl

end Sys

namespace Hardware

variable {δ : Type}

theorem storeTargets_withCount (dev : Devices δ) (count : Nat) (h : Hardware δ) :
    (h.withCount count).storeTargets dev = h.storeTargets dev := by
  have hirq : (h.withCount count).irqLine dev = h.irqLine dev := irqLine_setMem dev h rfl
  have hsys : (h.withCount count).toSys = { h.toSys with mem := h.toSys.mem.withCount count } := rfl
  rw [storeTargets, storeTargets, hirq, hsys, Sys.enter_withCount, Sys.targets_withCount]
  rfl

def boundary (h : Hardware δ) : Boundary := ⟨h.cpu, h.mem.update⟩

def boundaries (dev : Devices δ) (h : Hardware δ) : Nat → List Boundary
  | 0 => []
  | n + 1 => boundaries dev h n ++ ((interactive dev (n + 1) h).map boundary).toList

/-- The next instruction stores to no read-only byte and enables no second RAM disk. -/
structure Unguarded (dev : Devices δ) (edits : MemoryEdits) (h : Hardware δ) : Prop where
  spared : ∀ a ∈ h.storeTargets dev, edits.protects a = false
  single : ¬ h.Collides dev

end Hardware

namespace Emulator

variable {δ F : Type}

/-- Behind the `n`-th instruction of the plain program a breakpoint is due. -/
def DueBehind (dev : Devices δ) (s : Emulator δ F) : Nat → Prop
  | 0 => False
  | n + 1 => ∃ p, Hardware.interactive dev (n + 1) s.hardware = some p ∧
      s.debugger.breakpoints.Due (s.hardware.boundaries dev n) p.boundary

/-- The hook is called, and has only the breakpoints to break for. -/
structure Attends (s : Emulator δ F) : Prop where
  attached : s.debugAttached = true
  watchpoints : s.debugger.watchpoints.AtRest

variable [BEq F] [Zero F]

/-! ## One instruction -/

theorem checkBreaks_attends {lua : LuaCheck F} {s : Emulator δ F} (hattends : s.Attends)
    (hlua : ∀ id, (lua.runs id).calledBreak = false)
    (hspared : ∀ e ∈ s.hardware.mem.debug.entries,
      s.debugger.memoryEdits.protects e.addr = false) :
    (s.checkBreaks lua).1 =
        (if (s.debugger.breakpoints.check s.hardware.cpu s.hardware.mem.update).1 then
          some (.breakpoint s.hardware.cpu.pc.word) else none) ∧
      (s.checkBreaks lua).2.debugger.breakpoints =
        (s.debugger.breakpoints.check s.hardware.cpu s.hardware.mem.update).2 ∧
      (s.checkBreaks lua).2.Attends := by
  have hmem : s.checkAccesses.1 = s.hardware.mem := Debugger.checkWrites_quiet _ hspared
  have hrest : s.checkAccesses.2.AtRest := (hattends.watchpoints.checkReads _).checkWrites _ _
  have hscripts : ∀ order, (s.debugger.scripts.check order lua.runs).1 = false := by
    intro order
    by_contra hbreak
    rw [Bool.not_eq_false] at hbreak
    obtain ⟨key, -, -, hcalled, -⟩ := Scripts.check_break hbreak
    rw [hlua key] at hcalled
    cases hcalled
  refine ⟨?_, ?_, hattends.attached, ?_⟩
  · simp only [checkBreaks, hmem, hrest.checkBreak, hscripts, Bool.or_self]
    rfl
  · simp only [checkBreaks, hmem]
  · simp only [checkBreaks, hrest.checkBreak]
    exact hrest

structure Looked (s : Emulator δ F) (v : Boundary) (broke : Bool) (t : Emulator δ F) : Prop where
  breaks : broke = (s.debugger.breakpoints.check v.cpu v.mem).1
  breakpoints : t.debugger.breakpoints = (s.debugger.breakpoints.check v.cpu v.mem).2
  memoryEdits : t.debugger.memoryEdits = s.debugger.memoryEdits
  attends : t.Attends
  status : t.status = s.status
  adds : Adds (if broke then some (.breakpoint v.cpu.pc.word) else none) s t

theorem looked_hook {lua : LuaCheck F} {s : Emulator δ F} (hattends : s.Attends)
    (hlua : ∀ id, (lua.runs id).calledBreak = false)
    (hspared : ∀ e ∈ s.hardware.mem.debug.entries,
      s.debugger.memoryEdits.protects e.addr = false) :
    Looked s s.hardware.boundary (s.hook lua).1 (s.hook lua).2 := by
  obtain ⟨hevent, hbreakpoints, hattended⟩ := checkBreaks_attends hattends hlua hspared
  rw [hook, if_pos hattends.attached]
  change _ = if (s.debugger.breakpoints.check s.hardware.boundary.cpu
    s.hardware.boundary.mem).1 = true then _ else _ at hevent
  cases hbroke : (s.debugger.breakpoints.check s.hardware.boundary.cpu
      s.hardware.boundary.mem).1 with
  | true =>
      rw [hbroke, if_pos rfl] at hevent
      rw [debug_some hevent]
      exact ⟨hbroke.symm, hbreakpoints, rfl, ⟨hattended.attached, hattended.watchpoints⟩, rfl,
        rfl, rfl⟩
  | false =>
      rw [hbroke, if_neg Bool.false_ne_true] at hevent
      rw [debug_none hevent]
      exact ⟨hbroke.symm, hbreakpoints, rfl, ⟨hattended.attached, hattended.watchpoints⟩, rfl,
        rfl, rfl⟩

omit [BEq F] [Zero F] in
theorem checkException_single {s : Emulator δ F} (hsingle : ¬ 1 < s.hardware.mem.mappingsEnabled) :
    s.checkException = (false, { s with hardware := s.hardware.withCount 0 }) := by
  simp [checkException, Hardware.checkMapping, Memory.isException, hsingle]
  rfl

theorem Beside.looked {dev : Devices δ} {lua : LuaCheck F} {s : Emulator δ F} {h : Hardware δ}
    (hb : s.Beside h) (hattends : s.Attends) (hlua : ∀ id, (lua.runs id).calledBreak = false)
    (hplain : h.Unguarded dev s.debugger.memoryEdits) :
    ∃ broke t p, s.executeInstruction dev lua = some (broke, t) ∧
      (h.executeInstruction dev none).map Prod.snd = some p ∧ t.Beside p ∧
      Looked s p.boundary broke t := by
  have hparked : s.hardware.Parked := hb.hardware ▸ Hardware.parked_withCount hb.parked _
  have hspared : ∀ a ∈ s.hardware.storeTargets dev, s.debugger.memoryEdits.protects a = false := by
    rw [hb.hardware, Hardware.storeTargets_withCount]
    exact hplain.spared
  have hsingle : ¬ s.hardware.Collides dev := by
    rw [hb.hardware, Hardware.collides_withCount dev (.inr hb.counts)]
    exact hplain.single
  obtain ⟨u, hu⟩ := Option.isSome_iff_exists.mp (s.hardware.executeCycles_isSome dev)
  have hfew : ¬ 1 < u.mem.mappingsEnabled := by
    have hregisters := congrArg Prod.snd (Hardware.registers_executeCycles hparked hu)
    change u.mem.mappingsEnabled = _ at hregisters
    rw [hregisters]
    exact hsingle
  have hentries := spared_entries hparked hspared hu
  have hstill : ({ s with hardware := u } : Emulator δ F).Attends :=
    ⟨hattends.attached, hattends.watchpoints⟩
  have hlooked := looked_hook hstill hlua hentries
  have hquiet := (hook_quiet lua hparked hb.live (fun _ => hspared) hu).1
  obtain ⟨broke, t, hrun, hlooks, hcpu, hmem⟩ : ∃ broke t,
      s.executeInstruction dev lua = some (broke, t) ∧ Looked s u.boundary broke t ∧
        t.hardware.cpu = u.cpu ∧ t.hardware.mem.update = u.mem.update := by
    rw [Emulator.executeInstruction, hu, Option.map_some]
    dsimp only
    cases hbroke : (hook lua { s with hardware := u }).1 with
    | true =>
        rw [hbroke] at hlooked
        rw [if_pos rfl]
        refine ⟨true, _, rfl, ?_, by rw [hquiet], by rw [hquiet]⟩
        exact ⟨hlooked.breaks, hlooked.breakpoints, hlooked.memoryEdits, hlooked.attends,
          hlooked.status, hlooked.adds⟩
    | false =>
        rw [hbroke] at hlooked
        have hcalm : ¬ 1 < (hook lua { s with hardware := u }).2.hardware.mem.mappingsEnabled := by
          rw [hquiet]
          exact hfew
        rw [if_neg Bool.false_ne_true, checkException_single hcalm]
        refine ⟨false, _, rfl, ?_, ?_, ?_⟩
        · exact ⟨hlooked.breaks, hlooked.breakpoints, hlooked.memoryEdits,
            ⟨hlooked.attends.attached, hlooked.attends.watchpoints⟩, hlooked.status, hlooked.adds⟩
        · rw [hquiet]
          rfl
        · rw [hquiet]
          rfl
  obtain ⟨p, hp, hbeside⟩ := hb.executeInstruction hrun
    ⟨rfl, fun _ => ⟨hspared, fun hcollides => absurd hcollides hsingle⟩⟩
  have hboundary : p.boundary = u.boundary := by
    have hhardware := hbeside.hardware
    have hpcpu : t.hardware.cpu = p.cpu := by rw [hhardware]; rfl
    have hpmem : t.hardware.mem.update = p.mem.update := by rw [hhardware]; rfl
    rw [Hardware.boundary, ← hpcpu, ← hpmem, hcpu, hmem]
    rfl
  exact ⟨broke, t, p, hrun, hp, hbeside, hboundary ▸ hlooks⟩

/-! ## A run -/

section Run

variable {dev : Devices δ} {fuel : Nat} {s t u : Emulator δ F} {n : Nat}

structure Going (dev : Devices δ) (s : Emulator δ F) (n : Nat) (t : Emulator δ F) : Prop where
  status : t.status = .run
  attends : t.Attends
  memoryEdits : t.debugger.memoryEdits = s.debugger.memoryEdits
  adds : Adds none s t
  plain : ∃ p, Hardware.interactive dev n s.hardware = some p ∧ t.Beside p
  counted : s.debugger.breakpoints.CountedDown (s.hardware.boundaries dev n)
    t.debugger.breakpoints
  undue : ¬ s.DueBehind dev n

structure Stopped (dev : Devices δ) (s : Emulator δ F) (n : Nat) (t : Emulator δ F) : Prop where
  status : t.status = .stop
  plain : ∃ p, Hardware.interactive dev n s.hardware = some p ∧ t.hardware.SameState p ∧
    Adds (some (.breakpoint p.cpu.pc.word)) s t

omit [BEq F] [Zero F] in
theorem Beside.sameState {h : Hardware δ} (hb : s.Beside h) : s.hardware.SameState h := by
  rw [hb.hardware]
  exact ⟨rfl, rfl, rfl, rfl, rfl, rfl⟩

omit [BEq F] [Zero F] in
theorem Going.start (hparked : s.hardware.Parked) (hcount : s.hardware.mem.mappingsEnabled ≤ 1)
    (hlive : s.debugger.recorder.lastRecord = true) (hattends : s.Attends)
    (hstatus : s.status = Status.run) : Going dev s 0 s where
  status := hstatus
  attends := hattends
  memoryEdits := rfl
  adds := ⟨rfl, rfl⟩
  plain := ⟨s.hardware, rfl, rfl, ⟨hcount, hcount⟩, hparked, hlive⟩
  counted := s.debugger.breakpoints.countedDown_start
  undue := id

theorem Going.step (fuel : Nat) (h : Going dev s n t) {lua : LuaCheck F}
    (hlua : ∀ id, (lua.runs id).calledBreak = false)
    (hplain : ∀ p, Hardware.interactive dev n s.hardware = some p →
      p.Unguarded dev s.debugger.memoryEdits) :
    ∃ u, t.step dev fuel (.instruction lua) = some u ∧
      (s.DueBehind dev (n + 1) → Stopped dev s (n + 1) u) ∧
      (¬ s.DueBehind dev (n + 1) → Going dev s (n + 1) u) := by
  obtain ⟨p, hp, hb⟩ := h.plain
  have hguard : p.Unguarded dev t.debugger.memoryEdits := h.memoryEdits ▸ hplain p hp
  obtain ⟨broke, u, q, hrun, hq, hbeside, hlooked⟩ := hb.looked h.attends hlua hguard
  have hnext : Hardware.interactive dev (n + 1) s.hardware = some q := by
    rw [Hardware.interactive, hp, Option.bind_some, hq]
  have hboundaries : s.hardware.boundaries dev (n + 1) =
      s.hardware.boundaries dev n ++ [q.boundary] := by
    rw [Hardware.boundaries, hnext]
    rfl
  have hdue : broke = true ↔ s.DueBehind dev (n + 1) := by
    rw [hlooked.breaks, h.counted.due_iff, DueBehind, hnext]
    simp
  have hexecuted : t.step dev fuel (.instruction lua) = some (if broke then u.halt else u) := by
    rw [Emulator.step, executeRunning, if_pos h.status, hrun]
    rfl
  refine ⟨_, hexecuted, fun hbehind => ?_, fun hundue => ?_⟩
  · have hbroke := hdue.mpr hbehind
    have hadds := hlooked.adds
    rw [hbroke, if_pos rfl] at hadds ⊢
    exact ⟨rfl, q, hnext, hbeside.sameState, hadds.1.trans (congrArg (· + 1) h.adds.1), hadds.2⟩
  · have hgoes : broke = false := by
      rw [← Bool.not_eq_true]
      exact mt hdue.mp hundue
    have hadds := hlooked.adds
    rw [hgoes, if_neg Bool.false_ne_true] at hadds ⊢
    refine ⟨hlooked.status.trans h.status, hlooked.attends, hlooked.memoryEdits.trans h.memoryEdits,
      ⟨hadds.1.trans h.adds.1, hadds.2.trans h.adds.2⟩, ⟨q, hnext, hbeside⟩, ?_, hundue⟩
    rw [hboundaries, hlooked.breakpoints]
    refine h.counted.check fun hbreak => hundue ⟨q, hnext, hbreak⟩

theorem Stopped.executes_none (h : Stopped dev s n t) (lua : LuaCheck F) :
    t.step dev fuel (.instruction lua) = none := by
  rw [step, executeRunning, if_neg]
  rw [h.status]
  exact fun heq => by cases heq

theorem Going.run (fuel : Nat) (h : Going dev s n t) {luas : List (LuaCheck F)}
    (hluas : ∀ lua ∈ luas, ∀ id, (lua.runs id).calledBreak = false)
    (hplain : ∀ k < luas.length, ∀ p, Hardware.interactive dev (n + k) s.hardware = some p →
      p.Unguarded dev s.debugger.memoryEdits) :
    ((Runs.exec (Emulator.step dev fuel) t (luas.map .instruction)).isSome ↔
        ∀ k < luas.length, ¬ s.DueBehind dev (n + k)) ∧
      ∀ u, Runs.exec (Emulator.step dev fuel) t (luas.map .instruction) = some u →
        (s.DueBehind dev (n + luas.length) → Stopped dev s (n + luas.length) u) ∧
        (¬ s.DueBehind dev (n + luas.length) → Going dev s (n + luas.length) u) := by
  induction luas generalizing t n with
  | nil =>
      refine ⟨by simp [Runs.exec], fun u hu => ?_⟩
      cases hu
      exact ⟨fun hdue => absurd hdue h.undue, fun _ => h⟩
  | cons lua luas ih =>
      obtain ⟨u, hu, hstopped, hgoing⟩ := h.step fuel (hluas lua List.mem_cons_self)
        (hplain 0 (Nat.succ_pos _))
      have hshift : ∀ k, n + (k + 1) = n + 1 + k := fun k => by omega
      rw [List.map_cons, Runs.exec, hu, Option.bind_some, List.length_cons, hshift]
      by_cases hdue : s.DueBehind dev (n + 1)
      · cases luas with
        | nil =>
            refine ⟨?_, fun v hv => ?_⟩
            · simp only [List.map_nil, Runs.exec, Option.isSome_some, List.length_nil, true_iff]
              intro k hk
              obtain rfl : k = 0 := Nat.lt_one_iff.mp hk
              exact h.undue
            · cases hv
              exact ⟨fun _ => hstopped hdue, fun hundue => absurd hdue hundue⟩
        | cons other others =>
            rw [List.map_cons, Runs.exec, (hstopped hdue).executes_none, Option.bind_none]
            refine ⟨?_, fun v hv => by cases hv⟩
            simp only [Option.isSome_none, Bool.false_eq_true, false_iff]
            exact fun hall => hall 1 (Nat.succ_lt_succ (Nat.succ_pos _)) hdue
      · have hrest := ih (hgoing hdue) (fun x hx => hluas x (List.mem_cons_of_mem _ hx))
          fun k hk => hshift k ▸ hplain (k + 1) (Nat.succ_lt_succ hk)
        refine ⟨?_, hrest.2⟩
        rw [hrest.1]
        constructor
        · intro hall k hk
          cases k with
          | zero => exact h.undue
          | succ k => exact hshift k ▸ hall k (Nat.lt_of_succ_lt_succ hk)
        · intro hall k hk
          exact hshift k ▸ hall (k + 1) (Nat.succ_lt_succ hk)

/--
A run under the debugger goes on while the program without one comes to no breakpoint that
is due, and stops behind the instruction that leads to the first one.
-/
theorem breaks_where_due (hparked : s.hardware.Parked)
    (hcount : s.hardware.mem.mappingsEnabled ≤ 1)
    (hlive : s.debugger.recorder.lastRecord = true) (hattends : s.Attends)
    (hstatus : s.status = Status.run) {luas : List (LuaCheck F)}
    (hluas : ∀ lua ∈ luas, ∀ id, (lua.runs id).calledBreak = false)
    (hplain : ∀ n < luas.length, ∀ p, Hardware.interactive dev n s.hardware = some p →
      p.Unguarded dev s.debugger.memoryEdits) :
    ((Runs.exec (step dev fuel) s (luas.map .instruction)).isSome ↔
        ∀ n < luas.length, ¬ s.DueBehind dev n) ∧
      ∀ t, Runs.exec (step dev fuel) s (luas.map .instruction) = some t →
        ∃ p, Hardware.interactive dev luas.length s.hardware = some p ∧
          t.hardware.SameState p ∧
          (s.DueBehind dev luas.length →
            t.status = .stop ∧ Adds (some (.breakpoint p.cpu.pc.word)) s t) ∧
          (¬ s.DueBehind dev luas.length → t.status = .run ∧ Adds none s t) := by
  have hshift : ∀ k, 0 + k = k := Nat.zero_add
  have hstart : Going dev s 0 s := .start hparked hcount hlive hattends hstatus
  obtain ⟨hsome, hends⟩ := hstart.run fuel hluas fun k hk => (hshift k).symm ▸ hplain k hk
  simp only [hshift] at hsome hends
  refine ⟨hsome, fun t ht => ?_⟩
  obtain ⟨hstopped, hgoing⟩ := hends t ht
  by_cases hdue : s.DueBehind dev luas.length
  · obtain ⟨hstop, p, hp, hsame, hadds⟩ := hstopped hdue
    exact ⟨p, hp, hsame, fun _ => ⟨hstop, hadds⟩, fun hundue => absurd hdue hundue⟩
  · have hgoes := hgoing hdue
    obtain ⟨p, hp, hb⟩ := hgoes.plain
    exact ⟨p, hp, hb.sameState, fun h => absurd h hdue, fun _ => ⟨hgoes.status, hgoes.adds⟩⟩

end Run

def storeAndBreakpoint : Emulator Unit Int :=
  ({ oneOpcode 0x77 with debugAttached := true, status := .run }).setDebugger
    fun d => { d with breakpoints := d.breakpoints.add (Breakpoints.untilVisit 1) }

/-- A witness: `MOV M,A` stores its byte, and then the emulator has stopped. -/
theorem breaks_where_due_store :
    ∃ t p, Runs.exec (step .silent 0) storeAndBreakpoint [.instruction noLua] = some t ∧
      Hardware.interactive .silent 1 storeAndBreakpoint.hardware = some p ∧
      t.hardware.SameState p ∧ t.status = .stop := by
  have hsingle : (storeAndBreakpoint.hardware.memAfterNext .silent).mappingsEnabled ≤ 1 := by
    decide +kernel
  have hpc : (Hardware.interactive .silent 1 storeAndBreakpoint.hardware).map
      (fun p => (p.cpu.pc.word, p.mem.update.mapping.data)) = some (1, 0) := by decide +kernel
  have hluas : ∀ lua ∈ [noLua], ∀ id, (lua.runs id).calledBreak = false := by
    intro lua hlua id
    rw [List.mem_singleton.mp hlua]
    rfl
  have hstart : storeAndBreakpoint.Attends := ⟨rfl, ⟨by decide, rfl⟩⟩
  have hplain : ∀ n < [noLua].length, ∀ p,
      Hardware.interactive .silent n storeAndBreakpoint.hardware = some p →
        p.Unguarded .silent storeAndBreakpoint.debugger.memoryEdits := by
    intro n hn p hp
    obtain rfl : n = 0 := Nat.lt_one_iff.mp hn
    cases hp
    exact ⟨fun _ _ => rfl, Nat.not_lt.mpr hsingle⟩
  obtain ⟨hgoes, hends⟩ : ((Runs.exec (step .silent 0) storeAndBreakpoint
      ([noLua].map .instruction)).isSome ↔ _) ∧ _ :=
    breaks_where_due (Hardware.parked_ofRam _ _) (Nat.zero_le 1) rfl hstart rfl hluas hplain
  obtain ⟨t, ht⟩ := Option.isSome_iff_exists.mp (hgoes.mpr fun n hn => by
    obtain rfl : n = 0 := Nat.lt_one_iff.mp hn
    exact id)
  obtain ⟨p, hp, hsame, hstops, -⟩ := hends t ht
  rw [List.length_singleton] at hp hstops
  have hmapped := hpc
  rw [hp, Option.map_some, Option.some_inj, Prod.mk.injEq] at hmapped
  refine ⟨t, p, ht, hp, hsame, (hstops ⟨p, hp, ?_⟩).1⟩
  refine ⟨Breakpoints.untilVisit 1, ?_, ?_, ?_⟩
  · change Breakpoints.find _ p.cpu.pc.word = _
    rw [hmapped.1]
    rfl
  · have hdata : p.boundary.mem.mapping.data = 0 := hmapped.2
    simp [Breakpoint.checkStatus, Breakpoints.untilVisit, hdata]
  · exact Nat.le_add_left 1 _

end Emulator

end V6Emul
