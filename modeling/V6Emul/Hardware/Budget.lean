import V6Emul.Hardware.Headless
import V6Emul.Hardware.Lockstep

/-!
# The budget of a headless run

Every instruction takes one to six turns, a turn takes four clocks and sixteen pixels.
A limit on the clocks or on the frames therefore ends a headless run, and the run goes
past the limit by less than one instruction.
-/

namespace V6Emul

namespace Hardware

variable {δ : Type}

/-! ## Counting turns -/

def turns (dev : Devices δ) : Nat → Hardware δ → Nat
  | 0, _ => 0
  | fuel + 1, h =>
      if (h.machineCycle dev).isInstructionExecuted then 1
      else turns dev fuel (h.machineCycle dev) + 1

def instructionTurns (dev : Devices δ) (h : Hardware δ) : Nat :=
  turns dev cyclesMax (h.setMem h.mem.debugInit)

def headlessTurns (dev : Devices δ) : Nat → Hardware δ → Nat
  | 0, _ => 0
  | n + 1, h => h.instructionTurns dev + (h.executeCycles dev).elim 0 (headlessTurns dev n)

theorem turns_succ (dev : Devices δ) (fuel : Nat) (h : Hardware δ) :
    turns dev (fuel + 1) h =
      if (h.machineCycle dev).isInstructionExecuted then 1
      else turns dev fuel (h.machineCycle dev) + 1 := rfl

theorem turns_le (dev : Devices δ) (fuel : Nat) (h : Hardware δ) : turns dev fuel h ≤ fuel := by
  induction fuel generalizing h with
  | zero => exact Nat.le_refl 0
  | succ fuel ih =>
      rw [turns]
      split_ifs
      · exact Nat.succ_le_succ (Nat.zero_le fuel)
      · exact Nat.succ_le_succ (ih _)

theorem turns_pos (dev : Devices δ) (fuel : Nat) (h : Hardware δ) : 0 < turns dev (fuel + 1) h := by
  rw [turns]
  split_ifs
  · exact Nat.one_pos
  · exact Nat.succ_pos _

theorem turns_mono {dev : Devices δ} {fuel : Nat} {h : Hardware δ}
    (hdone : (runCycles dev fuel h).isSome) : turns dev (fuel + 1) h = turns dev fuel h := by
  induction fuel generalizing h with
  | zero => cases hdone
  | succ fuel ih =>
      rw [runCycles_succ] at hdone
      rw [turns_succ dev (fuel + 1) h, turns_succ dev fuel h]
      split_ifs with hexecuted
      · rfl
      · rw [if_neg hexecuted] at hdone
        rw [ih hdone]

theorem inStep_runCycles {dev : Devices δ} {fuel k : Nat} {h t : Hardware δ} (hs : h.InStep k)
    (hrun : runCycles dev fuel h = some t) : t.InStep (k + turns dev fuel h) := by
  induction fuel generalizing h k with
  | zero => cases hrun
  | succ fuel ih =>
      have hnext := inStep_machineCycle dev hs
      rw [runCycles_succ] at hrun
      rw [turns]
      split_ifs at hrun ⊢ with hexecuted
      · rw [← Option.some_inj.mp hrun]
        exact hnext
      · have hrest := ih hnext hrun
        rwa [Nat.add_assoc, Nat.add_comm 1] at hrest

theorem runCycles_six (dev : Devices δ) (h : Hardware δ) : (runCycles dev 6 h).isSome := by
  rw [runCycles_succ]
  split_ifs with hdone
  · rfl
  · have hbound := (Sys.mCycles_bounds (h.machineCycle dev).cpu.ir).2
    have hmc := Sys.mc_ne_of_not_executed hdone
    have hpos : (h.machineCycle dev).cpu.mc.toNat ≠ 0 := fun hzero =>
      hmc (BitVec.eq_of_toNat_eq hzero)
    apply runCycles_isSome dev
    · exact Sys.inCycle_executeMachineCycle _ _ _
    · exact hmc
    · omega

theorem instructionTurns_bounds (dev : Devices δ) (h : Hardware δ) :
    0 < h.instructionTurns dev ∧ h.instructionTurns dev ≤ 6 := by
  rw [instructionTurns, cyclesMax]
  refine ⟨turns_pos dev 6 _, ?_⟩
  rw [turns_mono (runCycles_six dev _)]
  exact turns_le dev 6 _

theorem inStep_executeCycles {dev : Devices δ} {k : Nat} {h t : Hardware δ} (hs : h.InStep k)
    (hrun : h.executeCycles dev = some t) : t.InStep (k + h.instructionTurns dev) :=
  inStep_runCycles (h := h.setMem h.mem.debugInit) ⟨hs.clock, hs.beam⟩ hrun

/-! ## The limits -/

/-- The largest limit that no run of instructions can step over when the clock wraps. -/
def maxCyclesMax : Nat := 2 ^ 64 - 24

/-- The ends of frames that the beam passes in a number of turns. -/
def framesCrossed (h : Hardware δ) (turns : Nat) : Nat :=
  (h.display.idx.toNat + 16 * turns) / frameLen

structure Under (limits : HeadlessLimits) (h : Hardware δ) (turns : Nat) : Prop where
  cycles : 0 < limits.maxCycles → limits.maxCycles.toNat ≤ maxCyclesMax →
    4 * turns < limits.maxCycles.toNat
  frames : 0 < limits.maxFrames → h.framesCrossed turns < limits.maxFrames.toNat

/-- The limits that count have been passed by less than one instruction. -/
structure Within (limits : HeadlessLimits) (h : Hardware δ) (turns : Nat) : Prop where
  cycles : 0 < limits.maxCycles → limits.maxCycles.toNat ≤ maxCyclesMax →
    4 * turns < limits.maxCycles.toNat + 24
  frames : 0 < limits.maxFrames → h.framesCrossed turns ≤ limits.maxFrames.toNat

theorem InStep.framesCrossed_eq {k : Nat} {h : Hardware δ} (hs : h.InStep k) (turns : Nat) :
    h.framesCrossed turns = (16 * k % frameLen + 16 * turns) / frameLen := by
  rw [framesCrossed, hs.beam.idx, Int.toNat_natCast]

theorem InStep.frames {k turns : Nat} {h t : Hardware δ} (hs : h.InStep k)
    (ht : t.InStep (k + turns)) :
    t.display.update.frameNum - h.display.update.frameNum =
      BitVec.ofNat 64 (h.framesCrossed turns) := by
  have hsplit : 16 * (k + turns) / frameLen =
      16 * k / frameLen + (16 * k % frameLen + 16 * turns) / frameLen := by
    simp only [frameLen, frameW, frameH, Nat.reduceMul]
    omega
  rw [hs.beam.frameNum, ht.beam.frameNum, hs.framesCrossed_eq, hsplit, BitVec.ofNat_add,
    add_sub_cancel_left]

theorem InStep.cycles {k turns : Nat} {h t : Hardware δ} (hs : h.InStep k)
    (ht : t.InStep (k + turns)) : t.cpu.cc - h.cpu.cc = BitVec.ofNat 64 (4 * turns) := by
  rw [hs.clock, ht.clock, Nat.mul_add, BitVec.ofNat_add, add_sub_cancel_left]

theorem Under.within {limits : HeadlessLimits} {h : Hardware δ} {turns n : Nat}
    (hu : Under limits h turns) (hn : n ≤ 6) : Within limits h (turns + n) := by
  refine ⟨fun hpos hmax => ?_, fun hpos => ?_⟩
  · have hcycles := hu.cycles hpos hmax
    omega
  · have hframes := hu.frames hpos
    rw [framesCrossed] at hframes ⊢
    simp only [frameLen, frameW, frameH, Nat.reduceMul] at hframes ⊢
    omega

theorem Within.under {limits : HeadlessLimits} {k turns : Nat} {h t : Hardware δ}
    (hw : Within limits h turns) (hs : h.InStep k) (ht : t.InStep (k + turns))
    (hgoes : t.headlessDone limits h.cpu.cc h.display.update.frameNum = false) :
    Under limits h turns := by
  rw [headlessDone, hs.cycles ht, hs.frames ht] at hgoes
  simp only [Bool.or_eq_false_iff, Bool.and_eq_false_imp, decide_eq_true_eq,
    decide_eq_false_iff_not, BitVec.not_le, BitVec.lt_def, BitVec.toNat_ofNat] at hgoes
  refine ⟨fun hpos hmax => ?_, fun hpos => ?_⟩
  · have hwithin := hw.cycles hpos hmax
    have hreached := hgoes.1.2 hpos
    rw [maxCyclesMax] at hmax
    rwa [Nat.mod_eq_of_lt (by omega)] at hreached
  · have hwithin := hw.frames hpos
    have hreached := hgoes.2 hpos
    have hlt := limits.maxFrames.isLt
    rwa [Nat.mod_eq_of_lt (by omega)] at hreached

theorem Under.turns_lt {limits : HeadlessLimits} {h : Hardware δ} {turns : Nat}
    (hu : Under limits h turns)
    (hlimit : 0 < limits.maxFrames ∨
      (0 < limits.maxCycles ∧ limits.maxCycles.toNat ≤ maxCyclesMax)) :
    turns < limits.maxCycles.toNat + frameLen * limits.maxFrames.toNat := by
  rcases hlimit with hpos | ⟨hpos, hmax⟩
  · have hframes := hu.frames hpos
    rw [framesCrossed] at hframes
    simp only [frameLen, frameW, frameH, Nat.reduceMul] at hframes ⊢
    omega
  · have hcycles := hu.cycles hpos hmax
    omega

structure Ends (dev : Devices δ) (limits : HeadlessLimits) (start h : Hardware δ) (turns n : Nat)
    (t : Hardware δ) : Prop where
  loop : ∀ fuel, n ≤ fuel →
    runHeadlessLoop dev limits start.cpu.cc start.display.update.frameNum fuel h = some t
  headless : headless dev n h = some t
  within : Within limits start (turns + headlessTurns dev n h)

theorem exists_ends {dev : Devices δ} {limits : HeadlessLimits} {start : Hardware δ} {k : Nat}
    (hs : start.InStep k)
    (hlimit : 0 < limits.maxFrames ∨
      (0 < limits.maxCycles ∧ limits.maxCycles.toNat ≤ maxCyclesMax))
    {turns : Nat} {h : Hardware δ} (hh : h.InStep (k + turns)) (hu : Under limits start turns) :
    ∃ n t, Ends dev limits start h turns n t ∧ t.InStep (k + (turns + headlessTurns dev n h)) := by
  generalize hleft : limits.maxCycles.toNat + frameLen * limits.maxFrames.toNat - turns = left
  induction left using Nat.strongRecOn generalizing turns h with
  | ind left ih =>
      obtain ⟨u, hrun⟩ := Option.isSome_iff_exists.mp (h.executeCycles_isSome dev)
      have hbounds := instructionTurns_bounds dev h
      have hstep := inStep_executeCycles hh hrun
      rw [Nat.add_assoc] at hstep
      have hwithin := hu.within hbounds.2
      cases hdone : u.headlessDone limits start.cpu.cc start.display.update.frameNum with
      | true =>
          have hone : headlessTurns dev 1 h = h.instructionTurns dev := by
            rw [headlessTurns, hrun]
            rfl
          refine ⟨1, u, ⟨fun fuel hfuel => ?_, ?_, ?_⟩, ?_⟩
          · obtain ⟨fuel, rfl⟩ := Nat.exists_eq_succ_of_ne_zero (Nat.pos_iff_ne_zero.mp hfuel)
            rw [runHeadlessLoop, hrun, Option.bind_some, if_pos hdone]
          · rw [headless_succ, hrun]
            rfl
          · rwa [hone]
          · rwa [hone]
      | false =>
          have hunder := hwithin.under hs hstep hdone
          have hlt := hu.turns_lt hlimit
          obtain ⟨n, t, hends, ht⟩ := ih _ (by omega) hstep hunder rfl
          have hmore : turns + headlessTurns dev (n + 1) h =
              turns + h.instructionTurns dev + headlessTurns dev n u := by
            rw [headlessTurns, hrun]
            exact (Nat.add_assoc _ _ _).symm
          refine ⟨n + 1, t, ⟨fun fuel hfuel => ?_, ?_, ?_⟩, ?_⟩
          · obtain ⟨fuel, rfl⟩ := Nat.exists_eq_succ_of_ne_zero
              (Nat.pos_iff_ne_zero.mp (Nat.lt_of_lt_of_le (Nat.succ_pos n) hfuel))
            rw [runHeadlessLoop, hrun, Option.bind_some, if_neg (by simp [hdone])]
            exact hends.loop fuel (Nat.le_of_succ_le_succ hfuel)
          · rw [headless_succ, hrun]
            exact hends.headless
          · rw [hmore]
            exact hends.within
          · rw [hmore]
            exact ht

/-! ## Runs -/

/-- A run that ends after `n` instructions, with the limits kept that count. -/
structure Budgeted (dev : Devices δ) (limits : HeadlessLimits) (h : Hardware δ) (n : Nat)
    (result : HeadlessResult) (t : Hardware δ) : Prop where
  run : ∀ fuel, n ≤ fuel → h.runHeadless dev limits fuel = some (result, t)
  headless : headless dev n h = some t
  cycles : 0 < limits.maxCycles → limits.maxCycles.toNat ≤ maxCyclesMax →
    limits.maxCycles ≤ result.cc →
      result.cc.toNat = 4 * headlessTurns dev n h ∧
        limits.maxCycles.toNat ≤ result.cc.toNat ∧
          result.cc.toNat < limits.maxCycles.toNat + 24
  frames : 0 < limits.maxFrames → limits.maxFrames ≤ result.frames →
    result.frames = limits.maxFrames ∧
      h.framesCrossed (headlessTurns dev n h) = limits.maxFrames.toNat

/--
A headless run with a limit ends.  On a limit of clocks it has gone past it by less than
24 of them, on a limit of frames by none.
-/
theorem runHeadless_budgeted {dev : Devices δ} {s : Emulation δ} (hreach : s.Reachable dev)
    {limits : HeadlessLimits}
    (hlimit : 0 < limits.maxFrames ∨
      (0 < limits.maxCycles ∧ limits.maxCycles.toNat ≤ maxCyclesMax)) :
    ∃ n result t, Budgeted dev limits s.hardware n result t := by
  obtain ⟨k, -, hs⟩ := inStep_of_locked hreach.locked.hardware hreach.locked.sound
  have hstart : Under limits s.hardware 0 := by
    refine ⟨fun hpos _ => ?_, fun hpos => ?_⟩
    · exact hpos
    · have hzero : s.hardware.framesCrossed 0 = 0 := by
        rw [hs.framesCrossed_eq, Nat.mul_zero, Nat.add_zero]
        exact Nat.div_eq_of_lt (Nat.mod_lt _ (by decide))
      rw [hzero]
      exact hpos
  have hnow : s.hardware.InStep (k + 0) := hs
  obtain ⟨n, t, hends, ht⟩ : ∃ n t, Ends dev limits s.hardware s.hardware 0 n t ∧
      t.InStep (k + (0 + headlessTurns dev n s.hardware)) := exists_ends hs hlimit hnow hstart
  have hwithin := hends.within
  rw [Nat.zero_add] at hwithin ht
  have hcc := hs.cycles ht
  have hframes := hs.frames ht
  refine ⟨n, t.headlessResult s.hardware.cpu.cc s.hardware.display.update.frameNum, t,
    ⟨fun fuel hfuel => ?_, hends.headless, fun hpos hmax hreached => ?_, fun hpos hreached => ?_⟩⟩
  · rw [runHeadless, hends.loop fuel hfuel]
    rfl
  · have hbound := hwithin.cycles hpos hmax
    rw [maxCyclesMax] at hmax
    have hcount : (t.cpu.cc - s.hardware.cpu.cc).toNat = 4 * headlessTurns dev n s.hardware := by
      rw [hcc, BitVec.toNat_ofNat, Nat.mod_eq_of_lt (by omega)]
    rw [headlessResult, BitVec.le_def] at hreached
    exact ⟨hcount, hreached, hcount ▸ hbound⟩
  · have hbound := hwithin.frames hpos
    have hlt := limits.maxFrames.isLt
    have hcount : (t.display.update.frameNum - s.hardware.display.update.frameNum).toNat =
        s.hardware.framesCrossed (headlessTurns dev n s.hardware) := by
      rw [hframes, BitVec.toNat_ofNat, Nat.mod_eq_of_lt (by omega)]
    rw [headlessResult, BitVec.le_def, hcount] at hreached
    have hexact := Nat.le_antisymm hbound hreached
    exact ⟨BitVec.eq_of_toNat_eq (hcount.trans hexact), hexact⟩

/-- The machine at the start of cleared RAM, just restarted. -/
def idle : Emulation Unit := ⟨(ofRam (fun _ => 0) ()).restart .silent, .new 10, 0⟩

theorem idle_reachable : idle.Reachable .silent :=
  .start ⟨⟨ofRam (fun _ => 0) (), rfl, .inr rfl⟩, 10, rfl⟩

theorem runHeadless_budgeted_idle :
    ∃ n result t, Budgeted .silent { maxFrames := 1 } idle.hardware n result t :=
  runHeadless_budgeted idle_reachable (.inl (by decide))

theorem runHeadlessLoop_never {dev : Devices δ} {start : Hardware δ} {k : Nat}
    (hs : start.InStep k) (fuel : Nat) {turns : Nat} {h : Hardware δ}
    (hh : h.InStep (k + turns)) :
    runHeadlessLoop dev { maxCycles := .allOnes 64 } start.cpu.cc start.display.update.frameNum
      fuel h = none := by
  induction fuel generalizing turns h with
  | zero => rfl
  | succ fuel ih =>
      obtain ⟨u, hrun⟩ := Option.isSome_iff_exists.mp (h.executeCycles_isSome dev)
      have hstep := inStep_executeCycles hh hrun
      rw [Nat.add_assoc] at hstep
      have hgoes : u.headlessDone { maxCycles := .allOnes 64 } start.cpu.cc
          start.display.update.frameNum = false := by
        rw [headlessDone, hs.cycles hstep]
        simp only [Bool.false_and, Bool.false_or, Bool.or_eq_false_iff, Bool.and_eq_false_imp,
          decide_eq_true_eq, decide_eq_false_iff_not, BitVec.not_le, BitVec.lt_def,
          BitVec.toNat_ofNat, BitVec.toNat_allOnes]
        omega
      rw [runHeadlessLoop, hrun, Option.bind_some, if_neg (Bool.eq_false_iff.mp hgoes)]
      exact ih hstep

theorem runHeadless_limit_unreached :
    ¬ ∀ s : Emulation Unit, s.Reachable .silent → ∀ limits : HeadlessLimits,
      0 < limits.maxCycles ∨ 0 < limits.maxFrames →
        ∃ fuel, (s.hardware.runHeadless .silent limits fuel).isSome := by
  intro h
  obtain ⟨fuel, hends⟩ := h idle idle_reachable { maxCycles := .allOnes 64 } (.inl (by decide))
  obtain ⟨k, -, hs⟩ := inStep_of_locked idle_reachable.locked.hardware idle_reachable.locked.sound
  have hnow : idle.hardware.InStep (k + 0) := hs
  rw [runHeadless, runHeadlessLoop_never hs fuel hnow] at hends
  cases hends

end Hardware

end V6Emul
