import V6Emul.Cpu.StoreLog
import V6Emul.Hardware.Mapping
import V6Emul.Hardware.SameCore

/-!
# The stores of an instruction in the hardware

The addresses that an instruction will store to can be read off the state in which it
begins: the mapping stays the same until its last store.
-/

namespace V6Emul

variable {δ : Type}

theorem Sys.targets_sameCore {σ : Type} {s s' : Sys σ} (h : s.SameCore s') (op : Byte) (mc : Nat) :
    s'.targets op mc = s.targets op mc := by
  rw [h.eq_recast]
  rfl

theorem Sys.Logged.setIo {σ : Type} {op : Byte} {base s : Sys σ} {plan : List Nat} {mc : Nat}
    {log : List Store} (h : Sys.Logged op base plan mc s log) (io : σ) :
    Sys.Logged op base plan mc { s with io := io } log := h.of_same rfl rfl rfl rfl

theorem Sys.Stored.setIo {σ : Type} {op : Byte} {base s : Sys σ} {plan : List Nat}
    {log : List Store} (h : Sys.Stored op base plan s log) (io : σ) :
    Sys.Stored op base plan { s with io := io } log :=
  ⟨h.stores, h.recorded, h.redo, h.addrs, h.filed⟩

namespace Hardware

def entered (dev : Devices δ) (h : Hardware δ) : Sys (Io δ) :=
  (h.drawnSys dev).enter (h.irqLine dev)

/-- The global addresses that the next instruction stores to, in the order of its stores. -/
def storeTargets (dev : Devices δ) (h : Hardware δ) : List Nat :=
  (h.toSys.enter (h.irqLine dev)).targets (h.toSys.nextOpcode (h.irqLine dev)) h.cpu.mc.toNat

theorem nodup_storeTargets (dev : Devices δ) (h : Hardware δ) : (h.storeTargets dev).Nodup :=
  Sys.nodup_targets _ _ _

theorem storeTargets_lt {dev : Devices δ} {h : Hardware δ} {a : Nat} (ha : a ∈ h.storeTargets dev) :
    a < memoryGlobalLen := Sys.targets_lt ha

theorem frame_drawnSys (dev : Devices δ) (h : Hardware δ) :
    (h.drawnSys dev).mem.ram = h.mem.ram ∧ (h.drawnSys dev).mem.debug = h.mem.debug := by
  refine Raster.rasterize_invariant (r := h.raster)
    (P := fun b => b.mem.ram = h.mem.ram ∧ b.mem.debug = h.mem.debug)
    (fun _ _ hb => hb) ?_ ⟨rfl, rfl⟩
  rintro b colorIdx ⟨hram, hdebug⟩
  obtain ⟨hram', hdebug'⟩ := Bus.frame_tryToCommit dev colorIdx b
  exact ⟨hram'.trans hram, hdebug'.trans hdebug⟩

/-! ## Turn by turn -/

structure Storing (dev : Devices δ) (op : Byte) (base : Sys (Io δ)) (plan : List Nat)
    (h : Hardware δ) : Prop where
  turning : h.toSys.Turning
  ir : (h.entered dev).cpu.ir = op
  mc : (h.entered dev).cpu.mc = h.cpu.mc
  inCycle : h.cpu.mc.toNat < mCycles op
  logged : ∃ log, Sys.Logged op base plan h.cpu.mc.toNat (h.entered dev) log
  counted : Sys.Counted op h.cpu.mc.toNat (h.entered dev)

section

variable {dev : Devices δ} {op : Byte} {base : Sys (Io δ)} {plan : List Nat} {h : Hardware δ}

theorem targets_drawnSys (hturn : h.toSys.Turning) (hmc : h.cpu.mc ≠ 0) (hir : h.cpu.ir = op)
    (mc : Nat) : (h.entered dev).targets op mc = h.toSys.targets op mc := by
  rw [entered, Sys.enter_of_mc_ne (s := h.drawnSys dev) (h.irqLine dev) hmc]
  by_cases hop : op = opcodeOut
  · have hnone : ∀ s : Sys (Io δ), s.targets opcodeOut mc = [] := by
      intro s
      rw [Sys.targets, if_neg (by decide)]
      rfl
    rw [hop, hnone, hnone]
  · have hslot : h.io.Settled := by
      have hnext : h.toSys.nextOpcode (h.irqLine dev) ≠ opcodeOut := by
        rw [Sys.nextOpcode, if_pos hmc, hir]
        exact hop
      exact hturn.settled_of_next hnext
    have hsame : h.toSys.SameCore (h.drawnSys dev) :=
      ⟨rfl, congrArg Memory.seen (mem_drawnSys dev hslot).symm⟩
    exact Sys.targets_sameCore hsame op mc

theorem toSys_machineCycle (dev : Devices δ) (h : Hardware δ) :
    (h.machineCycle dev).toSys = { h.turned dev with io := (h.machineCycle dev).io } := rfl

theorem storing_of_continues {log : List Store} (hturn : h.toSys.Turning) (hmc : h.cpu.mc ≠ 0)
    (hir : h.cpu.ir = op) (hlogged : Sys.Logged op base plan h.cpu.mc.toNat h.toSys log)
    (hcounted : Sys.Counted op h.cpu.mc.toNat h.toSys) : h.Storing dev op base plan := by
  obtain ⟨hram, hdebug⟩ := frame_drawnSys dev h
  have htargets : (h.entered dev).targets op h.cpu.mc.toNat = h.toSys.targets op h.cpu.mc.toNat :=
    targets_drawnSys hturn hmc hir h.cpu.mc.toNat
  have hlt : h.cpu.mc.toNat < mCycles h.cpu.ir := hturn.sequenced.inCycle
  rw [hir] at hlt
  have hentered : h.entered dev = (h.drawnSys dev).latchIrq (h.irqLine dev) :=
    Sys.enter_of_mc_ne (s := h.drawnSys dev) (h.irqLine dev) hmc
  refine ⟨hturn, ?_, ?_, hlt, ⟨log, ?_⟩, ?_⟩
  · rw [hentered]
    exact hir
  · rw [hentered]
    rfl
  · rw [hentered] at htargets ⊢
    exact hlogged.of_same rfl hram hdebug htargets
  · rw [hentered]
    intro hne
    exact (congrArg Debug.writeLen hdebug).trans (hcounted hne)

theorem Storing.machineCycle (h' : h.Storing dev op base plan)
    (hplan : op = Sys.opcodeXthl → plan.length = 2) :
    if (h.machineCycle dev).isInstructionExecuted then
      ∃ log, Sys.Stored op base plan (h.machineCycle dev).toSys log
    else (h.machineCycle dev).Storing dev op base plan := by
  have hturning := turning_machineCycle dev h'.turning
  have hturned := turned_eq dev h h'.ir
  have hir : (h.machineCycle dev).cpu.ir = op := by
    have hcycle := Sys.ir_cycle (Io.ports dev) (decode op) (mCycles op) (h.entered dev)
    rw [h'.ir] at hcycle
    exact (congrArg (fun s : Sys (Io δ) => s.cpu.ir) hturned).trans hcycle
  have hhalt : ((h.entered dev).cycle (Io.ports dev) (decode op) (mCycles op)).cpu.hlta = true →
      op = Sys.opcodeHlt := by
    intro hhlta
    have hhere := (congrArg (fun s : Sys (Io δ) => s.cpu.hlta) hturned).trans hhlta
    exact hir.symm.trans (hturning.sequenced.halted hhere).1
  obtain ⟨log, hlogged⟩ := h'.logged
  rw [← h'.mc] at hlogged
  have hcount := h'.counted
  have hlt := h'.inCycle
  rw [← h'.mc] at hcount hlt
  obtain ⟨log', hcycle⟩ := hlogged.cycle (Io.ports dev) hcount hlt hplan hhalt
  rw [entered, ← hturned] at hcycle
  have hsys := toSys_machineCycle dev h
  have hdone' : (h.machineCycle dev).isInstructionExecuted =
      (h.turned dev).isInstructionExecuted := by
    rw [machineCycle_eq]
    generalize h.turned dev = s
    rfl
  rw [hdone']
  split
  · rename_i hdone
    rw [if_pos hdone] at hcycle
    rw [hsys]
    exact ⟨log', hcycle.setIo _⟩
  · rename_i hdone
    rw [if_neg hdone] at hcycle
    obtain ⟨hlogged', hcounted'⟩ := hcycle
    have hmc := Sys.mc_ne_of_not_executed hdone
    have hlogged : Sys.Logged op base plan (h.machineCycle dev).cpu.mc.toNat
        (h.machineCycle dev).toSys log' := by
      rw [hsys]
      exact hlogged'.setIo _
    refine storing_of_continues hturning hmc hir hlogged ?_
    rw [hsys]
    exact hcounted'

end

/-! ## The whole instruction -/

theorem drawnSys_debugInit (dev : Devices δ) {h : Hardware δ} (hslot : h.io.Settled) :
    (h.setMem h.mem.debugInit).drawnSys dev =
      Sys.debugInit { h.toSys with io := ((h.setMem h.mem.debugInit).drawnSys dev).io } := by
  have hmem := mem_drawnSys dev (h := h.setMem h.mem.debugInit) hslot
  calc (h.setMem h.mem.debugInit).drawnSys dev
      = { (h.setMem h.mem.debugInit).drawnSys dev with
          mem := ((h.setMem h.mem.debugInit).drawnSys dev).mem } := rfl
    _ = { (h.setMem h.mem.debugInit).drawnSys dev with mem := h.mem.debugInit } := by
        rw [hmem]
        rfl
    _ = _ := rfl

theorem storing_start {dev : Devices δ} {h : Hardware δ} (hparked : h.Parked) :
    (h.setMem h.mem.debugInit).Storing dev (h.toSys.nextOpcode (h.irqLine dev)) h.toSys
      (h.storeTargets dev) := by
  have hirq : (h.setMem h.mem.debugInit).irqLine dev = h.irqLine dev := irqLine_setMem dev h rfl
  have hdrawn := drawnSys_debugInit dev hparked.slot
  generalize ((h.setMem h.mem.debugInit).drawnSys dev).io = io at hdrawn
  have hentered : (h.setMem h.mem.debugInit).entered dev =
      (Sys.debugInit { h.toSys with io := io }).enter (h.irqLine dev) := by
    rw [entered, hdrawn, hirq]
  have hstart : Sys.Startable (h.irqLine dev) { h.toSys with io := io } :=
    hparked.cpu.startable (h.irqLine dev)
  obtain ⟨hir, hmc, -⟩ := Sys.enter_debugInit (h.irqLine dev) { h.toSys with io := io }
  obtain ⟨hlogged, hcounted⟩ := Sys.logged_enter hstart
  have hplan : ((Sys.debugInit { h.toSys with io := io }).enter (h.irqLine dev)).targets
      (h.toSys.nextOpcode (h.irqLine dev)) h.cpu.mc.toNat = h.storeTargets dev := by
    have hsame : h.toSys.SameCore (Sys.debugInit { h.toSys with io := io }) := ⟨rfl, rfl⟩
    exact Sys.targets_sameCore (Sys.SameCore.enter hsame (h.irqLine dev)) _ _
  rw [← hplan]
  have hturn : (h.setMem h.mem.debugInit).toSys.Turning :=
    ⟨⟨hparked.turning.sequenced.inCycle, hparked.turning.sequenced.pending,
      hparked.turning.sequenced.halted⟩, .inl hparked.slot⟩
  refine ⟨hturn, ?_, ?_, hstart.cycle.1, ⟨[], ?_⟩, ?_⟩
  · rw [hentered]
    exact hir
  · rw [hentered]
    exact hmc
  · rw [hentered]
    exact ⟨hlogged.stores, hlogged.recorded, hlogged.redo, hlogged.plan, hlogged.filed⟩
  · rw [hentered]
    exact hcounted

theorem stored_executeCycles {dev : Devices δ} {h t : Hardware δ} (hparked : h.Parked)
    (hrun : h.executeCycles dev = some t) :
    ∃ log, Sys.Stored (h.toSys.nextOpcode (h.irqLine dev)) h.toSys (h.storeTargets dev) t.toSys
      log :=
  runCycles_rule
    (Q := fun s => ∃ log, Sys.Stored (h.toSys.nextOpcode (h.irqLine dev)) h.toSys
      (h.storeTargets dev) s.toSys log)
    (fun _ hs => hs.machineCycle (Sys.length_targets_xthl (hparked.cpu.startable (h.irqLine dev))))
    (storing_start hparked) hrun

end Hardware

end V6Emul
