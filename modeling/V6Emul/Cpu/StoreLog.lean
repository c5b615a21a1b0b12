import V6Emul.Cpu.Boundary
import V6Emul.Cpu.Refinement

/-!
# The stores of an instruction

An instruction stores at the places that are known when it begins, each byte once.
Its debug record lists all of its stores, but for `XTHL`, where it lists the second.
-/

namespace V6Emul

namespace Sys

variable {σ : Type}

/-! ## The plan -/

/-- The global addresses of the stores from cycle `mc` on; `MOV M,L` ends before its store. -/
def targets (op : Byte) (mc : Nat) (s : Sys σ) : List Nat :=
  if op = opcodeMovML then []
  else (places (decode op) mc s).map fun place => s.mem.getGlobalAddr place.1 place.2

def storesUntil : Micro → Nat
  | .movMemReg _ | .stax _ => 2
  | .mviMemData | .inrMem | .dcrMem | .rst _ => 3
  | .sta | .push _ _ => 4
  | .shld | .xthl | .call _ => 5
  | _ => 0

theorem places_of_le {micro : Micro} {mc : Nat} (h : storesUntil micro ≤ mc) (s : Sys σ) :
    places micro mc s = [] := by
  cases micro with
  | movMemReg | stax | mviMemData | inrMem | dcrMem | rst | sta | push | shld | xthl | call =>
      simp only [storesUntil] at h
      simp only [places]
      grind
  | _ => rfl

theorem storesUntil_microOf (i : I8080.Instr) : storesUntil (microOf i) ≤ cyclesNeeded i := by
  cases i with
  | mov dst src => cases dst <;> cases src <;> decide
  | mvi dst | inr dst | dcr dst => cases dst <;> decide
  | alu op src => cases op <;> cases src <;> decide
  | aluImm op => cases op <;> decide
  | push rp | pop rp => cases rp <;> decide
  | _ => simp [microOf, storesUntil, cyclesNeeded]

theorem storesUntil_le {op : Byte} (hne : op ≠ opcodeMovML) :
    storesUntil (decode op) ≤ mCycles op := by
  by_cases hhlt : op = opcodeHlt
  · rw [hhlt]
    decide
  · rw [decode_eq, (mCycles_eq op hhlt).2 hne]
    exact storesUntil_microOf _

theorem targets_of_le {op : Byte} {mc : Nat} (h : mCycles op ≤ mc) (s : Sys σ) :
    s.targets op mc = [] := by
  by_cases hop : op = opcodeMovML
  · exact if_pos hop
  · rw [targets, if_neg hop, places_of_le ((storesUntil_le hop).trans h)]
    rfl

theorem nodup_places (micro : Micro) (mc : Nat) (s : Sys σ) :
    ((places micro mc s).map Prod.fst).Nodup := by
  have hnext : ∀ w : Addr, w ≠ w + 1#16 := by
    intro w
    bv_omega
  have hbelow : ∀ w : Addr, w - 1#16 ≠ w - 2#16 ∧ w ≠ w - 1#16 := by
    intro w
    constructor <;> bv_omega
  cases micro with
  | movMemReg | stax | mviMemData | inrMem | dcrMem | rst | sta | push | shld | xthl | call =>
      simp only [places, pushed, pushing]
      split_ifs <;> simp [hnext, hbelow]
  | _ => exact List.nodup_nil

theorem nodup_targets (op : Byte) (mc : Nat) (s : Sys σ) : (s.targets op mc).Nodup := by
  rw [targets]
  split
  · exact List.nodup_nil
  · apply List.Nodup.of_map (· % mem64K)
    rw [List.map_map]
    have hmod : (fun n : Nat => n % mem64K) ∘ (fun place : Place =>
        s.mem.getGlobalAddr place.1 place.2) = BitVec.toNat ∘ Prod.fst :=
      funext fun place => s.mem.update.getGlobalAddr_mod place.1 place.2
    rw [hmod, ← List.map_map]
    exact (nodup_places (decode op) mc s).map fun _ _ => BitVec.eq_of_toNat_eq

theorem targets_lt {op : Byte} {mc : Nat} {s : Sys σ} {a : Nat} (h : a ∈ s.targets op mc) :
    a < memoryGlobalLen := by
  rw [targets] at h
  split at h
  · contradiction
  · obtain ⟨place, -, rfl⟩ := List.mem_map.mp h
    exact s.mem.update.getGlobalAddr_lt place.1 place.2

/-! ## The log -/

/-- What the instruction has stored since `base`, and what is left from cycle `mc` on. -/
structure Logged (op : Byte) (base : Sys σ) (plan : List Nat) (mc : Nat) (s : Sys σ)
    (log : List Store) : Prop where
  stores : s.stores = base.stores ++ log
  recorded : Ram.cells.Recorded base.mem.ram log
  redo : Ram.cells.redo base.mem.ram log = s.mem.ram
  plan : log.map UndoLog.Entry.addr ++ s.targets op mc = plan
  filed : if op = opcodeXthl then log.length = 2 → s.mem.debug.entries = log.drop 1
    else s.mem.debug.entries = log

/-- `writeLen` counts the stores, unless they are filed out of order. -/
def Counted (op : Byte) (mc : Nat) (s : Sys σ) : Prop :=
  op ≠ opcodeXthl → s.mem.debug.writeLen = writesDone (decode op) mc

structure Stored (op : Byte) (base : Sys σ) (plan : List Nat) (s : Sys σ) (log : List Store) :
    Prop where
  stores : s.stores = base.stores ++ log
  recorded : Ram.cells.Recorded base.mem.ram log
  redo : Ram.cells.redo base.mem.ram log = s.mem.ram
  addrs : log.map UndoLog.Entry.addr = plan
  filed : s.mem.debug.entries = log.drop (if op = opcodeXthl then 1 else 0)

section

variable {op : Byte} {base s t : Sys σ} {plan : List Nat} {mc : Nat} {log : List Store}

theorem Logged.of_same (h : Logged op base plan mc s log) (hstores : t.stores = s.stores)
    (hram : t.mem.ram = s.mem.ram) (hdebug : t.mem.debug = s.mem.debug)
    (htargets : t.targets op mc = s.targets op mc) : Logged op base plan mc t log := by
  refine ⟨hstores.trans h.stores, h.recorded, h.redo.trans hram.symm, ?_, ?_⟩
  · rw [htargets]
    exact h.plan
  · rw [hdebug]
    exact h.filed

theorem Logged.stored (h : Logged op base plan mc s log) (hend : s.targets op mc = [])
    (hplan : op = opcodeXthl → plan.length = 2) : Stored op base plan s log := by
  have haddrs := h.plan
  rw [hend, List.append_nil] at haddrs
  refine ⟨h.stores, h.recorded, h.redo, haddrs, ?_⟩
  have hfiled := h.filed
  by_cases hop : op = opcodeXthl
  · rw [if_pos hop] at hfiled ⊢
    apply hfiled
    rw [← hplan hop, ← haddrs, List.length_map]
  · rw [if_neg hop] at hfiled ⊢
    exact hfiled

theorem length_places_xthl {byteNum : Fin 2} (hat : writeAt .xthl mc = some byteNum) :
    (places .xthl mc s).length = byteNum.val + 1 := by
  unfold writeAt at hat
  split at hat
  all_goals
    first
      | contradiction
      | injection hat with hat
        subst hat
        rfl

theorem not_stores_movML (hlt : mc < mCycles opcodeMovML) :
    writeAt (decode opcodeMovML) mc = none := by
  have hzero : mc = 0 := Nat.lt_one_iff.mp hlt
  rw [hzero]
  rfl

theorem filed_store {addr : Addr} {v : Byte} {space : AddrSpace} {byteNum : Fin 2}
    (h : Logged op base plan mc s log) (hat : writeAt (decode op) mc = some byteNum)
    (hcount : Counted op mc s) (hplan : op = opcodeXthl → plan.length = 2)
    (hop : op ≠ opcodeMovML) :
    let new : Store := ⟨s.mem.getGlobalAddr addr space, v,
      s.mem.ram.read (s.mem.getGlobalAddr addr space)⟩
    if op = opcodeXthl then (log ++ [new]).length = 2 →
        (s.writeByte addr v space byteNum).mem.debug.entries = (log ++ [new]).drop 1
      else (s.writeByte addr v space byteNum).mem.debug.entries = log ++ [new] := by
  intro new
  by_cases hxthl : op = opcodeXthl
  · rw [if_pos hxthl]
    intro hlen
    have hdecode : decode op = .xthl := (decode_xthl op).mpr hxthl
    rw [hdecode] at hat
    have hone : log.length = 1 := by simpa using hlen
    have hleft := congrArg List.length h.plan
    rw [List.length_append, List.length_map, hone, targets, if_neg hop, hdecode, List.length_map,
      length_places_xthl hat, hplan hxthl] at hleft
    have hzero : byteNum = 0 := by omega
    subst hzero
    rw [List.drop_append_of_le_length (by omega), List.drop_eq_nil_of_le (by omega),
      List.nil_append]
    rfl
  · rw [if_neg hxthl]
    have hindex := writeAt_eq_writesDone (mt (decode_xthl op).mp hxthl) hat
    have hentries := s.mem.entries_cpuWrite addr v space byteNum
      ((hcount hxthl).trans hindex.symm)
    have hfiled := h.filed
    rw [if_neg hxthl] at hfiled
    rw [hfiled] at hentries
    exact hentries

theorem Logged.exec (ports : PortFuncs σ) (h : Logged op base plan s.cpu.mc.toNat s log)
    (hcount : Counted op s.cpu.mc.toNat s) (hlt : s.cpu.mc.toNat < mCycles op)
    (hplan : op = opcodeXthl → plan.length = 2) :
    ∃ log', Logged op base plan ((s.exec ports (decode op)).cpu.mc.toNat + 1)
        (s.exec ports (decode op)) log' ∧
      ((s.exec ports (decode op)).cpu.mc = s.cpu.mc →
        Counted op (s.cpu.mc.toNat + 1) (s.exec ports (decode op))) := by
  obtain ⟨hupdate, hnext⟩ := storesNext_exec ports s (decode op)
  generalize s.exec ports (decode op) = t at hupdate hnext ⊢
  rcases hnext with ⟨hwrites, hnone, hplaces⟩ | ⟨byteNum, addr, v, space, hat, hwrites, hplaces⟩
  · refine ⟨log, ⟨?_, h.recorded, ?_, ?_, ?_⟩, ?_⟩
    · exact (congrArg WriteView.stores hwrites).trans h.stores
    · exact h.redo.trans (congrArg WriteView.ram hwrites).symm
    · have hsame : t.targets op (t.cpu.mc.toNat + 1) = s.targets op s.cpu.mc.toNat := by
        simp only [targets, hplaces, Memory.getGlobalAddr, hupdate]
      rw [hsame]
      exact h.plan
    · have hentries : t.mem.debug.entries = s.mem.debug.entries :=
        congrArg WriteView.entries hwrites
      rw [hentries]
      exact h.filed
    · intro hmc hxthl
      have hlen : t.mem.debug.writeLen = s.mem.debug.writeLen :=
        congrArg WriteView.writeLen hwrites
      rw [writesDone, hnone.resolve_right (not_not_intro hmc), hlen]
      exact hcount hxthl
  · have hop : op ≠ opcodeMovML := by
      rintro rfl
      rw [not_stores_movML hlt] at hat
      contradiction
    have hram : t.mem.ram = s.mem.ram.write (s.mem.getGlobalAddr addr space) v :=
      congrArg WriteView.ram hwrites
    have hstores : t.stores = s.stores ++ [⟨s.mem.getGlobalAddr addr space, v,
        s.mem.ram.read (s.mem.getGlobalAddr addr space)⟩] := congrArg WriteView.stores hwrites
    refine ⟨log ++ [⟨s.mem.getGlobalAddr addr space, v,
      s.mem.ram.read (s.mem.getGlobalAddr addr space)⟩], ⟨?_, ?_, ?_, ?_, ?_⟩, ?_⟩
    · rw [hstores, h.stores, List.append_assoc]
    · have hsnoc := Ram.cells.recorded_snoc h.recorded (s.mem.getGlobalAddr addr space) v
      rw [h.redo] at hsnoc
      exact hsnoc
    · rw [Ram.cells.redo_snoc, h.redo, hram]
      rfl
    · have hfirst : s.targets op s.cpu.mc.toNat =
          s.mem.getGlobalAddr addr space :: t.targets op (t.cpu.mc.toNat + 1) := by
        simp only [targets, if_neg hop, hplaces, List.map_cons, Memory.getGlobalAddr, hupdate]
      rw [List.map_append, List.append_assoc, List.map_singleton, List.singleton_append, ← hfirst]
      exact h.plan
    · have hentries : t.mem.debug.entries = (s.writeByte addr v space byteNum).mem.debug.entries :=
        congrArg WriteView.entries hwrites
      rw [hentries]
      exact filed_store h hat hcount hplan hop
    · intro _ hxthl
      have hlen : t.mem.debug.writeLen = byteNum.val + 1 := congrArg WriteView.writeLen hwrites
      rw [writesDone, hat, hlen, writeAt_eq_writesDone (mt (decode_xthl op).mp hxthl) hat]
      rfl

theorem mc_exec_lt (ports : PortFuncs σ) (hlt : s.cpu.mc.toNat < mCycles op) :
    (s.exec ports (decode op)).cpu.mc.toNat < mCycles op := by
  obtain ⟨hcall, hret, -⟩ := mCycles_of_early_exit op
  have hmc : (s.exec ports (decode op)).cpu.mc = (controlAfter (decode op) s).mc :=
    congrArg Control.mc (control_exec ports (decode op) s)
  rw [hmc]
  cases hdecode : decode op with
  | call condition =>
      rw [hcall condition hdecode] at hlt ⊢
      simp only [controlAfter]
      split
      · exact (by decide : (5 : BitVec 4).toNat < 6)
      · exact hlt
  | retCond condition =>
      rw [hret condition hdecode] at hlt ⊢
      simp only [controlAfter]
      split
      · exact (by decide : (3 : BitVec 4).toNat < 4)
      · exact hlt
  | hlt =>
      simp only [controlAfter]
      split
      · exact (mCycles_bounds op).1
      · exact hlt
  | _ => exact hlt

theorem targets_executed (ports : PortFuncs σ) (hlt : s.cpu.mc.toNat < mCycles op)
    (hhalt : (s.cycle ports (decode op) (mCycles op)).cpu.hlta = true → op = opcodeHlt)
    (hdone : (s.cycle ports (decode op) (mCycles op)).isInstructionExecuted = true) :
    (s.exec ports (decode op)).targets op ((s.exec ports (decode op)).cpu.mc.toNat + 1) = [] := by
  by_cases hhlta : (s.cycle ports (decode op) (mCycles op)).cpu.hlta = true
  · rw [hhalt hhlta]
    rfl
  · apply targets_of_le
    have hzero : (s.cycle ports (decode op) (mCycles op)).cpu.mc = 0 := by
      simpa [isInstructionExecuted, hhlta] using hdone
    obtain ⟨hpos, hle⟩ := mCycles_bounds op
    have hin := mc_exec_lt ports hlt
    have hmc : (s.exec ports (decode op)).cpu.mc = (controlAfter (decode op) s).mc :=
      congrArg Control.mc (control_exec ports (decode op) s)
    rw [mc_cycle_eq, ← hmc] at hzero
    have hone : ((s.exec ports (decode op)).cpu.mc + 1).toNat =
        (s.exec ports (decode op)).cpu.mc.toNat + 1 := by
      rw [BitVec.toNat_add]
      exact Nat.mod_eq_of_lt (show (s.exec ports (decode op)).cpu.mc.toNat + 1 < 16 by omega)
    rw [hone] at hzero
    by_contra hmore
    have hrest := congrArg BitVec.toNat hzero
    rw [BitVec.toNat_ofNat, Nat.mod_eq_of_lt (by omega : (s.exec ports (decode op)).cpu.mc.toNat + 1
      < mCycles op), Nat.mod_eq_of_lt (by omega)] at hrest
    exact absurd hrest (Nat.succ_ne_zero _)

theorem Logged.stepMC (h : Logged op base plan mc t log) (len : Nat) :
    Logged op base plan mc (t.stepMC len).addCC log := h.of_same rfl rfl rfl rfl

theorem Stored.stepMC (h : Stored op base plan t log) (len : Nat) :
    Stored op base plan (t.stepMC len).addCC log :=
  ⟨h.stores, h.recorded, h.redo, h.addrs, h.filed⟩

theorem Logged.cycle (ports : PortFuncs σ) (h : Logged op base plan s.cpu.mc.toNat s log)
    (hcount : Counted op s.cpu.mc.toNat s) (hlt : s.cpu.mc.toNat < mCycles op)
    (hplan : op = opcodeXthl → plan.length = 2)
    (hhalt : (s.cycle ports (decode op) (mCycles op)).cpu.hlta = true → op = opcodeHlt) :
    ∃ log', if (s.cycle ports (decode op) (mCycles op)).isInstructionExecuted = true then
        Stored op base plan (s.cycle ports (decode op) (mCycles op)) log'
      else
        Logged op base plan (s.cycle ports (decode op) (mCycles op)).cpu.mc.toNat
          (s.cycle ports (decode op) (mCycles op)) log' ∧
        Counted op (s.cycle ports (decode op) (mCycles op)).cpu.mc.toNat
          (s.cycle ports (decode op) (mCycles op)) := by
  obtain ⟨log', hlogged, hcounted⟩ := h.exec ports hcount hlt hplan
  refine ⟨log', ?_⟩
  split
  · rename_i hdone
    have hend := targets_executed ports hlt hhalt hdone
    exact (hlogged.stored hend hplan).stepMC (mCycles op)
  · rename_i hdone
    rcases mc_cycle ports op hlt with hzero | ⟨hnext, hmc⟩ | ⟨-, hhlta⟩
    · exact absurd hzero (mc_ne_of_not_executed hdone)
    · have hkept : (s.exec ports (decode op)).cpu.mc = s.cpu.mc :=
        (congrArg Control.mc (control_exec ports (decode op) s)).trans hmc
      rw [hnext]
      rw [hkept] at hlogged
      exact ⟨hlogged.stepMC (mCycles op), hcounted hkept⟩
    · refine absurd ?_ hdone
      simp [isInstructionExecuted, hhlta]

end

/-! ## The first cycle -/

theorem logged_enter {irq : Bool} {s : Sys σ} (h : s.Startable irq) :
    Logged (s.nextOpcode irq) s
        ((s.debugInit.enter irq).targets (s.nextOpcode irq) s.cpu.mc.toNat) s.cpu.mc.toNat
        (s.debugInit.enter irq) [] ∧
      Counted (s.nextOpcode irq) s.cpu.mc.toNat (s.debugInit.enter irq) := by
  obtain ⟨-, -, hwrites⟩ := enter_debugInit irq s
  have hlen : (s.debugInit.enter irq).mem.debug.writeLen = 0 := congrArg WriteView.writeLen hwrites
  have hentries : (s.debugInit.enter irq).mem.debug.entries = [] := by
    rw [Debug.entries, hlen, List.take_zero]
  refine ⟨⟨?_, trivial, (congrArg WriteView.ram hwrites).symm, rfl, ?_⟩, ?_⟩
  · rw [List.append_nil]
    exact congrArg WriteView.stores hwrites
  · rw [hentries]
    split
    · intro hlen
      contradiction
    · rfl
  · intro _
    rw [hlen, h.cycle.2]

theorem length_targets_xthl {irq : Bool} {s t : Sys σ} (h : s.Startable irq)
    (hop : s.nextOpcode irq = opcodeXthl) :
    (t.targets (s.nextOpcode irq) s.cpu.mc.toNat).length = 2 := by
  have hmc : s.cpu.mc = 0 := by
    rcases h with ⟨hmc, -⟩ | ⟨hmc, hhlt, -⟩
    · exact hmc
    · rw [nextOpcode, if_pos (by rw [hmc]; decide), hhlt] at hop
      exact absurd hop (by decide)
  rw [hop, hmc]
  rfl

end Sys

end V6Emul
