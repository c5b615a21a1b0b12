import V6Emul.Cpu.Stores

/-!
# The debug record of an instruction's stores

`CpuWrite` files a store under the index that the instruction passes, and
`writeLen` is that index plus one.  The record therefore lists the stores of the
instruction when they are made in the order of their indices; `XTHL` makes them
in the opposite order.
-/

namespace V6Emul

/-! ## The entries of the record -/

theorem Memory.entries_cpuWrite (m : Memory) (addr : Addr) (v : Byte) (space : AddrSpace)
    (byteNum : Fin 2) (h : m.debug.writeLen = byteNum.val) :
    (m.cpuWrite addr v space byteNum).debug.entries = m.debug.entries ++
      [⟨m.getGlobalAddr addr space, v, m.ram.read (m.getGlobalAddr addr space)⟩] := by
  match byteNum with
  | 0 => simp [Debug.entries, h, cpuWrite, Debug.entry]
  | 1 => simp [Debug.entries, h, cpuWrite, Debug.entry]

namespace Sys

variable {σ : Type}

/-! ## The stores of one machine cycle -/

def Wrote (s t : Sys σ) (byteNum : Fin 2) : Prop :=
  ∃ addr v space, t.writes = (s.writeByte addr v space byteNum).writes

theorem exec_writes (ports : PortFuncs σ) (micro : Micro) (s : Sys σ) :
    ((s.exec ports micro).writes = s.writes ∧
      (writeAt micro s.cpu.mc.toNat = none ∨ (controlAfter micro s).mc ≠ s.cpu.mc)) ∨
    ∃ byteNum, writeAt micro s.cpu.mc.toNat = some byteNum ∧
      s.Wrote (s.exec ports micro) byteNum := by
  have hmc : (controlAfter micro s).mc = (s.exec ports micro).cpu.mc :=
    congrArg Control.mc (control_exec ports micro s).symm
  rcases (storesNext_exec ports s micro).2 with
    ⟨hsame, hnone, -⟩ | ⟨byteNum, addr, v, space, hat, hwrites, -⟩
  · rw [hmc]
    exact .inl ⟨hsame, hnone⟩
  · exact .inr ⟨byteNum, hat, addr, v, space, hwrites⟩

/-! ## The stores of the cycles run so far -/

def writesDone (micro : Micro) : Nat → Nat
  | 0 => 0
  | mc + 1 => writesDone micro mc + (if (writeAt micro mc).isSome then 1 else 0)

theorem writeAt_eq_writesDone {micro : Micro} (hne : micro ≠ .xthl) {mc : Nat} {byteNum : Fin 2}
    (h : writeAt micro mc = some byteNum) : byteNum.val = writesDone micro mc := by
  unfold writeAt at h
  split at h
  all_goals
    first
      | exact absurd rfl hne
      | contradiction
      | injection h with h
        subst h
        rfl

/--
The stores since `base` are the entries of the record: undone from the last they
give back the RAM of `base`, redone from the first they give the RAM of `s`.
-/
structure RecordExact (base s : Sys σ) : Prop where
  stores : s.stores = base.stores ++ s.mem.debug.entries
  undo : Ram.cells.undo s.mem.ram s.mem.debug.entries = base.mem.ram
  redo : Ram.cells.redo base.mem.ram s.mem.debug.entries = s.mem.ram

structure Tracks (base : Sys σ) (w : WriteView) : Prop where
  stores : w.stores = base.stores ++ w.entries
  recorded : Ram.cells.Recorded base.mem.ram w.entries
  redo : Ram.cells.redo base.mem.ram w.entries = w.ram

theorem Tracks.recordExact {base s : Sys σ} (h : Tracks base s.writes) : RecordExact base s := by
  refine ⟨h.stores, ?_, h.redo⟩
  have hundo := Ram.cells.undo_redo h.recorded
  rw [h.redo] at hundo
  exact hundo

theorem tracks_refl {s : Sys σ} (h : s.mem.debug.writeLen = 0) : Tracks s s.writes := by
  have hentries : s.mem.debug.entries = [] := by
    simp [Debug.entries, h]
  refine ⟨?_, ?_, ?_⟩
  · change s.stores = s.stores ++ s.mem.debug.entries
    rw [hentries, List.append_nil]
  · change Ram.cells.Recorded s.mem.ram s.mem.debug.entries
    rw [hentries]
    trivial
  · change Ram.cells.redo s.mem.ram s.mem.debug.entries = s.mem.ram
    rw [hentries]
    rfl

theorem Tracks.writeByte {base s : Sys σ} (h : Tracks base s.writes) (addr : Addr) (v : Byte)
    (space : AddrSpace) (byteNum : Fin 2) (hlen : s.mem.debug.writeLen = byteNum.val) :
    Tracks base (s.writeByte addr v space byteNum).writes := by
  have hentries := s.mem.entries_cpuWrite addr v space byteNum hlen
  have hram : Ram.cells.redo base.mem.ram s.mem.debug.entries = s.mem.ram := h.redo
  refine ⟨?_, ?_, ?_⟩
  · change s.stores ++ _ = base.stores ++ (s.mem.cpuWrite addr v space byteNum).debug.entries
    rw [hentries, ← List.append_assoc, ← show s.stores = base.stores ++ s.mem.debug.entries from
      h.stores]
  · change Ram.cells.Recorded base.mem.ram (s.mem.cpuWrite addr v space byteNum).debug.entries
    rw [hentries, ← hram]
    exact Ram.cells.recorded_snoc h.recorded _ _
  · change Ram.cells.redo base.mem.ram (s.mem.cpuWrite addr v space byteNum).debug.entries = _
    rw [hentries, Ram.cells.redo_snoc, hram]
    rfl

theorem tracks_cycle (ports : PortFuncs σ) {micro : Micro} (len : Nat) {base s : Sys σ}
    (hne : micro ≠ .xthl) (h : Tracks base s.writes)
    (hlen : s.mem.debug.writeLen = writesDone micro s.cpu.mc.toNat) :
    Tracks base (s.cycle ports micro len).writes ∧
    ((controlAfter micro s).mc = s.cpu.mc →
      (s.cycle ports micro len).mem.debug.writeLen = writesDone micro (s.cpu.mc.toNat + 1)) := by
  have hview : (s.cycle ports micro len).writes = (s.exec ports micro).writes := rfl
  have hcount : (s.cycle ports micro len).mem.debug.writeLen = (s.exec ports micro).writes.writeLen :=
    rfl
  rw [hview, hcount]
  rcases exec_writes ports micro s with ⟨hsame, hnone⟩ | ⟨byteNum, hat, addr, v, space, hwrote⟩
  · rw [hsame]
    refine ⟨h, ?_⟩
    intro hmc
    rcases hnone with hnone | hskip
    · rw [writesDone, hnone]
      exact hlen
    · exact absurd hmc hskip
  · have hindex := writeAt_eq_writesDone hne hat
    rw [hwrote]
    refine ⟨h.writeByte addr v space byteNum (hlen.trans hindex.symm), ?_⟩
    intro _
    rw [writesDone, hat, ← hindex]
    rfl

/-! ## The record of a whole instruction -/

theorem runCycles_tracks (ports : PortFuncs σ) {op : Byte} (hne : decode op ≠ .xthl)
    {base : Sys σ} (left : Nat) (irq : Nat → Bool) (s : Sys σ) (hin : s.cpu.mc.toNat < mCycles op)
    (hleft : mCycles op ≤ s.cpu.mc.toNat + left) (h : Tracks base s.writes)
    (hlen : s.mem.debug.writeLen = writesDone (decode op) s.cpu.mc.toNat) :
    ∃ t n, (∀ fuel, runCycles ports (decode op) (mCycles op) (fuel + left) irq s = some (t, n)) ∧
      Tracks base t.writes := by
  induction left generalizing irq s with
  | zero => omega
  | succ left ih =>
      obtain ⟨htracks, hcount⟩ := tracks_cycle ports (mCycles op) hne h hlen
      by_cases hdone : (s.cycle ports (decode op) (mCycles op)).isInstructionExecuted = true
      · refine ⟨_, 1, ?_, htracks⟩
        intro fuel
        rw [← Nat.add_assoc]
        simp only [runCycles, if_pos hdone]
      · rcases mc_cycle ports op hin with hzero | ⟨hnext, hmc⟩ | ⟨-, hhalt⟩
        · exact absurd hzero (mc_ne_of_not_executed hdone)
        · have hlt := inCycle_cycle ports op s
          obtain ⟨t, n, hrun, ht⟩ := ih (fun n => irq (n + 1))
            ((s.cycle ports (decode op) (mCycles op)).latchIrq (irq 0)) hlt (by
              change mCycles op ≤ (s.cycle ports (decode op) (mCycles op)).cpu.mc.toNat + left
              omega) htracks (by
              change (s.cycle ports (decode op) (mCycles op)).mem.debug.writeLen =
                writesDone (decode op) (s.cycle ports (decode op) (mCycles op)).cpu.mc.toNat
              rw [hnext]
              exact hcount hmc)
          refine ⟨t, n + 1, ?_, ht⟩
          intro fuel
          rw [← Nat.add_assoc]
          simp only [runCycles, if_neg hdone, hrun fuel]
          rfl
        · refine absurd ?_ hdone
          simp [isInstructionExecuted, hhalt]

def opcodeXthl : Byte := 0xE3#8

def debugInit (s : Sys σ) : Sys σ := { s with mem := s.mem.debugInit }

/-- At an instruction boundary, or waiting in `HLT`. -/
def Startable (irq : Bool) (s : Sys σ) : Prop :=
  (s.cpu.mc = 0 ∧ (s.cpu.hlta = false ∨ s.Accepts irq)) ∨
    (s.cpu.mc = 1 ∧ s.cpu.ir = opcodeHlt ∧ s.cpu.hlta = true)

def nextOpcode (irq : Bool) (s : Sys σ) : Byte :=
  if s.cpu.mc ≠ 0 then s.cpu.ir else if s.Accepts irq then opcodeRst7 else s.opcode

/-- `executeInstruction` returns, and the debug record lists its stores. -/
def RecordsInstruction (ports : PortFuncs σ) (irq : Nat → Bool) (s : Sys σ) : Prop :=
  ∃ t n, (∀ fuel, executeInstruction ports (fuel + 6) irq s.debugInit = some (t, n)) ∧
    RecordExact s t

theorem enter_debugInit (irq : Bool) (s : Sys σ) :
    (s.debugInit.enter irq).cpu.ir = s.nextOpcode irq ∧
      (s.debugInit.enter irq).cpu.mc = s.cpu.mc ∧
      (s.debugInit.enter irq).writes = s.debugInit.writes := by
  by_cases hmc : s.cpu.mc = 0
  · by_cases hacc : s.Accepts irq
    · have hyes := (accepts_iff.mp hacc).2
      rw [enter_of_accept (s := s.debugInit) hmc hyes, nextOpcode, if_neg (not_not_intro hmc),
        if_pos hacc]
      exact ⟨rfl, rfl, rfl⟩
    · have hno := not_interrupted_of_fetches (s := s) ⟨hmc, hacc, rfl⟩
      rw [enter_of_fetch (s := s.debugInit) hmc hno, nextOpcode, if_neg (not_not_intro hmc),
        if_neg hacc]
      exact ⟨rfl, rfl, rfl⟩
  · rw [enter_of_mc_ne (s := s.debugInit) irq hmc, nextOpcode, if_pos hmc]
    exact ⟨rfl, rfl, rfl⟩

theorem decode_xthl (op : Byte) : decode op = .xthl ↔ op = opcodeXthl := by
  revert op
  decide +kernel

theorem Startable.cycle {irq : Bool} {s : Sys σ} (h : s.Startable irq) :
    s.cpu.mc.toNat < mCycles (s.nextOpcode irq) ∧
      writesDone (decode (s.nextOpcode irq)) s.cpu.mc.toNat = 0 := by
  rcases h with ⟨hmc0, -⟩ | ⟨hmc1, hhlt, -⟩
  · rw [hmc0]
    exact ⟨(mCycles_bounds _).1, rfl⟩
  · have hnext : s.nextOpcode irq = opcodeHlt := by
      rw [nextOpcode, if_pos (by rw [hmc1]; decide), hhlt]
    rw [hnext, hmc1]
    exact ⟨by decide, by decide⟩

theorem records_of_ne_xthl (ports : PortFuncs σ) {irq : Nat → Bool} {s : Sys σ}
    (h : s.Startable (irq 0)) (hne : s.nextOpcode (irq 0) ≠ opcodeXthl) :
    RecordsInstruction ports irq s := by
  obtain ⟨hir, hmc, hwrites⟩ := enter_debugInit (irq 0) s
  have htracks : Tracks s (s.debugInit.enter (irq 0)).writes := by
    have hrefl := tracks_refl (s := s.debugInit) rfl
    rw [hwrites]
    exact ⟨hrefl.stores, hrefl.recorded, hrefl.redo⟩
  have hzero : (s.debugInit.enter (irq 0)).mem.debug.writeLen = 0 :=
    congrArg WriteView.writeLen hwrites
  have hne' : decode (s.nextOpcode (irq 0)) ≠ .xthl := mt (decode_xthl _).mp hne
  have hle := (mCycles_bounds (s.nextOpcode (irq 0))).2
  obtain ⟨hlt, hdone⟩ := h.cycle
  obtain ⟨t, n, hrun, ht⟩ := runCycles_tracks ports hne' 6 (fun n => irq (n + 1))
    (s.debugInit.enter (irq 0)) (by rw [hmc]; exact hlt) (by omega) htracks
    (by rw [hzero, hmc, hdone])
  refine ⟨t, n, ?_, ht.recordExact⟩
  intro fuel
  rw [executeInstruction_eq, hir]
  exact hrun fuel

theorem executeInstruction_xthl (ports : PortFuncs σ) {irq : Nat → Bool} {s : Sys σ}
    (hmc : s.cpu.mc = 0) (hhlta : s.cpu.hlta = false) (hno : ¬s.Accepts (irq 0))
    (hop : s.opcode = opcodeXthl) (fuel : Nat) :
    ∃ t, executeInstruction ports (fuel + 6) irq s.debugInit = some (t, 6) ∧
      t.stores.length = s.stores.length + 2 ∧ t.mem.debug.entries.length = 1 := by
  have hfetch := not_interrupted_of_fetches (s := s) ⟨hmc, hno, rfl⟩
  have hop' : s.debugInit.opcode = 0xE3#8 := hop
  have hmicro : decode 0xE3#8 = .xthl := rfl
  have hcycles : mCycles 0xE3#8 = 6 := rfl
  rw [executeInstruction_of_fetch ports _ irq s.debugInit hmc hfetch, hop', hmicro, hcycles]
  have hmc' : s.debugInit.cpu.mc = 0 := hmc
  have hhlta' : s.debugInit.cpu.hlta = false := hhlta
  have hstores : s.debugInit.stores = s.stores := rfl
  simp [runCycles, cycle, exec, xthl, isInstructionExecuted, fetchOpcode, readInstrMovePC,
    readByte, writeByte, Memory.cpuReadInstr_eq, Memory.cpuRead_eq, latchIrq, stepMC, setMC,
    addCC, hmc', hhlta', hstores, Debug.entries, Memory.cpuWrite]

/--
The debug record of an instruction is complete and exact unless the instruction
is `XTHL`.
-/
theorem recordsInstruction_iff (ports : PortFuncs σ) (irq : Nat → Bool) (s : Sys σ)
    (h : s.Startable (irq 0)) :
    RecordsInstruction ports irq s ↔ s.nextOpcode (irq 0) ≠ opcodeXthl := by
  constructor
  · rintro ⟨t, n, hrun, hexact⟩ hop
    have hmc : s.cpu.mc = 0 := by
      by_contra hne
      rcases h with ⟨hmc0, -⟩ | ⟨-, hhlt, -⟩
      · exact hne hmc0
      · rw [nextOpcode, if_pos hne, hhlt] at hop
        exact absurd hop (by decide)
    rw [nextOpcode, if_neg (not_not_intro hmc)] at hop
    have hno : ¬s.Accepts (irq 0) := by
      intro hacc
      rw [if_pos hacc] at hop
      exact absurd hop (by decide)
    rw [if_neg hno] at hop
    have hhlta : s.cpu.hlta = false := by
      rcases h with ⟨-, hoff | hacc⟩ | ⟨hmc1, -⟩
      · exact hoff
      · exact absurd hacc hno
      · rw [hmc] at hmc1
        exact absurd hmc1 (by decide)
    obtain ⟨u, hu, hstores, hentries⟩ := executeInstruction_xthl ports hmc hhlta hno hop 0
    have heq : t = u := congrArg Prod.fst (Option.some.inj ((hrun 0).symm.trans hu))
    have hlen := congrArg List.length hexact.stores
    rw [heq, hstores, List.length_append, hentries] at hlen
    omega
  · exact records_of_ne_xthl ports h

/-- `SHLD 2000H` at address 0 with `HL = 0x0102`, over otherwise cleared RAM. -/
def shldState : Sys Unit where
  cpu := { CpuState.reset with hl := ⟨0x02, 0x01⟩ }
  mem := .ofRam fun i => [0x22, 0x00, 0x20].getD i.val 0
  io := ()
  stores := []

/-- A witness: the record of `SHLD` holds the two bytes that it stores. -/
theorem recordsInstruction_shld :
    let ports : PortFuncs Unit := ⟨fun _ io => (0, io), fun _ _ io => io⟩
    RecordsInstruction ports (fun _ => false) shldState ∧
      (executeInstruction ports 6 (fun _ => false) shldState.debugInit).map
        (fun r => r.1.mem.debug.entries.length) = some 2 := by
  intro ports
  have hiff := recordsInstruction_iff ports (fun _ => false) shldState (.inl ⟨rfl, .inl rfl⟩)
  exact ⟨hiff.mpr (by decide), by decide +kernel⟩

/-- `XTHL` at address 0 with `SP = 0x2000` and `HL = 0x0102`, over otherwise cleared RAM. -/
def xthlState : Sys Unit where
  cpu := { CpuState.reset with sp := ⟨0x00, 0x20⟩, hl := ⟨0x02, 0x01⟩ }
  mem := .ofRam fun i => if i.val = 0 then opcodeXthl else 0
  io := ()
  stores := []

/-- Two bytes are stored, one is listed; the byte at `SP` is not undone. -/
theorem xthl_record_incomplete :
    let ports : PortFuncs Unit := ⟨fun _ io => (0, io), fun _ _ io => io⟩
    let irq : Nat → Bool := fun _ => false
    xthlState.Startable (irq 0) ∧ ¬RecordsInstruction ports irq xthlState ∧
      (executeInstruction ports 6 irq xthlState.debugInit).map (fun r =>
        (r.1.mem.debug.writeLen, r.1.stores.length,
          (Ram.cells.undo r.1.mem.ram r.1.mem.debug.entries).read 0x2000,
          xthlState.mem.ram.read 0x2000)) = some (1, 2, 0x02, 0x00) := by
  intro ports irq
  refine ⟨Or.inl ⟨rfl, Or.inl rfl⟩, ?_, by decide +kernel⟩
  rintro ⟨t, n, hrun, hexact⟩
  obtain ⟨u, hu, hstores, hentries⟩ :=
    @executeInstruction_xthl _ ports irq xthlState rfl rfl (by decide) rfl 0
  have heq : t = u := congrArg Prod.fst (Option.some.inj ((hrun 0).symm.trans hu))
  have hlen := congrArg List.length hexact.stores
  rw [heq, hstores, List.length_append, hentries] at hlen
  exact absurd hlen (by decide)

end Sys

end V6Emul
