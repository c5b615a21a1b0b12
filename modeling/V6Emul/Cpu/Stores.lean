import V6Emul.Cpu.Interrupt

/-!
# Where an instruction stores

The places are known when an instruction begins: the operand word is read before
anything is stored, and the stack pointer moves by whole bytes.  A cycle that stores
takes the first place off the list.
-/

namespace V6Emul

/-! ## The debug record of stores -/

def Debug.entry (d : Debug) (i : Fin 2) : Store :=
  ⟨d.writeGlobalAddr i, d.write i, d.beforeWrite i⟩

/-- The first `writeLen` entries of the three arrays. -/
def Debug.entries (d : Debug) : List Store := [d.entry 0, d.entry 1].take d.writeLen

abbrev Place := Addr × AddrSpace

namespace Sys

variable {σ : Type}

/-! ## The stores of one machine cycle -/

structure WriteView where
  ram : Ram
  stores : List Store
  entries : List Store
  writeLen : Nat

def writes (s : Sys σ) : WriteView :=
  ⟨s.mem.ram, s.stores, s.mem.debug.entries, s.mem.debug.writeLen⟩

def writeAt : Micro → Nat → Option (Fin 2)
  | .movMemReg _, 1 => some 0
  | .mviMemData, 2 => some 0
  | .sta, 3 => some 0
  | .stax _, 1 => some 0
  | .shld, 3 => some 0
  | .shld, 4 => some 1
  | .xthl, 3 => some 1
  | .xthl, 4 => some 0
  | .push _ _, 1 => some 0
  | .push _ _, 3 => some 1
  | .inrMem, 2 => some 0
  | .dcrMem, 2 => some 0
  | .call _, 3 => some 0
  | .call _, 4 => some 1
  | .rst _, 1 => some 0
  | .rst _, 2 => some 1
  | _, _ => none

/-! ## The places -/

def operandWord (mc : Nat) (s : Sys σ) : Addr :=
  if mc ≤ 1 then s.mem.getByte (s.cpu.pc.word + 1#16) .ram ++ s.mem.getByte s.cpu.pc.word .ram
  else if mc = 2 then s.mem.getByte s.cpu.pc.word .ram ++ s.cpu.wz.l
  else s.cpu.wz.word

def pushed (s : Sys σ) : List Place :=
  [(s.cpu.sp.word - 1#16, .stack), (s.cpu.sp.word - 2#16, .stack)]

def pushing (s : Sys σ) : List Place :=
  [(s.cpu.sp.word, .stack), (s.cpu.sp.word - 1#16, .stack)]

def places (micro : Micro) (mc : Nat) (s : Sys σ) : List Place :=
  match micro with
  | .movMemReg _ => if mc ≤ 1 then [(s.cpu.hl.word, .ram)] else []
  | .stax addr => if mc ≤ 1 then [((s.cpu.pair addr).word, .ram)] else []
  | .mviMemData | .inrMem | .dcrMem => if mc ≤ 2 then [(s.cpu.hl.word, .ram)] else []
  | .sta => if mc ≤ 3 then [(s.operandWord mc, .ram)] else []
  | .shld =>
      if mc ≤ 3 then [(s.operandWord mc, .ram), (s.operandWord mc + 1#16, .ram)]
      else if mc = 4 then [(s.cpu.wz.word, .ram)] else []
  | .xthl =>
      if mc ≤ 3 then [(s.cpu.sp.word, .stack), (s.cpu.sp.word + 1#16, .stack)]
      else if mc = 4 then [(s.cpu.sp.word + 1#16, .stack)] else []
  | .push _ _ =>
      if mc = 0 then s.pushed else if mc = 1 then s.pushing
      else if mc = 2 then [(s.cpu.sp.word - 1#16, .stack)]
      else if mc = 3 then [(s.cpu.sp.word, .stack)] else []
  -- a call that is not taken skips the cycle 4
  | .call condition =>
      if mc = 4 then [(s.cpu.sp.word, .stack)]
      else if 4 < mc ∨ s.cpu.cond condition = false then []
      else if mc = 0 then s.pushed else s.pushing
  | .rst _ =>
      if mc = 0 then s.pushed else if mc = 1 then s.pushing
      else if mc = 2 then [(s.cpu.sp.word, .stack)] else []
  | _ => []

theorem operandWord_fetchZ (s : Sys σ) : s.fetchZ.operandWord 2 = s.operandWord 1 := by
  simp [operandWord, fetchZ, readInstrMovePC, Memory.cpuReadInstr_eq]

theorem operandWord_fetchW (s : Sys σ) : s.fetchW.operandWord 3 = s.operandWord 2 := by
  simp [operandWord, fetchW, readInstrMovePC, Memory.cpuReadInstr_eq, RegPair.word]

theorem sp_decSP (s : Sys σ) : s.decSP.cpu.sp.word = s.cpu.sp.word - 1#16 := RegPair.word_ofWord _

theorem pushing_decSP (s : Sys σ) : s.decSP.pushing = s.pushed := by
  rw [pushing, pushed, sp_decSP, BitVec.sub_sub]
  rfl

/-! ## One cycle -/

def Quiet (s t : Sys σ) : Prop := t.mem.update = s.mem.update ∧ t.writes = s.writes

def StoresNext (micro : Micro) (s t : Sys σ) : Prop :=
  t.mem.update = s.mem.update ∧
    ((t.writes = s.writes ∧ (writeAt micro s.cpu.mc.toNat = none ∨ t.cpu.mc ≠ s.cpu.mc) ∧
      places micro (t.cpu.mc.toNat + 1) t = places micro s.cpu.mc.toNat s) ∨
    ∃ byteNum addr v space, writeAt micro s.cpu.mc.toNat = some byteNum ∧
      t.writes = (s.writeByte addr v space byteNum).writes ∧
      places micro s.cpu.mc.toNat s = (addr, space) :: places micro (t.cpu.mc.toNat + 1) t)

section

variable {micro : Micro} {s t : Sys σ} {n : Nat}

theorem quiet_at (hn : s.cpu.mc.toNat = n) (h : Quiet s t) (hmc : t.cpu.mc = s.cpu.mc)
    (hat : writeAt micro n = none) (hplaces : places micro (n + 1) t = places micro n s) :
    StoresNext micro s t := by
  subst hn
  refine ⟨h.1, .inl ⟨h.2, .inl hat, ?_⟩⟩
  rw [hmc, hplaces]

theorem stores_at (hn : s.cpu.mc.toNat = n) (hmc : t.cpu.mc = s.cpu.mc) {byteNum : Fin 2}
    (hat : writeAt micro n = some byteNum) {addr : Addr} {v : Byte} {space : AddrSpace}
    (hupdate : t.mem.update = s.mem.update)
    (hwrites : t.writes = (s.writeByte addr v space byteNum).writes)
    (hplaces : places micro n s = (addr, space) :: places micro (n + 1) t) :
    StoresNext micro s t := by
  subst hn
  refine ⟨hupdate, .inr ⟨byteNum, addr, v, space, hat, hwrites, ?_⟩⟩
  rw [hmc, hplaces]

theorem Quiet.storesNext (h : Quiet s t) (hat : ∀ mc, writeAt micro mc = none)
    (hnone : ∀ mc (u : Sys σ), places micro mc u = []) : StoresNext micro s t :=
  ⟨h.1, .inl ⟨h.2, .inl (hat _), (hnone _ _).trans (hnone _ _).symm⟩⟩

end

/-! ## The instructions that store -/

section

variable (ports : PortFuncs σ) (s : Sys σ)

theorem storesNext_movMemReg (sss : Reg) : StoresNext (.movMemReg sss) s (s.movMemReg sss) := by
  unfold movMemReg
  split
  · rename_i hmc
    exact quiet_at hmc ⟨rfl, rfl⟩ rfl rfl rfl
  · rename_i hmc
    exact stores_at hmc rfl rfl rfl rfl rfl
  · refine quiet_at rfl ⟨rfl, rfl⟩ rfl ?_ ?_
    · unfold writeAt
      split <;> simp_all
    · simp only [places]
      grind

theorem storesNext_stax (addr : Pair) : StoresNext (.stax addr) s (s.stax addr) := by
  unfold stax
  split
  · rename_i hmc
    exact stores_at hmc rfl rfl rfl rfl rfl
  · refine quiet_at rfl ⟨rfl, rfl⟩ rfl ?_ ?_
    · unfold writeAt
      split <;> simp_all
    · simp only [places]
      grind

theorem storesNext_mem : StoresNext .mviMemData s s.mviMemData ∧ StoresNext .inrMem s s.inrMem ∧
    StoresNext .dcrMem s s.dcrMem := by
  refine ⟨?_, ?_, ?_⟩
  all_goals
    simp only [mviMemData, inrMem, dcrMem]
    split
    · rename_i hmc
      exact quiet_at hmc ⟨rfl, rfl⟩ rfl rfl rfl
    · rename_i hmc
      exact stores_at hmc rfl rfl rfl rfl rfl
    · refine quiet_at rfl ⟨rfl, rfl⟩ rfl ?_ ?_
      · unfold writeAt
        split <;> simp_all
      · simp only [places]
        grind

theorem storesNext_sta : StoresNext .sta s s.sta := by
  unfold sta
  split
  · rename_i hmc
    exact quiet_at hmc ⟨rfl, rfl⟩ rfl rfl
      (congrArg (fun w => [(w, AddrSpace.ram)]) s.operandWord_fetchZ)
  · rename_i hmc
    exact quiet_at hmc ⟨rfl, rfl⟩ rfl rfl
      (congrArg (fun w => [(w, AddrSpace.ram)]) s.operandWord_fetchW)
  · rename_i hmc
    exact stores_at hmc rfl rfl rfl rfl rfl
  · refine quiet_at rfl ⟨rfl, rfl⟩ rfl ?_ ?_
    · unfold writeAt
      split <;> simp_all
    · simp only [places, operandWord]
      grind

theorem storesNext_shld : StoresNext .shld s s.shld := by
  unfold shld
  split
  · rename_i hmc
    exact quiet_at hmc ⟨rfl, rfl⟩ rfl rfl
      (congrArg (fun w => [(w, AddrSpace.ram), (w + 1#16, .ram)]) s.operandWord_fetchZ)
  · rename_i hmc
    exact quiet_at hmc ⟨rfl, rfl⟩ rfl rfl
      (congrArg (fun w => [(w, AddrSpace.ram), (w + 1#16, .ram)]) s.operandWord_fetchW)
  · rename_i hmc
    refine stores_at hmc rfl rfl rfl rfl ?_
    simp [places, operandWord, incWZ, writeByte]
  · rename_i hmc
    exact stores_at hmc rfl rfl rfl rfl rfl
  · refine quiet_at rfl ⟨rfl, rfl⟩ rfl ?_ ?_
    · unfold writeAt
      split <;> simp_all
    · simp only [places, operandWord]
      grind

theorem storesNext_xthl : StoresNext .xthl s s.xthl := by
  unfold xthl
  split
  · rename_i hmc
    exact quiet_at hmc ⟨rfl, rfl⟩ rfl rfl rfl
  · rename_i hmc
    exact quiet_at hmc ⟨rfl, rfl⟩ rfl rfl rfl
  · rename_i hmc
    exact stores_at hmc rfl rfl rfl rfl rfl
  · rename_i hmc
    exact stores_at hmc rfl rfl rfl rfl rfl
  · rename_i hmc
    exact quiet_at hmc ⟨rfl, rfl⟩ rfl rfl rfl
  · refine quiet_at rfl ⟨rfl, rfl⟩ rfl ?_ ?_
    · unfold writeAt
      split <;> simp_all
    · simp only [places]
      grind

theorem storesNext_push (hb lb : Reg) : StoresNext (.push hb lb) s (s.push hb lb) := by
  unfold push
  split
  · rename_i hmc
    exact quiet_at hmc ⟨rfl, rfl⟩ rfl rfl s.pushing_decSP
  · rename_i hmc
    exact stores_at hmc rfl rfl rfl rfl rfl
  · rename_i hmc
    exact quiet_at hmc ⟨rfl, rfl⟩ rfl rfl (congrArg (fun w => [(w, AddrSpace.stack)]) s.sp_decSP)
  · rename_i hmc
    exact stores_at hmc rfl rfl rfl rfl rfl
  · refine quiet_at rfl ⟨rfl, rfl⟩ rfl ?_ ?_
    · unfold writeAt
      split <;> simp_all
    · simp only [places]
      grind

theorem storesNext_rst (arg : Fin 8) : StoresNext (.rst arg) s (s.rst arg) := by
  unfold rst
  split
  · rename_i hmc
    exact quiet_at hmc ⟨rfl, rfl⟩ rfl rfl s.pushing_decSP
  · rename_i hmc
    refine stores_at hmc rfl rfl rfl rfl ?_
    simp [places, pushing, decSP, writeByte]
  · rename_i hmc
    exact stores_at hmc rfl rfl rfl rfl rfl
  · rename_i hmc
    exact quiet_at hmc ⟨rfl, rfl⟩ rfl rfl rfl
  · refine quiet_at rfl ⟨rfl, rfl⟩ rfl ?_ ?_
    · unfold writeAt
      split <;> simp_all
    · simp only [places]
      grind

theorem storesNext_call (condition : Condition) :
    StoresNext (.call condition) s (s.call (s.cpu.cond condition)) := by
  have hcond : ∀ t : Sys σ, t.cpu.f = s.cpu.f → t.cpu.cond condition = s.cpu.cond condition := by
    intro t hf
    cases condition <;> simp [CpuState.cond, hf]
  unfold call
  split
  · rename_i hmc
    cases htaken : s.cpu.cond condition with
    | false =>
        refine quiet_at hmc ⟨rfl, rfl⟩ rfl rfl ?_
        simp [places, htaken]
    | true =>
        refine quiet_at hmc ⟨rfl, rfl⟩ rfl rfl ?_
        have hmoved := (hcond s.decSP rfl).trans htaken
        simp [places, htaken, hmoved, pushing_decSP]
  · rename_i hmc
    refine quiet_at hmc ⟨rfl, rfl⟩ rfl rfl ?_
    have hpushing : s.fetchZ.pushing = s.pushing := rfl
    simp [places, hcond s.fetchZ rfl, hpushing]
  · rename_i hmc
    refine quiet_at hmc ⟨rfl, rfl⟩ rfl rfl ?_
    have hpushing : s.fetchW.pushing = s.pushing := rfl
    simp [places, hcond s.fetchW rfl, hpushing]
  · rename_i hmc
    cases htaken : s.cpu.cond condition with
    | false =>
        have hfive : (s.setMC 5).cpu.mc = 5 := rfl
        refine ⟨rfl, .inl ⟨rfl, .inr ?_, ?_⟩⟩
        · rw [if_neg Bool.false_ne_true, hfive]
          intro heq
          rw [← heq] at hmc
          exact absurd hmc (by decide)
        · simp [hmc, places, htaken, setMC]
    | true =>
        refine stores_at hmc rfl rfl rfl rfl ?_
        simp [places, htaken, writeByte, decSP, pushing]
  · rename_i hmc
    refine stores_at hmc rfl rfl rfl rfl ?_
    simp [places, writeByte]
  · rename_i hmc
    refine quiet_at hmc ⟨rfl, rfl⟩ rfl rfl ?_
    simp [places]
  · refine quiet_at rfl ⟨rfl, rfl⟩ rfl ?_ ?_
    · unfold writeAt
      split <;> simp_all
    · simp only [places]
      grind

/-! ## All instructions -/

theorem quiet_memOp {op : Sys σ → Sys σ} (hop : ∀ t, Quiet t (op t)) : Quiet s (s.memOp op) := by
  unfold memOp
  split
  · exact ⟨rfl, rfl⟩
  · exact hop s.readTmp
  · exact ⟨rfl, rfl⟩

theorem quiet_immOp {op : Sys σ → Sys σ} (hop : ∀ t, Quiet t (op t)) : Quiet s (s.immOp op) := by
  unfold immOp
  split
  · exact ⟨rfl, rfl⟩
  · exact hop s.fetchTmp
  · exact ⟨rfl, rfl⟩

theorem storesNext_exec (micro : Micro) : StoresNext micro s (s.exec ports micro) := by
  cases micro with
  | movMemReg sss => exact storesNext_movMemReg s sss
  | stax addr => exact storesNext_stax s addr
  | mviMemData => exact (storesNext_mem s).1
  | inrMem => exact (storesNext_mem s).2.1
  | dcrMem => exact (storesNext_mem s).2.2
  | sta => exact storesNext_sta s
  | shld => exact storesNext_shld s
  | xthl => exact storesNext_xthl s
  | push hb lb => exact storesNext_push s hb lb
  | rst arg => exact storesNext_rst s arg
  | call condition => exact storesNext_call s condition
  | addMem | subMem | amaMem | xraMem | oraMem | cmpMem =>
      exact Quiet.storesNext (quiet_memOp s fun _ => ⟨rfl, rfl⟩) (fun _ => rfl) fun _ _ => rfl
  | adi | sbi | ani | xri | ori | cpi =>
      exact Quiet.storesNext (quiet_immOp s fun _ => ⟨rfl, rfl⟩) (fun _ => rfl) fun _ _ => rfl
  | jmp condition | retCond condition =>
      refine Quiet.storesNext ?_ (fun _ => rfl) fun _ _ => rfl
      simp only [exec, jmp, retCond]
      generalize s.cpu.cond condition = taken
      split <;> cases taken <;> exact ⟨rfl, rfl⟩
  | hlt =>
      refine Quiet.storesNext ?_ (fun _ => rfl) fun _ _ => rfl
      simp only [exec, hlt]
      split
      · exact ⟨rfl, rfl⟩
      · split <;> exact ⟨rfl, rfl⟩
      · exact ⟨rfl, rfl⟩
  | movRegReg | loadRegPtr | mviRegData | lda | lxi | lhld | sphl | pop | popPSW | dad | inr | dcr
  | inx | dcx | pchl | ret | in_ | out_ =>
      refine Quiet.storesNext ?_ (fun _ => rfl) fun _ _ => rfl
      simp only [exec, movRegReg, loadRegPtr, mviRegData, lda, lxi, lhld, sphl, pop, popPSW, dad,
        inr, dcr, inx, dcx, pchl, ret, in_, out_]
      split <;> exact ⟨rfl, rfl⟩
  | _ => exact Quiet.storesNext ⟨rfl, rfl⟩ (fun _ => rfl) fun _ _ => rfl

end

end Sys

end V6Emul
