import V6Emul.Cpu.Control
import V6Emul.Foundation.Runs

/-!
# Interrupt acceptance over whole runs

A request is latched in any machine cycle and taken at the first cycle of a later
instruction.  The latch is not cleared by `DI`: when a request is latched while
the instruction after `EI` is still protected and that instruction is `DI`, the
interrupt is taken with interrupts disabled.  This is the only way.
-/

namespace V6Emul

namespace Sys

variable {σ : Type}

def opcodeEi : Byte := 0xFB#8
def opcodeDi : Byte := 0xF3#8

/-! ## What a machine cycle does to the interrupt flip-flops -/

/-- A request is latched once `irq` has been sampled. -/
def Latched (irq : Bool) (s : Sys σ) : Prop := (s.latchIrq irq).cpu.iff = true

/-- The next cycle forces `RST 7` into `IR`. -/
def Accepts (irq : Bool) (s : Sys σ) : Prop :=
  s.cpu.mc = 0 ∧ s.Latched irq ∧ s.cpu.eiPending = false

def Fetches (irq : Bool) (op : Byte) (s : Sys σ) : Prop :=
  s.cpu.mc = 0 ∧ ¬s.Accepts irq ∧ s.opcode = op

instance (irq : Bool) (s : Sys σ) : Decidable (s.Latched irq) :=
  inferInstanceAs (Decidable (_ = true))

instance (irq : Bool) (s : Sys σ) : Decidable (s.Accepts irq) :=
  inferInstanceAs (Decidable (_ ∧ _ ∧ _))

section Steps

variable (ports : PortFuncs σ) {irq : Bool} {s : Sys σ}

theorem decode_enable (op : Byte) :
    (decode op = .ei ↔ op = opcodeEi) ∧ (decode op = .di ↔ op = opcodeDi) := by
  revert op
  decide +kernel

theorem controlAfter_flipFlops (micro : Micro) (t : Sys σ) :
    (controlAfter micro t).iff = t.cpu.iff ∧
    (controlAfter micro t).inte = (if micro = .ei then true else
      if micro = .di then false else t.cpu.inte) ∧
    (controlAfter micro t).eiPending = (if micro = .ei then true else t.cpu.eiPending) := by
  cases micro with
  | call condition | retCond condition | hlt =>
      simp only [controlAfter]
      split <;> simp [control, CpuState.control]
  | _ => simp [controlAfter, control, CpuState.control]

theorem cycle_flipFlops (op : Byte) (len : Nat) (t : Sys σ) :
    (t.cycle ports (decode op) len).cpu.iff = t.cpu.iff ∧
    (t.cycle ports (decode op) len).cpu.inte = (if op = opcodeEi then true else
      if op = opcodeDi then false else t.cpu.inte) ∧
    (t.cycle ports (decode op) len).cpu.eiPending =
      (if op = opcodeEi then true else t.cpu.eiPending) := by
  have hexec := control_exec ports (decode op) t
  obtain ⟨hiff, hinte, hpending⟩ := controlAfter_flipFlops (decode op) t
  rw [← hexec] at hiff hinte hpending
  simp only [(decode_enable op).1, (decode_enable op).2] at hinte hpending
  exact ⟨hiff, hinte, hpending⟩

theorem accepts_iff : s.Accepts irq ↔
    s.cpu.mc = 0 ∧ ((s.latchIrq irq).cpu.iff && !s.cpu.eiPending) = true := by
  rw [Bool.and_eq_true, Bool.not_eq_true']
  exact Iff.rfl

theorem not_interrupted_of_fetches {op : Byte} (h : s.Fetches irq op) :
    ((s.latchIrq irq).cpu.iff && !s.cpu.eiPending) = false := by
  have hnot := h.2.1
  rw [accepts_iff, not_and] at hnot
  simpa using hnot h.1

theorem accepts_step (h : s.Accepts irq) :
    (s.executeMachineCycle ports irq).cpu.iff = false ∧
    (s.executeMachineCycle ports irq).cpu.inte = false ∧
    (s.executeMachineCycle ports irq).cpu.eiPending = false := by
  obtain ⟨hmc, hyes⟩ := accepts_iff.mp h
  rw [executeMachineCycle_eq, enter_of_accept hmc hyes]
  obtain ⟨h1, h2, h3⟩ := cycle_flipFlops ports opcodeRst7 (mCycles opcodeRst7)
    (s.latchIrq irq).acceptInterrupt
  exact ⟨h1, h2, h3.trans h.2.2⟩

theorem fetches_step {op : Byte} (h : s.Fetches irq op) :
    (s.executeMachineCycle ports irq).cpu.ir = op ∧
    ((s.executeMachineCycle ports irq).cpu.iff = true ↔ s.Latched irq) ∧
    (s.executeMachineCycle ports irq).cpu.inte = (if op = opcodeEi then true else
      if op = opcodeDi then false else s.cpu.inte) ∧
    (s.executeMachineCycle ports irq).cpu.eiPending = decide (op = opcodeEi) := by
  have hno := not_interrupted_of_fetches h
  obtain ⟨hmc, -, rfl⟩ := h
  rw [executeMachineCycle_eq, enter_of_fetch hmc hno]
  obtain ⟨h1, h2, h3⟩ := cycle_flipFlops ports s.opcode (mCycles s.opcode)
    (s.latchIrq irq).fetchOpcode
  refine ⟨ir_cycle _ _ _ _, ?_, h2, ?_⟩
  · exact iff_of_eq (congrArg (· = true) h1)
  · refine h3.trans ?_
    by_cases hop : s.opcode = opcodeEi
    · rw [if_pos hop, decide_eq_true hop]
    · rw [if_neg hop, decide_eq_false hop]
      rfl

theorem continues_step (hmc : s.cpu.mc ≠ 0) (hin : s.InCycle) :
    ((s.executeMachineCycle ports irq).cpu.iff = true ↔ s.Latched irq) ∧
    (s.executeMachineCycle ports irq).cpu.inte = s.cpu.inte ∧
    (s.executeMachineCycle ports irq).cpu.eiPending = s.cpu.eiPending := by
  have hpos : 0 < s.cpu.mc.toNat := Nat.pos_of_ne_zero (mc_toNat_ne hmc)
  have hei : s.cpu.ir ≠ opcodeEi := by
    intro hir
    have hlt : s.cpu.mc.toNat < mCycles s.cpu.ir := hin
    rw [hir, show mCycles opcodeEi = 1 from rfl] at hlt
    omega
  have hdi : s.cpu.ir ≠ opcodeDi := by
    intro hir
    have hlt : s.cpu.mc.toNat < mCycles s.cpu.ir := hin
    rw [hir, show mCycles opcodeDi = 1 from rfl] at hlt
    omega
  rw [executeMachineCycle_eq, enter_of_mc_ne irq hmc]
  obtain ⟨h1, h2, h3⟩ := cycle_flipFlops ports s.cpu.ir (mCycles s.cpu.ir) (s.latchIrq irq)
  rw [if_neg hei, if_neg hdi] at h2
  rw [if_neg hei] at h3
  exact ⟨iff_of_eq (congrArg (· = true) h1), h2, h3⟩

theorem mc_eq_zero_of_fetches {op : Byte} (h : s.Fetches irq op) (hop : mCycles op = 1) :
    (s.executeMachineCycle ports irq).cpu.mc = 0 := by
  have hin := inCycle_executeMachineCycle ports irq s
  rw [InCycle, (fetches_step ports h).1, hop] at hin
  apply BitVec.eq_of_toNat_eq
  exact Nat.lt_one_iff.mp hin

theorem latched_of_enabled (h : s.Latched irq) : s.cpu.iff = true ∨ s.cpu.inte = true := by
  change (s.cpu.iff || (irq && s.cpu.inte)) = true at h
  rw [Bool.or_eq_true, Bool.and_eq_true] at h
  exact h.imp_right And.right

end Steps

/-! ## Runs -/

section Runs

variable (ports : PortFuncs σ) (irq : Nat → Bool) (start : Sys σ)

/-- The state before machine cycle `n`; the request line has the value `irq n` in it. -/
def runCycle : Nat → Sys σ := Runs.after (executeMachineCycle ports) irq start

def IsInstruction (a b : Nat) : Prop :=
  a < b ∧ (runCycle ports irq start a).cpu.mc = 0 ∧ (runCycle ports irq start b).cpu.mc = 0 ∧
    ∀ k, a < k → k < b → (runCycle ports irq start k).cpu.mc ≠ 0

/--
An interrupt is accepted with interrupts enabled, not right after the `EI` that
enabled them, and after a `DI` only when a later `EI` and the instruction that
follows it are complete.
-/
def AcceptsOnlyEnabled : Prop :=
  ∀ n, (runCycle ports irq start n).Accepts (irq n) →
    (runCycle ports irq start n).cpu.inte = true ∧
    (∀ m, IsInstruction ports irq start m n →
      (runCycle ports irq start m).Fetches (irq m) opcodeEi →
      (runCycle ports irq start m).cpu.inte = true) ∧
    ∀ m, m < n → (runCycle ports irq start m).Fetches (irq m) opcodeDi →
      ∃ e f c, m < e ∧ (runCycle ports irq start e).Fetches (irq e) opcodeEi ∧
        IsInstruction ports irq start e f ∧ IsInstruction ports irq start f c ∧ c ≤ n

/-- No cycle fetches `DI` while a request is latched. -/
def NoDiWhileLatched : Prop :=
  ∀ m, (runCycle ports irq start m).Fetches (irq m) opcodeDi →
    ¬(runCycle ports irq start m).Latched (irq m)

theorem runCycle_succ (n : Nat) : runCycle ports irq start (n + 1) =
    (runCycle ports irq start n).executeMachineCycle ports (irq n) := rfl

structure EnableInv (s : Sys σ) : Prop where
  inCycle : s.InCycle
  pending : s.cpu.eiPending = true → s.cpu.mc = 0
  enabled : s.cpu.iff = true → s.cpu.inte = true

theorem enableInv_step {irq : Bool} {s : Sys σ} (h : s.EnableInv)
    (hdi : s.Fetches irq opcodeDi → ¬s.Latched irq) :
    (s.executeMachineCycle ports irq).EnableInv := by
  have hlatched : s.Latched irq → s.cpu.inte = true := fun hl =>
    (latched_of_enabled hl).elim h.enabled id
  refine ⟨inCycle_executeMachineCycle ports irq s, ?_, ?_⟩
  · intro hpending
    by_cases hmc : s.cpu.mc = 0
    · by_cases hacc : s.Accepts irq
      · rw [(accepts_step ports hacc).2.2] at hpending
        contradiction
      · have hfetch : s.Fetches irq s.opcode := ⟨hmc, hacc, rfl⟩
        rw [(fetches_step ports hfetch).2.2.2, decide_eq_true_eq] at hpending
        exact mc_eq_zero_of_fetches ports hfetch (hpending ▸ rfl)
    · rw [(continues_step ports hmc h.inCycle).2.2] at hpending
      exact absurd (h.pending hpending) hmc
  · intro hiff
    by_cases hmc : s.cpu.mc = 0
    · by_cases hacc : s.Accepts irq
      · rw [(accepts_step ports hacc).1] at hiff
        contradiction
      · have hfetch : s.Fetches irq s.opcode := ⟨hmc, hacc, rfl⟩
        obtain ⟨-, hlatch, hinte, -⟩ := fetches_step ports hfetch
        have hl := hlatch.mp hiff
        rw [hinte]
        split
        · rfl
        · rw [if_neg]
          · exact hlatched hl
          · intro hop
            exact hdi ⟨hmc, hacc, hop⟩ hl
    · obtain ⟨hlatch, hinte, -⟩ := continues_step ports hmc h.inCycle
      rw [hinte]
      exact hlatched (hlatch.mp hiff)

theorem enableInv_run (hstart : start.EnableInv) (h : NoDiWhileLatched ports irq start) (n : Nat) :
    (runCycle ports irq start n).EnableInv :=
  Runs.after_invariant EnableInv hstart (fun n hn => enableInv_step ports hn (h n)) n

theorem not_accepts_after_ei {m : Nat}
    (h : (runCycle ports irq start m).Fetches (irq m) opcodeEi) :
    (runCycle ports irq start (m + 1)).cpu.mc = 0 ∧
      ¬(runCycle ports irq start (m + 1)).Accepts (irq (m + 1)) := by
  obtain ⟨-, -, -, hpending⟩ := fetches_step ports h
  refine ⟨mc_eq_zero_of_fetches ports h rfl, ?_⟩
  rintro ⟨-, -, hnot⟩
  rw [runCycle_succ, hpending] at hnot
  exact absurd hnot (by decide)

theorem exists_instruction {a n : Nat} (han : a < n)
    (ha : (runCycle ports irq start a).cpu.mc = 0)
    (hn : (runCycle ports irq start n).cpu.mc = 0) :
    ∃ c, IsInstruction ports irq start a c ∧ c ≤ n := by
  have hex : ∃ c, a < c ∧ (runCycle ports irq start c).cpu.mc = 0 := ⟨n, han, hn⟩
  refine ⟨Nat.find hex, ⟨(Nat.find_spec hex).1, ha, (Nat.find_spec hex).2, ?_⟩,
    Nat.find_min' hex ⟨han, hn⟩⟩
  intro k hak hkc hk
  exact Nat.find_min hex hkc ⟨hak, hk⟩

theorem exists_ei_of_accepts {m n : Nat} (hinv : ∀ k, (runCycle ports irq start k).EnableInv)
    (hmn : m ≤ n) (hinte : (runCycle ports irq start m).cpu.inte = false)
    (hacc : (runCycle ports irq start n).Accepts (irq n)) :
    ∃ e, m ≤ e ∧ e < n ∧ (runCycle ports irq start e).Fetches (irq e) opcodeEi := by
  by_contra hnone
  have hoff : ∀ k, m ≤ k → k < n → (runCycle ports irq start k).cpu.inte = false →
      (runCycle ports irq start (k + 1)).cpu.inte = false := by
    intro k hmk hkn hoff
    by_cases hmc : (runCycle ports irq start k).cpu.mc = 0
    · by_cases hk : (runCycle ports irq start k).Accepts (irq k)
      · exact (accepts_step ports hk).2.1
      · have hfetch : (runCycle ports irq start k).Fetches (irq k) _ := ⟨hmc, hk, rfl⟩
        rw [runCycle_succ, (fetches_step ports hfetch).2.2.1, if_neg]
        · split
          · rfl
          · exact hoff
        · intro hop
          exact hnone ⟨k, hmk, hkn, hmc, hk, hop⟩
    · rw [runCycle_succ, (continues_step ports hmc (hinv k).inCycle).2.1]
      exact hoff
  have hn : (runCycle ports irq start n).cpu.inte = false :=
    Runs.after_invariant_from (fun s : Sys σ => s.cpu.inte = false) hinte hmn hoff
  rcases latched_of_enabled hacc.2.1 with hiff | hon
  · rw [(hinv n).enabled hiff] at hn
    contradiction
  · rw [hon] at hn
    contradiction

theorem enableInv_ofReset (mem : Memory) (io : σ) : (ofReset mem io).EnableInv :=
  ⟨show 0 < mCycles 0 by decide, fun _ => rfl, fun h => absurd h Bool.false_ne_true⟩

theorem accepts_after_di {m : Nat} (h : (runCycle ports irq start m).Fetches (irq m) opcodeDi)
    (hl : (runCycle ports irq start m).Latched (irq m)) :
    (runCycle ports irq start (m + 1)).Accepts (irq (m + 1)) ∧
      (runCycle ports irq start (m + 1)).cpu.inte = false := by
  obtain ⟨-, hiff, hinte, hpending⟩ := fetches_step ports h
  refine ⟨⟨mc_eq_zero_of_fetches ports h rfl, ?_, ?_⟩, ?_⟩
  · change (_ || _) = true
    rw [Bool.or_eq_true]
    exact Or.inl (hiff.mpr hl)
  · exact hpending.trans (by decide)
  · rw [runCycle_succ, hinte, if_neg (by decide), if_pos rfl]

end Runs

/--
From a reset, interrupts are accepted as they should exactly in the runs that
never fetch `DI` while a request is latched.
-/
theorem acceptsOnlyEnabled_iff (ports : PortFuncs σ) (irq : Nat → Bool) (mem : Memory) (io : σ) :
    AcceptsOnlyEnabled ports irq (ofReset mem io) ↔
      NoDiWhileLatched ports irq (ofReset mem io) := by
  constructor
  · intro h m hfetch hl
    obtain ⟨hacc, hoff⟩ := accepts_after_di ports irq _ hfetch hl
    rw [(h (m + 1) hacc).1] at hoff
    contradiction
  · intro h n hacc
    have hinv := enableInv_run ports irq _ (enableInv_ofReset mem io) h
    refine ⟨?_, ?_, ?_⟩
    · exact (latched_of_enabled hacc.2.1).elim (hinv n).enabled id
    · rintro m ⟨hmn, -, -, hbetween⟩ hei
      obtain ⟨hmc, hnot⟩ := not_accepts_after_ei ports irq _ hei
      rcases Nat.lt_or_eq_of_le hmn with hlt | heq
      · exact absurd hmc (hbetween (m + 1) (Nat.lt_succ_self m) hlt)
      · exact absurd hacc (heq ▸ hnot)
    · intro m hmn hdi
      have hoff : (runCycle ports irq (ofReset mem io) (m + 1)).cpu.inte = false := by
        rw [runCycle_succ, (fetches_step ports hdi).2.2.1, if_neg (by decide), if_pos rfl]
      obtain ⟨e, hme, hen, hei⟩ := exists_ei_of_accepts ports irq _ hinv hmn hoff hacc
      obtain ⟨hmc, hnot⟩ := not_accepts_after_ei ports irq _ hei
      have hne : e + 1 ≠ n := by
        rintro rfl
        exact hnot hacc
      have hlt : e + 1 < n := Nat.lt_of_le_of_ne hen hne
      obtain ⟨c, hc, hcn⟩ := exists_instruction ports irq _ hlt hmc hacc.1
      refine ⟨e, e + 1, c, hme, hei, ⟨Nat.lt_succ_self e, hei.1, hmc, ?_⟩, hc, hcn⟩
      intro k hek hke
      omega

/-- The program `EI; DI` with a request in the cycle of `DI`. -/
theorem di_with_latched_request :
    let ports : PortFuncs Unit := ⟨fun _ io => (0, io), fun _ _ io => io⟩
    let ram : Ram := fun i => if i.val = 0 then opcodeEi else if i.val = 1 then opcodeDi else 0
    let start : Sys Unit := ofReset (.ofRam ram) ()
    let irq : Nat → Bool := fun n => n == 1
    (runCycle ports irq start 2).Accepts (irq 2) ∧
      (runCycle ports irq start 2).cpu.inte = false ∧
      ¬AcceptsOnlyEnabled ports irq start := by
  intro ports ram start irq
  have hdi : (runCycle ports irq start 1).Fetches (irq 1) opcodeDi := by
    refine ⟨by decide +kernel, by decide +kernel, by decide +kernel⟩
  obtain ⟨hacc, hoff⟩ := accepts_after_di ports irq start hdi (by decide +kernel)
  refine ⟨hacc, hoff, ?_⟩
  intro h
  rw [(h 2 hacc).1] at hoff
  contradiction

end Sys

end V6Emul
