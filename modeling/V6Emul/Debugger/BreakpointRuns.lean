import V6Emul.Debugger.Collections

/-!
# Breakpoints over runs

Which visits a breakpoint matches, and what a run of visits and requests leaves of
it.  The page that a breakpoint tests comes from the mapping modes alone; the page of
an address also depends on the windows.
-/

namespace V6Emul

/-! ## Pages -/

/-- The bit of `memPages` that stands for the page of a global address. -/
def memPage (globalAddr : Nat) : Nat := globalAddr / ramDiskPageLen

/-- Some window of the RAM mapping is open. -/
def Mapping.ramMode (m : Mapping) : Bool := m.data &&& mappingRamModeMask != 0

/-- The address is in a window of the RAM mapping that is open. -/
def Mapping.InWindow (m : Mapping) (addr : Addr) : Prop :=
  (m.modeRamA ∧ 0xA000 ≤ addr.toNat ∧ addr.toNat < 0xE000) ∨
    (m.modeRam8 ∧ 0x8000 ≤ addr.toNat ∧ addr.toNat < 0xA000) ∨
      (m.modeRamE ∧ 0xE000 ≤ addr.toNat)

instance (m : Mapping) (addr : Addr) : Decidable (m.InWindow addr) := by
  unfold Mapping.InWindow
  infer_instance

def Update.breakpointPage (u : Update) : Nat :=
  if u.mapping.ramMode then u.mapping.pageRam + 1 + 4 * u.ramdiskIdx.toNat else 0

theorem Mapping.ramMode_iff (m : Mapping) :
    m.ramMode ↔ m.modeRamA ∨ m.modeRam8 ∨ m.modeRamE := by
  obtain ⟨data⟩ := m
  revert data
  decide

theorem Mapping.InWindow.ramMode {m : Mapping} {addr : Addr} (h : m.InWindow addr) : m.ramMode := by
  rw [Mapping.ramMode_iff]
  rcases h with h | h | h
  · exact .inl h.1
  · exact .inr (.inl h.1)
  · exact .inr (.inr h.1)

theorem Mapping.enabled_of_ramMode {m : Mapping} (h : m.ramMode) : m.enabled := by
  obtain ⟨data⟩ := m
  revert data
  decide

theorem memPage_add_page (addr : Addr) (page : Nat) :
    memPage (addr.toNat + page * ramDiskPageLen) = page := by
  have hlt := addr.isLt
  have hlen : ramDiskPageLen = 65536 := by decide
  rw [memPage, hlen]
  omega

theorem Update.memPage_getGlobalAddr (u : Update) (addr : Addr) :
    memPage (u.getGlobalAddr addr .ram) =
      if u.mapping.InWindow addr then u.mapping.pageRam + 1 + 4 * u.ramdiskIdx.toNat else 0 := by
  have hzero : memPage addr.toNat = 0 := by
    simpa using memPage_add_page addr 0
  have hstack : (u.mapping.modeStack && AddrSpace.ram == AddrSpace.stack) = false := by simp
  have hwindow : ((u.mapping.modeRamA && 0xA000 ≤ addr.toNat && addr.toNat < 0xE000) ||
      (u.mapping.modeRam8 && 0x8000 ≤ addr.toNat && addr.toNat < 0xA000) ||
      (u.mapping.modeRamE && 0xE000 ≤ addr.toNat)) = decide (u.mapping.InWindow addr) := by
    rw [Bool.eq_iff_iff, decide_eq_true_iff]
    simp [Mapping.InWindow, and_assoc, or_assoc]
  rw [Update.getGlobalAddr, hstack, hwindow]
  by_cases h : u.mapping.InWindow addr
  · have henabled := Mapping.enabled_of_ramMode h.ramMode
    simp only [h, henabled, decide_true, if_true, Bool.not_true, Bool.false_eq_true, if_false]
    rw [memPage_add_page]
    omega
  · simp [h, hzero]

theorem Update.breakpointPage_le (u : Update) : u.breakpointPage ≤ 32 := by
  have hpage := u.mapping.pageRam_lt
  have hidx := u.ramdiskIdx.isLt
  rw [Update.breakpointPage]
  split <;> omega

theorem Update.breakpointPage_eq_iff (u : Update) (addr : Addr) :
    u.breakpointPage = memPage (u.getGlobalAddr addr .ram) ↔
      u.mapping.ramMode = false ∨ u.mapping.InWindow addr := by
  rw [Update.breakpointPage, Update.memPage_getGlobalAddr]
  by_cases hwindow : u.mapping.InWindow addr
  · simp [hwindow, hwindow.ramMode]
  · cases hmode : u.mapping.ramMode with
    | false => simp [hwindow]
    | true => simp [hwindow]

/-! ## Matching visits -/

namespace Breakpoint

def Holds (bp : Breakpoint) (cpu : CpuState) : Prop :=
  bp.cond = .any ∨ bp.cond.compare (bp.operand.read cpu) bp.value

structure Matches (bp : Breakpoint) (status : BreakpointStatus) (cpu : CpuState) (mem : Update) :
    Prop where
  pc : cpu.pc.word = bp.addr
  active : status = .active
  page : bp.memPages.getLsbD mem.breakpointPage
  holds : bp.Holds cpu

theorem bit_and_ne_zero_iff (x : BitVec 64) {n : Nat} (hn : n < 64) :
    BitVec.ofNat 64 (1 <<< n) &&& x ≠ 0 ↔ x.getLsbD n := by
  have hbit : ∀ i, (BitVec.ofNat 64 (1 <<< n) &&& x).getLsbD i = (decide (n = i) && x.getLsbD n) := by
    intro i
    rw [BitVec.getLsbD_and, BitVec.getLsbD_ofNat, Nat.one_shiftLeft, Nat.testBit_two_pow]
    by_cases hin : n = i
    · simp [← hin, hn]
    · simp [hin]
  constructor
  · intro h
    by_contra hclear
    apply h
    apply BitVec.eq_of_getLsbD_eq
    intro i _
    rw [Bool.not_eq_true] at hclear
    rw [hbit, hclear]
    simp
  · intro hset h
    have hn := hbit n
    rw [h, hset] at hn
    simp at hn

theorem checkStatus_iff (bp : Breakpoint) (cpu : CpuState) (mem : Update) :
    bp.checkStatus cpu mem ↔
      bp.status = .active ∧ bp.memPages.getLsbD mem.breakpointPage ∧ bp.Holds cpu := by
  have hbit : (if mem.mapping.data &&& mappingRamModeMask ≠ 0 then
      ((1 <<< (mem.mapping.pageRam + 1 + 4 * mem.ramdiskIdx.toNat) : Nat) : BitVec 64) else 1) =
        BitVec.ofNat 64 (1 <<< mem.breakpointPage) := by
    rw [Update.breakpointPage, Mapping.ramMode]
    by_cases h : mem.mapping.data &&& mappingRamModeMask = 0#8
    · simp [h]
    · simp [h]
  have hpage := Nat.lt_of_le_of_lt mem.breakpointPage_le (by decide : 32 < 64)
  simp only [checkStatus, hbit, bit_and_ne_zero_iff _ hpage, Holds]
  by_cases hactive : bp.status = .active ∧ bp.memPages.getLsbD mem.breakpointPage
  · rw [if_neg (not_not_intro hactive)]
    simp [hactive]
  · rw [if_pos hactive]
    simp only [Bool.false_eq_true, false_iff]
    exact fun h => hactive ⟨h.1, h.2.1⟩

theorem matches_iff {bp : Breakpoint} {status : BreakpointStatus} {cpu : CpuState} {mem : Update} :
    bp.Matches status cpu mem ↔
      cpu.pc.word = bp.addr ∧ { bp with status := status }.checkStatus cpu mem := by
  rw [checkStatus_iff]
  exact ⟨fun h => ⟨h.pc, h.active, h.page, h.holds⟩, fun h => ⟨h.1, h.2.1, h.2.2.1, h.2.2.2⟩⟩

instance (bp : Breakpoint) (status : BreakpointStatus) (cpu : CpuState) (mem : Update) :
    Decidable (bp.Matches status cpu mem) :=
  decidable_of_iff _ matches_iff.symm

/-- What a matching visit leaves of a breakpoint; none if it deletes itself. -/
def visited (bp : Breakpoint) : Option Breakpoint :=
  if bp.autoDel ∧ bp.counter.toNat ≤ 1 then none
  else some { bp with counter := BitVec.ofNat 64 (bp.counter.toNat - 1) }

theorem counter_pred (counter : BitVec 64) :
    (if counter ≠ 0 then counter - 1 else counter) = BitVec.ofNat 64 (counter.toNat - 1) := by
  have hone : (1 : BitVec 64).toNat = 1 := rfl
  have hlt := counter.isLt
  apply BitVec.eq_of_toNat_eq
  rw [BitVec.toNat_ofNat]
  split_ifs with h
  · have hpos : counter.toNat ≠ 0 := fun hzero => h (BitVec.eq_of_toNat_eq hzero)
    rw [BitVec.toNat_sub, hone]
    omega
  · rw [not_not.mp h]
    rfl

theorem counter_pred_eq_zero_iff (counter : BitVec 64) :
    BitVec.ofNat 64 (counter.toNat - 1) = 0 ↔ counter.toNat ≤ 1 := by
  have hlt := counter.isLt
  rw [← BitVec.toNat_inj, BitVec.toNat_ofNat]
  change (counter.toNat - 1) % 2 ^ 64 = 0 ↔ _
  omega

end Breakpoint

namespace Breakpoints

open Breakpoint

def key (addr : Addr) : BitVec 32 := addr.setWidth 32

theorem key_inj {a b : Addr} (h : key a = key b) : a = b := by
  have hnat := congrArg BitVec.toNat h
  rw [key, key, BitVec.toNat_setWidth, BitVec.toNat_setWidth] at hnat
  have ha := a.isLt
  have hb := b.isLt
  apply BitVec.eq_of_toNat_eq
  omega

def find (b : Breakpoints) (addr : Addr) : Option Breakpoint := b.bps.lookup (key addr)

theorem check_of_none {b : Breakpoints} {cpu : CpuState} (mem : Update)
    (h : b.find cpu.pc.word = none) : b.check cpu mem = (false, b) := by
  rw [find, key] at h
  rw [check]
  simp only [h]

theorem check_of_not_checkStatus {b : Breakpoints} {bp : Breakpoint} {cpu : CpuState} {mem : Update}
    (h : b.find cpu.pc.word = some bp) (hfails : ¬ bp.checkStatus cpu mem) :
    b.check cpu mem = (false, b) := by
  rw [find, key] at h
  rw [check]
  simp [h, hfails]

theorem check_of_checkStatus {b : Breakpoints} {bp : Breakpoint} {cpu : CpuState} {mem : Update}
    (h : b.find cpu.pc.word = some bp) (hholds : bp.checkStatus cpu mem) :
    ((b.check cpu mem).1 ↔ bp.counter.toNat ≤ 1) ∧
      ∀ addr, (b.check cpu mem).2.find addr =
        if addr = cpu.pc.word then bp.visited else b.find addr := by
  have hcounted : (if bp.counter ≠ 0 then { bp with counter := bp.counter - 1 } else bp) =
      { bp with counter := BitVec.ofNat 64 (bp.counter.toNat - 1) } := by
    rw [← counter_pred]
    split_ifs <;> rfl
  have hlookup : b.bps.lookup (cpu.pc.word.setWidth 32) = some bp := h
  have hcheck : b.check cpu mem =
      if bp.counter.toNat ≤ 1 ∧ bp.autoDel then
        (true, ⟨b.bps.erase (key cpu.pc.word), b.updates + 1⟩)
      else if bp.counter ≠ 0 then
        (decide (bp.counter.toNat ≤ 1),
          ⟨b.bps.insert (key cpu.pc.word)
            { bp with counter := BitVec.ofNat 64 (bp.counter.toNat - 1) }, b.updates + 1⟩)
      else (decide (bp.counter.toNat ≤ 1), b) := by
    rw [check]
    simp only [hlookup, hholds, hcounted, counter_pred_eq_zero_iff]
    rfl
  have hkey : ∀ addr, addr ≠ cpu.pc.word → key addr ≠ key cpu.pc.word :=
    fun addr hne heq => hne (key_inj heq)
  rw [hcheck]
  split_ifs with hdeleted hchanged
  · refine ⟨by simp [hdeleted.1], fun addr => ?_⟩
    split_ifs with haddr
    · rw [haddr, find, AList.lookup_erase, visited, if_pos hdeleted.symm]
    · rw [find, AList.lookup_erase_ne (hkey addr haddr), find]
  · refine ⟨by simp, fun addr => ?_⟩
    split_ifs with haddr
    · rw [haddr, find, AList.lookup_insert, visited, if_neg fun hd => hdeleted hd.symm]
    · rw [find, AList.lookup_insert_ne (hkey addr haddr), find]
  · refine ⟨by simp, fun addr => ?_⟩
    split_ifs with haddr
    · rw [haddr, h, visited, if_neg fun hd => hdeleted hd.symm, not_not.mp hchanged,
        ← counter_pred, if_neg (not_not_intro rfl), ← not_not.mp hchanged]
    · rfl

/-! ## The page of a breakpoint -/

/-- Breakpoints at an instruction's address stop in the page with this bit. -/
structure StopsOnPage (cpu : CpuState) (mem : Update) (page : Nat) : Prop where
  tests : ∀ bp : Breakpoint, bp.checkStatus cpu mem ↔
    bp.status = .active ∧ bp.memPages.getLsbD page ∧ bp.Holds cpu
  fires : ∀ (b : Breakpoints) (bp : Breakpoint), b.find cpu.pc.word = some bp →
    bp.status = .active → bp.cond = .any → bp.counter = 1 →
      ((b.check cpu mem).1 ↔ bp.memPages.getLsbD page)

theorem stopsOnPage (cpu : CpuState) (mem : Update) : StopsOnPage cpu mem mem.breakpointPage where
  tests bp := bp.checkStatus_iff cpu mem
  fires b bp hbp hactive hany hcounter := by
    have hchecks : bp.checkStatus cpu mem ↔ bp.memPages.getLsbD mem.breakpointPage := by
      rw [checkStatus_iff]
      exact ⟨fun h => h.2.1, fun h => ⟨hactive, h, .inl hany⟩⟩
    rw [← hchecks]
    by_cases h : bp.checkStatus cpu mem
    · rw [(check_of_checkStatus hbp h).1, hcounter]
      simp [h]
    · rw [check_of_not_checkStatus hbp h]
      simp [h]

theorem StopsOnPage.page_unique {cpu : CpuState} {mem : Update} {page page' : Nat}
    (h : StopsOnPage cpu mem page) (h' : StopsOnPage cpu mem page') (hpage : page < 64) :
    page = page' := by
  let bp : Breakpoint :=
    { memPages := BitVec.ofNat 64 (2 ^ page), value := 0, counter := 1, addr := cpu.pc.word
      operand := .a, cond := .any, status := .active, autoDel := false, comment := "" }
  have hbits := (h.tests bp).symm.trans (h'.tests bp)
  have hset : bp.memPages.getLsbD page := by
    simp only [bp, BitVec.getLsbD_ofNat, Nat.testBit_two_pow, hpage, decide_true, Bool.and_self]
  have hset' := (hbits.mp ⟨rfl, hset, .inl rfl⟩).2.1
  simp only [bp, BitVec.getLsbD_ofNat, Nat.testBit_two_pow, Bool.and_eq_true,
    decide_eq_true_eq] at hset'
  exact hset'.2

/--
A breakpoint tests the page that its address resolves to exactly where no window of
the RAM mapping is open and in the windows that are.  Elsewhere the address is in main
RAM and the breakpoint tests the page of the RAM disk.
-/
theorem stopsOnPage_iff (cpu : CpuState) (mem : Update) :
    StopsOnPage cpu mem (memPage (mem.getGlobalAddr cpu.pc.word .ram)) ↔
      mem.mapping.ramMode = false ∨ mem.mapping.InWindow cpu.pc.word := by
  have hlt := Nat.lt_of_le_of_lt mem.breakpointPage_le (by decide : 32 < 64)
  rw [← mem.breakpointPage_eq_iff]
  constructor
  · intro h
    exact (stopsOnPage cpu mem).page_unique h hlt
  · intro h
    exact h ▸ stopsOnPage cpu mem

/-- In main RAM below an open window the page of the RAM disk is tested. -/
theorem breakpoint_misses_main_ram :
    ¬ ∀ (cpu : CpuState) (mem : Update),
      StopsOnPage cpu mem (memPage (mem.getGlobalAddr cpu.pc.word .ram)) := by
  intro h
  have hpage := (stopsOnPage { CpuState.reset with pc := .ofWord 0x0100 }
    ⟨⟨0b00100000#8⟩, 0, .ram⟩).page_unique (h _ _) (by decide)
  revert hpage
  decide

/-! ## Runs -/

def run (b : Breakpoints) (ops : List BreakpointOp) : Breakpoints :=
  ops.foldl (fun b op => (apply op b).2) b

/-- The operation adds, replaces or deletes the breakpoint at an address. -/
def Reconfigures (addr : Addr) : BreakpointOp → Prop
  | .clear => True
  | .add bp => bp.addr = addr
  | .addJson j => ∃ bp, ofFields j = some bp ∧ bp.addr = addr
  | .del a => a = addr
  | .setStatus _ _ => False
  | .check _ _ => False

structure Tally where
  status : BreakpointStatus
  visits : Nat

def Tally.next (bp : Breakpoint) (t : Tally) : BreakpointOp → Tally
  | .setStatus addr status => if addr = bp.addr then { t with status := status } else t
  | .check cpu mem =>
      if bp.Matches t.status cpu mem then { t with visits := t.visits + 1 } else t
  | .clear | .add _ | .addJson _ | .del _ => t

def tally (bp : Breakpoint) (ops : List BreakpointOp) : Tally :=
  ops.foldl (Tally.next bp) ⟨bp.status, 0⟩

/-- The record of a breakpoint with a tally; none once it has deleted itself. -/
def Tally.record (bp : Breakpoint) (t : Tally) : Option Breakpoint :=
  if bp.autoDel ∧ bp.counter.toNat ≤ t.visits then none
  else some { bp with status := t.status, counter := BitVec.ofNat 64 (bp.counter.toNat - t.visits) }

theorem find_setStatus (b : Breakpoints) (addr a : Addr) (status : BreakpointStatus) :
    (b.setStatus addr status).find a =
      if a = addr then (b.find addr).map fun bp => { bp with status := status } else b.find a := by
  rw [setStatus, ← key]
  cases hbp : b.bps.lookup (key addr) with
  | none =>
      have hfind : b.find addr = none := hbp
      split_ifs with ha
      · rw [ha, hfind, Option.map_none]
      · rfl
  | some bp =>
      have hfind : b.find addr = some bp := hbp
      dsimp only
      split_ifs with hsame ha ha
      · rw [ha, hfind, ← hsame]
        rfl
      · rfl
      · rw [ha, hfind, find, AList.lookup_insert, Option.map_some]
      · rw [find, AList.lookup_insert_ne fun heq => ha (key_inj heq), find]

theorem find_add (b : Breakpoints) (bp : Breakpoint) (addr : Addr) :
    (b.add bp).find addr = if addr = bp.addr then some bp else b.find addr := by
  split_ifs with h
  · rw [h]
    exact AList.lookup_insert _
  · exact AList.lookup_insert_ne fun heq => h (key_inj heq)

theorem find_del (b : Breakpoints) (addr a : Addr) :
    (b.del addr).find a = if a = addr then none else b.find a := by
  rw [del, ← key]
  cases hbp : b.bps.lookup (key addr) with
  | none =>
      split_ifs with ha
      · rw [ha]
        exact hbp
      · rfl
  | some bp =>
      split_ifs with ha
      · rw [ha]
        exact AList.lookup_erase _ _
      · exact AList.lookup_erase_ne fun heq => ha (key_inj heq)

theorem find_check_of_ne (b : Breakpoints) (cpu : CpuState) (mem : Update) {addr : Addr}
    (h : addr ≠ cpu.pc.word) : (b.check cpu mem).2.find addr = b.find addr := by
  cases hbp : b.find cpu.pc.word with
  | none => rw [check_of_none mem hbp]
  | some bp =>
      by_cases hholds : bp.checkStatus cpu mem
      · rw [(check_of_checkStatus hbp hholds).2 addr, if_neg h]
      · rw [check_of_not_checkStatus hbp hholds]

/-- What a run leaves of a breakpoint, and what its next visit does. -/
structure Counts (bp : Breakpoint) (t : Tally) (b : Breakpoints) : Prop where
  remains : b.find bp.addr = t.record bp
  stops : ∀ cpu mem, cpu.pc.word = bp.addr →
    ((b.check cpu mem).1 ↔ bp.Matches t.status cpu mem ∧
      if bp.autoDel then bp.counter.toNat = t.visits + 1 else bp.counter.toNat ≤ t.visits + 1)
  removed : ∀ cpu mem, (b.find bp.addr).isSome →
    ((b.check cpu mem).2.find bp.addr = none ↔
      bp.autoDel ∧ cpu.pc.word = bp.addr ∧ (b.check cpu mem).1)
  elsewhere : ∀ cpu mem, ¬ bp.Matches t.status cpu mem →
    (b.check cpu mem).2.find bp.addr = b.find bp.addr
  unmatched : ∀ cpu mem,
    (∀ other, b.find cpu.pc.word = some other → ¬ (other.status = .active ∧
      other.memPages.getLsbD mem.breakpointPage ∧ other.Holds cpu)) →
      b.check cpu mem = (false, b)

theorem Tally.record_eq_none_iff {bp : Breakpoint} {t : Tally} :
    t.record bp = none ↔ bp.autoDel ∧ bp.counter.toNat ≤ t.visits := by
  rw [record]
  split_ifs with h <;> simp [h]

theorem Tally.record_eq_some_iff {bp bp' : Breakpoint} {t : Tally} :
    t.record bp = some bp' ↔
      ¬ (bp.autoDel ∧ bp.counter.toNat ≤ t.visits) ∧
        { bp with
          status := t.status
          counter := BitVec.ofNat 64 (bp.counter.toNat - t.visits) } = bp' := by
  rw [record]
  split_ifs with h
  · simp [h]
  · rw [Option.some_inj]
    exact ⟨fun heq => ⟨h, heq⟩, fun heq => heq.2⟩

theorem toNat_counter_sub (counter : BitVec 64) (n : Nat) :
    (BitVec.ofNat 64 (counter.toNat - n)).toNat = counter.toNat - n := by
  have hlt := counter.isLt
  rw [BitVec.toNat_ofNat, Nat.mod_eq_of_lt (by omega)]

theorem Tally.visited_record {bp bp' : Breakpoint} {t : Tally} (hcounter : bp.counter ≠ 0)
    (h : t.record bp = some bp') :
    bp'.visited = Tally.record bp { t with visits := t.visits + 1 } := by
  have hpos : bp.counter.toNat ≠ 0 := fun hzero => hcounter (BitVec.eq_of_toNat_eq hzero)
  obtain ⟨hkept, rfl⟩ := Tally.record_eq_some_iff.mp h
  have hlast : bp.autoDel ∧ bp.counter.toNat - t.visits ≤ 1 ↔
      bp.autoDel ∧ bp.counter.toNat ≤ t.visits + 1 :=
    and_congr_right fun _ => by omega
  rw [visited, record]
  simp only [toNat_counter_sub, hlast, Nat.sub_sub]

theorem matches_record {bp bp' : Breakpoint} {t : Tally} (h : t.record bp = some bp')
    {cpu : CpuState} (hpc : cpu.pc.word = bp.addr) (mem : Update) :
    bp'.checkStatus cpu mem ↔ bp.Matches t.status cpu mem := by
  obtain ⟨-, rfl⟩ := Tally.record_eq_some_iff.mp h
  rw [matches_iff, and_iff_right hpc, checkStatus_iff, checkStatus_iff]
  rfl

theorem apply_find {bp : Breakpoint} (hcounter : bp.counter ≠ 0) {b : Breakpoints} {t : Tally}
    (h : b.find bp.addr = t.record bp) {op : BreakpointOp} (hop : ¬ Reconfigures bp.addr op) :
    (apply op b).2.find bp.addr = (t.next bp op).record bp := by
  cases op with
  | clear => exact absurd trivial hop
  | setStatus addr status =>
      rw [Tally.next]
      change (b.setStatus addr status).find bp.addr = _
      rw [find_setStatus]
      by_cases haddr : addr = bp.addr
      · rw [if_pos haddr.symm, if_pos haddr, haddr, h, Tally.record, Tally.record]
        split_ifs <;> rfl
      · rw [if_neg fun heq => haddr heq.symm, if_neg haddr, h]
  | add new =>
      rw [Tally.next, ← h]
      exact (find_add b new bp.addr).trans (if_neg fun heq => hop heq.symm)
  | addJson j =>
      rw [Tally.next, ← h]
      change (b.addJson j).2.find bp.addr = _
      rw [addJson]
      cases hj : ofFields j with
      | none => rfl
      | some new =>
          have haddr : bp.addr ≠ new.addr := fun heq => hop ⟨new, hj, heq.symm⟩
          exact AList.lookup_insert_ne fun heq => haddr (key_inj heq)
  | del addr =>
      rw [Tally.next, ← h]
      exact (find_del b addr bp.addr).trans (if_neg fun heq => hop heq.symm)
  | check cpu mem =>
      rw [Tally.next]
      change (b.check cpu mem).2.find bp.addr = _
      by_cases hpc : cpu.pc.word = bp.addr
      · cases hrecord : t.record bp with
        | none =>
            have hgone : b.find cpu.pc.word = none := by rw [hpc, h, hrecord]
            rw [check_of_none mem hgone, h, hrecord]
            symm
            rw [Tally.record_eq_none_iff] at hrecord ⊢
            split_ifs
            · exact ⟨hrecord.1, Nat.le_succ_of_le hrecord.2⟩
            · exact hrecord
        | some bp' =>
            have hfind : b.find cpu.pc.word = some bp' := by rw [hpc, h, hrecord]
            by_cases hmatches : bp.Matches t.status cpu mem
            · have hholds := (matches_record hrecord hpc mem).mpr hmatches
              rw [(check_of_checkStatus hfind hholds).2, if_pos hpc.symm, if_pos hmatches]
              exact Tally.visited_record hcounter hrecord
            · have hfails := mt (matches_record hrecord hpc mem).mp hmatches
              rw [check_of_not_checkStatus hfind hfails, if_neg hmatches, h]
      · rw [find_check_of_ne b cpu mem fun heq => hpc heq.symm, if_neg fun hm => hpc hm.pc, h]

theorem run_find {bp : Breakpoint} (hcounter : bp.counter ≠ 0) {ops : List BreakpointOp}
    (hops : ∀ op ∈ ops, ¬ Reconfigures bp.addr op) {b : Breakpoints} {t : Tally}
    (h : b.find bp.addr = t.record bp) :
    (b.run ops).find bp.addr = (ops.foldl (Tally.next bp) t).record bp := by
  induction ops generalizing b t with
  | nil => exact h
  | cons op ops ih =>
      have hstep := apply_find hcounter h (hops op List.mem_cons_self)
      exact ih (fun op hop => hops op (List.mem_cons_of_mem _ hop)) hstep

theorem counts_of_find {bp : Breakpoint} {b : Breakpoints} {t : Tally}
    (h : b.find bp.addr = t.record bp) : Counts bp t b where
  remains := h
  stops cpu mem hpc := by
    cases hrecord : t.record bp with
    | none =>
        have hgone : b.find cpu.pc.word = none := by rw [hpc, h, hrecord]
        have hlast := Tally.record_eq_none_iff.mp hrecord
        rw [check_of_none mem hgone, if_pos hlast.1]
        constructor
        · intro hfalse
          cases hfalse
        · intro hstop
          omega
    | some bp' =>
        have hfind : b.find cpu.pc.word = some bp' := by rw [hpc, h, hrecord]
        rw [← matches_record hrecord hpc mem]
        by_cases hholds : bp'.checkStatus cpu mem
        · rw [(check_of_checkStatus hfind hholds).1, and_iff_right hholds]
          obtain ⟨hkept, rfl⟩ := Tally.record_eq_some_iff.mp hrecord
          rw [toNat_counter_sub]
          split_ifs with hdel
          · have hlt : ¬ bp.counter.toNat ≤ t.visits := fun hle => hkept ⟨hdel, hle⟩
            omega
          · omega
        · rw [check_of_not_checkStatus hfind hholds]
          simp [hholds]
  removed cpu mem hsome := by
    obtain ⟨bp', hbp'⟩ := Option.isSome_iff_exists.mp hsome
    by_cases hpc : cpu.pc.word = bp.addr
    · have hfind : b.find cpu.pc.word = some bp' := by rw [hpc, hbp']
      have hrecord : t.record bp = some bp' := by rw [← h, hbp']
      by_cases hholds : bp'.checkStatus cpu mem
      · obtain ⟨-, hfields⟩ := Tally.record_eq_some_iff.mp hrecord
        have hdel : bp'.autoDel = bp.autoDel := by rw [← hfields]
        rw [(check_of_checkStatus hfind hholds).2, if_pos hpc.symm, visited, hdel,
          (check_of_checkStatus hfind hholds).1, and_iff_right hpc]
        simp
      · rw [check_of_not_checkStatus hfind hholds, hbp']
        simp
    · rw [find_check_of_ne b cpu mem fun heq => hpc heq.symm, hbp']
      simp [hpc]
  elsewhere cpu mem hunmatched := by
    by_cases hpc : cpu.pc.word = bp.addr
    · cases hrecord : t.record bp with
      | none =>
          have hgone : b.find cpu.pc.word = none := by rw [hpc, h, hrecord]
          rw [check_of_none mem hgone]
      | some bp' =>
          have hfind : b.find cpu.pc.word = some bp' := by rw [hpc, h, hrecord]
          have hfails := mt (matches_record hrecord hpc mem).mp hunmatched
          rw [check_of_not_checkStatus hfind hfails]
    · exact find_check_of_ne b cpu mem fun heq => hpc heq.symm
  unmatched cpu mem hothers := by
    cases hother : b.find cpu.pc.word with
    | none => exact check_of_none mem hother
    | some other =>
        have hfails := mt (checkStatus_iff other cpu mem).mp (hothers other hother)
        exact check_of_not_checkStatus hother hfails

/--
A breakpoint that stays configured counts its matching visits and nothing else.  It
stops at the last one it counts and at every one after it, unless it deletes itself
there.
-/
theorem run_counts {bp : Breakpoint} (hcounter : bp.counter ≠ 0) (b : Breakpoints)
    {ops : List BreakpointOp} (hops : ∀ op ∈ ops, ¬ Reconfigures bp.addr op) :
    Counts bp (tally bp ops) ((b.add bp).run ops) := by
  apply counts_of_find
  apply run_find hcounter hops
  have hpos : bp.counter.toNat ≠ 0 := fun hzero => hcounter (BitVec.eq_of_toNat_eq hzero)
  have hfirst : (⟨bp.status, 0⟩ : Tally).record bp = some bp := by
    rw [Tally.record_eq_some_iff, Nat.sub_zero, BitVec.ofNat_toNat, BitVec.setWidth_eq]
    exact ⟨fun h => hpos (Nat.le_zero.mp h.2), rfl⟩
  rw [find_add, if_pos rfl, hfirst]

def untilVisit (addr : Addr) : Breakpoint where
  memPages := 1
  value := 0
  counter := 1
  addr := addr
  operand := .a
  cond := .any
  status := .active
  autoDel := true
  comment := ""

def twoVisits : List BreakpointOp :=
  [.check .reset ⟨⟨0⟩, 0, .ram⟩,
    .check { CpuState.reset with pc := .ofWord 0x100 } ⟨⟨0⟩, 0, .ram⟩,
    .setStatus 0x200 .disabled]

/-- A witness: the next visit stops, and deletes the breakpoint. -/
theorem run_counts_visited :
    let bp := { untilVisit 0x100 with counter := 2 }
    let b := (new.add bp).run twoVisits
    Counts bp ⟨.active, 1⟩ b ∧
      (b.check { CpuState.reset with pc := .ofWord 0x100 } ⟨⟨0⟩, 0, .ram⟩).1 = true := by
  intro bp b
  have hcounts : Counts bp (tally bp twoVisits) b := by
    refine @run_counts bp (by decide) new twoVisits ?_
    simp [twoVisits, Reconfigures]
  have hother : ¬ bp.Matches .active .reset ⟨⟨0⟩, 0, .ram⟩ := by decide
  have hvisit : bp.Matches .active { CpuState.reset with pc := .ofWord 0x100 } ⟨⟨0⟩, 0, .ram⟩ := by
    decide
  have htally : tally bp twoVisits = ⟨.active, 1⟩ := by
    have hstatus : bp.status = .active := rfl
    have haddr : (0x200 : Addr) ≠ bp.addr := by decide
    simp only [tally, twoVisits, List.foldl_cons, List.foldl_nil, hstatus, Tally.next,
      if_neg hother, if_pos hvisit, if_neg haddr]
  rw [htally] at hcounts
  refine ⟨hcounts, (hcounts.stops _ _ (by decide)).mpr ?_⟩
  exact ⟨hvisit, rfl⟩

/-- A visit to another breakpoint changes the collection. -/
theorem visit_changes_collection :
    ¬ ∀ (b : Breakpoints) (bp : Breakpoint) (cpu : CpuState) (mem : Update),
      b.find bp.addr = some bp → cpu.pc.word ≠ bp.addr → (b.check cpu mem).2 = b := by
  intro h
  have hsame := h ((new.add (untilVisit 0)).add (untilVisit 0x100)) (untilVisit 0x100) .reset
    ⟨⟨0⟩, 0, .ram⟩ (by decide) (by decide)
  have hupdates := congrArg Breakpoints.updates hsame
  revert hupdates
  decide

end Breakpoints

end V6Emul
