import V6Emul.Debugger.TraceHistory

/-!
# Scrolling the disassembly

`GetAddr` moves an address by a number of instructions.  Backward it decodes from the
addresses that can be so many instructions before, but from no more than `maxAttempts` of
them, and takes one that was executed or else the first from which the decoding meets the
address.
-/

namespace V6Emul

namespace Disasm

def cmdBytesMax : Nat := 3

def maxAttempts : Nat := 41

variable (m : Memory) (memRuns : Nat → Nat)

def cmdLen (addr : Int) : Nat := getInstrLen (m.getByte (BitVec.ofInt 16 addr) .ram)

def forward : Nat → Addr → Addr
  | 0, addr => addr
  | n + 1, addr => forward n (addr + BitVec.ofNat 16 (cmdLen m addr.toNat))

/-- Decodes up to a number of instructions while the address is below the target: the address
and the instructions that are left. -/
def scan (target : Int) : Nat → Int → Int × Nat
  | 0, addr => (addr, 0)
  | n + 1, addr => if addr < target then scan target n (addr + cmdLen m addr) else (addr, n + 1)

def possibleStarts (target : Int) (instructions : Nat) : Nat → Int → List Addr
  | 0, _ => []
  | attempts + 1, start =>
      (if scan m target instructions start = (target, 0) then [BitVec.ofInt 16 start] else []) ++
        if target < start + 1 + instructions then []
        else possibleStarts target instructions attempts (start + 1)

def tried (instructions : Nat) (addr : Addr) : List Addr :=
  possibleStarts m addr.toNat instructions maxAttempts (addr.toNat - instructions * cmdBytesMax)

def best : List Addr → Option Addr
  | [] => none
  | first :: rest =>
      some (((first :: rest).find? fun start => 0 < memRuns start.toNat).getD first)

def backward (instructions : Nat) (addr : Addr) : Addr :=
  (best memRuns (tried m instructions addr)).getD (addr - BitVec.ofNat 16 instructions)

def getAddr (addr : Addr) (instructionOffset : Int) : Addr :=
  if 0 < instructionOffset then forward m instructionOffset.natAbs addr
  else if instructionOffset < 0 then backward m memRuns instructionOffset.natAbs addr
  else addr

/-! ## What scrolling is for -/

def decode : Nat → Nat → Nat
  | 0, start => start
  | n + 1, start => decode n (start + cmdLen m start)

structure IsStart (n : Nat) (addr : Addr) (start : Nat) : Prop where
  lower : addr.toNat ≤ start + 3 * n
  upper : start + n ≤ addr.toNat
  decode : decode m n start = addr.toNat

/-- If there is a start, scrolling back comes to one, and forward again to the address. -/
def ScrollsBack (n : Nat) (addr : Addr) : Prop :=
  (∃ start, IsStart m n addr start) →
    IsStart m n addr (getAddr m memRuns addr (-n)).toNat ∧
      getAddr m memRuns (getAddr m memRuns addr (-n)) n = addr

/-- If there is a start, there is one among those that are tried, or it is where the instructions
are all of one byte. -/
def Found (n : Nat) (addr : Addr) : Prop :=
  (∃ start, IsStart m n addr start) →
    (∃ start, IsStart m n addr start ∧ start + 3 * n < addr.toNat + maxAttempts) ∨
      IsStart m n addr (addr.toNat - n)

/-! ## Decoding -/

variable {m memRuns} {n : Nat} {addr : Addr}

theorem cmdLen_range (a : Int) : 1 ≤ cmdLen m a ∧ cmdLen m a ≤ 3 := by
  have hmem := Executed.getInstrLen_mem (m.getByte (BitVec.ofInt 16 a) .ram)
  simp only [List.mem_cons, List.not_mem_nil, or_false] at hmem
  unfold cmdLen
  omega

theorem decode_range (n start : Nat) :
    start + n ≤ decode m n start ∧ decode m n start ≤ start + 3 * n := by
  induction n generalizing start with
  | zero => exact ⟨Nat.le_refl start, Nat.le_refl start⟩
  | succ n ih =>
      have hlen := cmdLen_range (m := m) start
      have hrest := ih (start + cmdLen m start)
      rw [decode]
      omega

theorem isStart_iff {start : Nat} : IsStart m n addr start ↔ decode m n start = addr.toNat := by
  constructor
  · exact IsStart.decode
  · intro h
    have hrange := decode_range (m := m) n start
    exact ⟨by omega, by omega, h⟩

theorem scan_eq_iff {n start target : Nat} :
    scan m target n start = ((target : Int), 0) ↔ decode m n start = target := by
  induction n generalizing start with
  | zero =>
      rw [scan, decode, Prod.mk.injEq]
      omega
  | succ n ih =>
      have hrange := decode_range (m := m) (n + 1) start
      have hnext : (start : Int) + cmdLen m start = ((start + cmdLen m start : Nat) : Int) := by
        push_cast
        rfl
      rw [scan, decode]
      split
      · rw [hnext]
        exact ih
      · next hge =>
          rw [decode] at hrange
          constructor
          · intro h
            exact absurd (congrArg Prod.snd h) (Nat.succ_ne_zero n)
          · intro h
            omega

theorem forward_eq {start : Addr} (h : decode m n start.toNat < 2 ^ 16) :
    (forward m n start).toNat = decode m n start.toNat := by
  induction n generalizing start with
  | zero => rfl
  | succ n ih =>
      have hrange := decode_range (m := m) n (start.toNat + cmdLen m start.toNat)
      rw [decode] at h ⊢
      have hnext : (start + BitVec.ofNat 16 (cmdLen m start.toNat)).toNat =
          start.toNat + cmdLen m start.toNat := by
        rw [BitVec.toNat_add, BitVec.toNat_ofNat]
        omega
      rw [forward, ih (by rwa [hnext]), hnext]

/-! ## The starts that are tried -/

theorem mem_possibleStarts {attempts start target : Nat} (h : start + n ≤ target) (found : Addr) :
    found ∈ possibleStarts m target n attempts start ↔
      ∃ s, start ≤ s ∧ s < start + attempts ∧ decode m n s = target ∧
        found = BitVec.ofNat 16 s := by
  induction attempts generalizing start with
  | zero =>
      constructor
      · intro hmem
        exact absurd hmem List.not_mem_nil
      · rintro ⟨s, hle, hlt, -, -⟩
        omega
  | succ attempts ih =>
      have hhere : found ∈ (if scan m target n start = ((target : Int), 0) then
            [BitVec.ofInt 16 start] else []) ↔
          decode m n start = target ∧ found = BitVec.ofNat 16 start := by
        split
        · next hscan =>
            rw [List.mem_singleton, BitVec.ofInt_natCast]
            exact (and_iff_right (scan_eq_iff.mp hscan)).symm
        · next hscan =>
            constructor
            · intro hmem
              exact absurd hmem List.not_mem_nil
            · rintro ⟨hdecode, -⟩
              exact absurd (scan_eq_iff.mpr hdecode) hscan
      rw [possibleStarts, List.mem_append, hhere]
      by_cases hlast : (target : Int) < start + 1 + n
      · rw [if_pos hlast]
        constructor
        · rintro (⟨hdecode, hfound⟩ | hmem)
          · exact ⟨start, Nat.le_refl start, by omega, hdecode, hfound⟩
          · exact absurd hmem List.not_mem_nil
        · rintro ⟨s, hle, -, hdecode, hfound⟩
          have hrange := decode_range (m := m) n s
          have hsame : s = start := by
            omega
          exact Or.inl (hsame ▸ ⟨hdecode, hfound⟩)
      · rw [if_neg hlast]
        have hnext : (start : Int) + 1 = ((start + 1 : Nat) : Int) := rfl
        rw [hnext, ih (by omega)]
        constructor
        · rintro (⟨hdecode, hfound⟩ | ⟨s, hle, hlt, hdecode, hfound⟩)
          · exact ⟨start, Nat.le_refl start, by omega, hdecode, hfound⟩
          · exact ⟨s, by omega, by omega, hdecode, hfound⟩
        · rintro ⟨s, hle, hlt, hdecode, hfound⟩
          rcases Nat.lt_or_eq_of_le hle with hmore | hsame
          · exact Or.inr ⟨s, hmore, by omega, hdecode, hfound⟩
          · exact Or.inl (hsame ▸ ⟨hdecode, hfound⟩)

theorem mem_tried (h : 3 * n ≤ addr.toNat) (found : Addr) :
    found ∈ tried m n addr ↔
      IsStart m n addr found.toNat ∧ found.toNat + 3 * n < addr.toNat + maxAttempts := by
  have haddr := addr.isLt
  have hstart : (addr.toNat : Int) - n * cmdBytesMax = ((addr.toNat - 3 * n : Nat) : Int) := by
    unfold cmdBytesMax
    omega
  rw [tried, hstart, mem_possibleStarts (by omega), isStart_iff]
  constructor
  · rintro ⟨s, hle, hlt, hdecode, rfl⟩
    have hrange := decode_range (m := m) n s
    have hs : (BitVec.ofNat 16 s).toNat = s := by
      rw [BitVec.toNat_ofNat, Nat.mod_eq_of_lt (by omega)]
    rw [hs]
    exact ⟨hdecode, by omega⟩
  · rintro ⟨hdecode, hlt⟩
    have hrange := decode_range (m := m) n found.toNat
    refine ⟨found.toNat, by omega, by omega, hdecode, ?_⟩
    rw [BitVec.ofNat_toNat, BitVec.setWidth_eq]

variable (memRuns) in
theorem best_mem {starts : List Addr} (h : starts ≠ []) :
    ∃ start ∈ starts, best memRuns starts = some start := by
  cases starts with
  | nil => exact absurd rfl h
  | cons first rest =>
      refine ⟨_, ?_, rfl⟩
      cases hfind : (first :: rest).find? fun start => 0 < memRuns start.toNat with
      | none => exact List.mem_cons_self
      | some start => exact List.mem_of_find?_eq_some hfind

variable (memRuns) in
theorem backward_mem (h : tried m n addr ≠ []) : backward m memRuns n addr ∈ tried m n addr := by
  obtain ⟨start, hmem, hbest⟩ := best_mem memRuns h
  rw [backward, hbest]
  exact hmem

theorem backward_nil (h : tried m n addr = []) :
    backward m memRuns n addr = addr - BitVec.ofNat 16 n := by
  rw [backward, h]
  rfl

theorem getAddr_neg (hn : 1 ≤ n) : getAddr m memRuns addr (-n) = backward m memRuns n addr := by
  rw [getAddr, if_neg (by omega), if_pos (by omega), Int.natAbs_neg, Int.natAbs_natCast]

theorem getAddr_start (hn : 1 ≤ n) {start : Addr} (h : IsStart m n addr start.toNat) :
    getAddr m memRuns start n = addr := by
  have hlt : decode m n start.toNat < 2 ^ 16 := h.decode ▸ addr.isLt
  rw [getAddr, if_pos (by omega), Int.natAbs_natCast]
  exact BitVec.eq_of_toNat_eq ((forward_eq hlt).trans h.decode)

theorem scrollsBack_of_isStart (hn : 1 ≤ n)
    (h : IsStart m n addr (backward m memRuns n addr).toNat) : ScrollsBack m memRuns n addr := by
  intro _
  rw [getAddr_neg hn]
  exact ⟨h, getAddr_start hn h⟩

theorem found_of_le_twenty (hn : n ≤ 20) : Found m n addr := by
  rintro ⟨start, hstart⟩
  have hupper := hstart.upper
  refine Or.inl ⟨start, hstart, ?_⟩
  unfold maxAttempts
  omega

theorem scrollsBack_iff (m : Memory) (memRuns : Nat → Nat) {n : Nat} {addr : Addr} (hn : 1 ≤ n)
    (haddr : 3 * n ≤ addr.toNat) : ScrollsBack m memRuns n addr ↔ Found m n addr := by
  have hlast : (addr - BitVec.ofNat 16 n).toNat = addr.toNat - n := by
    have hlt := addr.isLt
    rw [BitVec.toNat_sub, BitVec.toNat_ofNat]
    omega
  by_cases htried : tried m n addr = []
  · have hback : (backward m memRuns n addr).toNat = addr.toNat - n := by
      rw [backward_nil htried, hlast]
    constructor
    · intro hscroll hstart
      have hresult := (hscroll hstart).1
      rw [getAddr_neg hn, hback] at hresult
      exact Or.inr hresult
    · intro hfound hstart
      refine scrollsBack_of_isStart hn ?_ hstart
      rcases hfound hstart with ⟨start, hisStart, hlt⟩ | hisStart
      · -- a start that is tried is in the list
        have hupper := hisStart.upper
        have hsame : (BitVec.ofNat 16 start).toNat = start := by
          have hlt := addr.isLt
          rw [BitVec.toNat_ofNat, Nat.mod_eq_of_lt (by omega)]
        have hmem : BitVec.ofNat 16 start ∈ tried m n addr := by
          rw [mem_tried haddr, hsame]
          exact ⟨hisStart, hlt⟩
        rw [htried] at hmem
        exact absurd hmem List.not_mem_nil
      · rwa [hback]
  · have hmem := (mem_tried haddr _).mp (backward_mem memRuns htried)
    constructor
    · intro _ _
      exact Or.inl ⟨_, hmem⟩
    · intro _
      exact scrollsBack_of_isStart hn hmem.1

/-- A witness: back over three instructions of two or three bytes, and forward again. -/
theorem scrollsBack_iff_three :
    let m : Memory := .ofRam fun i => [0, 0, 0, 0x31, 0x00, 0x20, 0x3E, 0x20, 0xD3, 0x10].getD i.val 0
    IsStart m 3 10 (getAddr m (fun _ => 0) 10 (-3)).toNat ∧
      getAddr m (fun _ => 0) (getAddr m (fun _ => 0) 10 (-3)) 3 = 10 := by
  intro m
  have hstart : IsStart m 3 10 3 := isStart_iff.mpr (by decide +kernel)
  have hiff := @scrollsBack_iff m (fun _ => 0) 3 10 (by decide) (by decide)
  exact hiff.mpr (found_of_le_twenty (by decide)) ⟨3, hstart⟩

/-- Twenty `NOP` around an `MVI B`: the start is the 42nd. -/
theorem twentyOne_not_scrollsBack :
    ¬∀ (m : Memory) (memRuns : Nat → Nat) (n : Nat) (addr : Addr), 1 ≤ n → 3 * n ≤ addr.toNat →
      ScrollsBack m memRuns n addr := by
  intro h
  let m : Memory := .ofRam fun i => if i.val = 50 then 0x06 else 0
  have hscroll := h m (fun _ => 0) 21 63 (by decide) (by decide)
  have hstart : IsStart m 21 63 41 := isStart_iff.mpr (by decide +kernel)
  have htried : tried m 21 63 = [] := by
    decide +kernel
  have hresult := (hscroll ⟨41, hstart⟩).1.decode
  rw [getAddr_neg (by decide), backward_nil htried] at hresult
  exact absurd hresult (by decide +kernel)

end Disasm

end V6Emul
