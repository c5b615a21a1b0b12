import V6Emul.Debugger.TraceHistory

/-!
# Searching the history for callers

A client that feeds the cursor of every answer back goes through the records outside a
range, from the newest to the oldest one.  Each comes with the program counter of the
record that was made right after it.
-/

namespace V6Emul

structure Caller where
  callerPc : Addr
  entrancePc : Addr
  callerCursor : Nat
  deriving DecidableEq

namespace TraceLog

variable {t : TraceLog} {rangeStart rangeEnd : BitVec 32} {livePc : Addr}

/-! ## What the records say -/

def Outside (t : TraceLog) (rangeStart rangeEnd : BitVec 32) (cursor : Nat) : Prop :=
  (t.itemAt cursor).address.toNat < rangeStart.toNat ∨
    rangeEnd.toNat ≤ (t.itemAt cursor).address.toNat

instance (t : TraceLog) (rangeStart rangeEnd : BitVec 32) :
    DecidablePred (t.Outside rangeStart rangeEnd) := fun _ => inferInstanceAs (Decidable (_ ∨ _))

def entrance (t : TraceLog) (livePc : Addr) : Nat → Addr
  | 0 => livePc
  | cursor + 1 => (t.itemAt cursor).address

def callerAt (t : TraceLog) (livePc : Addr) (cursor : Nat) : Caller :=
  ⟨(t.itemAt cursor).address, t.entrance livePc cursor, cursor⟩

def callersFrom (t : TraceLog) (rangeStart rangeEnd : BitVec 32) (livePc : Addr) (cursor n : Nat) :
    List Caller :=
  ((List.range' cursor n).filter fun i => t.Outside rangeStart rangeEnd i).map (t.callerAt livePc)

def callers (t : TraceLog) (rangeStart rangeEnd : BitVec 32) (livePc : Addr) : List Caller :=
  t.callersFrom rangeStart rangeEnd livePc 0 t.historyCount

def answer (t : TraceLog) : Option Caller → CallerResult
  | none => .historyEnd t.historyGeneration
  | some caller =>
      .found t.historyGeneration caller.callerPc caller.entrancePc caller.callerCursor

/-- The answers to a query and to those that continue it, up to the end of the history. -/
inductive Enumerates (t : TraceLog) (rangeStart rangeEnd : BitVec 32) (livePc : Addr) :
    Option (BitVec 64 × Nat) → List Caller → Prop where
  | historyEnd {continues : Option (BitVec 64 × Nat)} {generation : BitVec 64} :
      t.findCaller ⟨rangeStart, rangeEnd, continues⟩ livePc = .ok (.historyEnd generation) →
      Enumerates t rangeStart rangeEnd livePc continues []
  | found {continues : Option (BitVec 64 × Nat)} {generation : BitVec 64} {caller : Caller}
      {rest : List Caller} :
      t.findCaller ⟨rangeStart, rangeEnd, continues⟩ livePc =
        .ok (.found generation caller.callerPc caller.entrancePc caller.callerCursor) →
      Enumerates t rangeStart rangeEnd livePc (some (generation, caller.callerCursor)) rest →
      Enumerates t rangeStart rangeEnd livePc continues (caller :: rest)

/-! ## The loop -/

theorem callersFrom_succ (t : TraceLog) (rangeStart rangeEnd : BitVec 32) (livePc : Addr)
    (cursor n : Nat) : t.callersFrom rangeStart rangeEnd livePc cursor (n + 1) =
      (if t.Outside rangeStart rangeEnd cursor then [t.callerAt livePc cursor] else []) ++
        t.callersFrom rangeStart rangeEnd livePc (cursor + 1) n := by
  rw [callersFrom, List.range'_succ, List.filter_cons]
  by_cases h : t.Outside rangeStart rangeEnd cursor
  · simp [h, callersFrom]
  · simp [h, callersFrom]

theorem scanCaller_eq (t : TraceLog) (rangeStart rangeEnd : BitVec 32) (livePc : Addr)
    (n cursor : Nat) : t.scanCaller rangeStart rangeEnd n cursor (t.entrance livePc cursor) =
      t.answer (t.callersFrom rangeStart rangeEnd livePc cursor n).head? := by
  induction n generalizing cursor with
  | zero => rfl
  | succ n ih =>
      rw [scanCaller, callersFrom_succ]
      by_cases h : t.Outside rangeStart rangeEnd cursor
      · rw [if_pos h, if_pos (show _ ∨ _ from h)]
        rfl
      · rw [if_neg h, if_neg (show ¬ (_ ∨ _) from h), List.nil_append]
        exact ih (cursor + 1)

/-! ## Queries -/

theorem findCaller_first (hlt : rangeStart.toNat < rangeEnd.toNat)
    (hle : rangeEnd.toNat ≤ 0x10000) : t.findCaller ⟨rangeStart, rangeEnd, none⟩ livePc =
      .ok (t.answer (t.callers rangeStart rangeEnd livePc).head?) := by
  rw [findCaller, if_neg (by dsimp only; omega), callers, ← scanCaller_eq]
  rfl

theorem findCaller_next (hlt : rangeStart.toNat < rangeEnd.toNat)
    (hle : rangeEnd.toNat ≤ 0x10000) {cursor : Nat} (hcursor : cursor < t.historyCount) :
    t.findCaller ⟨rangeStart, rangeEnd, some (t.historyGeneration, cursor)⟩ livePc =
      .ok (t.answer (t.callersFrom rangeStart rangeEnd livePc (cursor + 1)
        (t.historyCount - (cursor + 1))).head?) := by
  rw [findCaller, if_neg (by dsimp only; omega), ← scanCaller_eq]
  dsimp only
  rw [if_neg (not_not_intro rfl), if_neg (Nat.not_le.mpr hcursor)]
  rfl

/-- A query whose answer is the first of these callers enumerates all of them; the induction is
on the number of records that are left. -/
theorem enumerates_callersFrom (hlt : rangeStart.toNat < rangeEnd.toNat)
    (hle : rangeEnd.toNat ≤ 0x10000) {n cursor : Nat} (hn : cursor + n = t.historyCount)
    {continues : Option (BitVec 64 × Nat)}
    (h : t.findCaller ⟨rangeStart, rangeEnd, continues⟩ livePc =
      .ok (t.answer (t.callersFrom rangeStart rangeEnd livePc cursor n).head?)) :
    Enumerates t rangeStart rangeEnd livePc continues
      (t.callersFrom rangeStart rangeEnd livePc cursor n) := by
  induction n generalizing cursor continues with
  | zero => exact .historyEnd h
  | succ n ih =>
      have hnext : cursor + 1 + n = t.historyCount := by omega
      rw [callersFrom_succ] at h ⊢
      by_cases houtside : t.Outside rangeStart rangeEnd cursor
      · rw [if_pos houtside] at h ⊢
        refine .found h (ih hnext ?_)
        have hcursor : cursor < t.historyCount := by omega
        have hleft : t.historyCount - (cursor + 1) = n := by omega
        exact hleft ▸ findCaller_next hlt hle hcursor
      · rw [if_neg houtside, List.nil_append] at h ⊢
        exact ih hnext h

/-! ## Histories -/

/-- The log after any calls, and the records that it keeps, newest first. -/
inductive Logged : TraceLog → List TraceItem → Prop where
  | new : Logged .new []
  | reset {t : TraceLog} {items : List TraceItem} : Logged t items → Logged t.reset []
  | update {t : TraceLog} {items : List TraceItem} (pc : RegPair) (debug : Debug) : Logged t items →
      Logged (t.update pc debug)
        (if t.skips debug then items else (itemOf pc debug :: items).take traceLogSize)
  | createFilter {t : TraceLog} {items : List TraceItem} (texts : TraceTexts)
      (addressPattern instructionPattern : String) : Logged t items →
      Logged (t.createFilter texts addressPattern instructionPattern) items
  | invalidateFilter {t : TraceLog} {items : List TraceItem} : Logged t items →
      Logged t.invalidateFilter items

theorem Logged.retains {items : List TraceItem} (h : Logged t items) : t.Retains items := by
  induction h with
  | new => exact retains_new
  | reset _ _ => exact retains_reset _
  | update pc debug _ ih => exact ih.push pc debug
  | createFilter texts addressPattern instructionPattern _ ih => exact ⟨ih.window, ih.count⟩
  | invalidateFilter _ ih => exact ⟨ih.window, ih.count⟩

/-- What a client learns about a log with these records. -/
structure Searched (t : TraceLog) (items : List TraceItem) (rangeStart rangeEnd : BitVec 32)
    (livePc : Addr) : Prop where
  count : t.historyCount = items.length
  records : ∀ (cursor : Nat) (h : cursor < items.length), t.itemAt cursor = items[cursor]
  first : t.findCaller ⟨rangeStart, rangeEnd, none⟩ livePc =
    .ok (t.answer (t.callers rangeStart rangeEnd livePc).head?)
  enumerates : Enumerates t rangeStart rangeEnd livePc none (t.callers rangeStart rangeEnd livePc)

/--
For every history: the first query answers with the newest record outside the range, or
says that there is none, and the queries that continue it go through all such records,
newest first and each once, to the end of the history.
-/
theorem findCaller_complete {items : List TraceItem} (h : Logged t items)
    (hlt : rangeStart.toNat < rangeEnd.toNat) (hle : rangeEnd.toNat ≤ 0x10000) (livePc : Addr) :
    Searched t items rangeStart rangeEnd livePc := by
  have hfirst : t.findCaller ⟨rangeStart, rangeEnd, none⟩ livePc =
      .ok (t.answer (t.callers rangeStart rangeEnd livePc).head?) := findCaller_first hlt hle
  exact ⟨h.retains.count, fun _ hcursor => h.retains.itemAt hcursor, hfirst,
    enumerates_callersFrom hlt hle (Nat.zero_add _) hfirst⟩

def nopAt (globalAddr : Nat) : Debug := { Debug.empty with instrGlobalAddr := globalAddr }

/-- A witness: of two records the older one lies outside the range. -/
theorem findCaller_complete_called :
    let t := (TraceLog.new.reset.update ⟨0x05, 0x02⟩ (nopAt 0x0205)).update ⟨0, 0⟩ (nopAt 0)
    Searched t [itemOf ⟨0, 0⟩ (nopAt 0), itemOf ⟨0x05, 0x02⟩ (nopAt 0x0205)] 0 0x100 5 ∧
      (t.callers 0 0x100 5).map (fun c => (c.callerPc, c.callerCursor)) = [(0x0205, 1)] := by
  intro t
  have hfirst := Logged.update ⟨0x05, 0x02⟩ (nopAt 0x0205) (Logged.reset Logged.new)
  have hsecond := Logged.update ⟨0, 0⟩ (nopAt 0) hfirst
  exact ⟨findCaller_complete hsecond (by decide) (by decide) 5, by decide +kernel⟩

end TraceLog

end V6Emul
