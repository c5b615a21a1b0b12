import V6Emul.Debugger.TraceLog
import V6Emul.Foundation.Runs

/-!
# The trace log and the executed instructions

The history of a run is the list of its instructions since the last reset, newest
first, in which an HLT that repeats the one before it is left out.  The log holds
the newest part of it as long as the opcode in the newest slot tells such a
repetition: after a reset that slot holds whatever was recorded there before.
-/

namespace V6Emul

structure Executed where
  pc : RegPair
  debug : Debug
  inMemory : debug.instrGlobalAddr < memoryGlobalLen

namespace Executed

def opcode (e : Executed) : Byte := e.debug.instr 0

def address (e : Executed) : Nat := e.debug.instrGlobalAddr

def bytes (e : Executed) : List Byte :=
  [e.debug.instr 0, e.debug.instr 1, e.debug.instr 2].take (getInstrLen e.opcode)

def item (e : Executed) : TraceItem := TraceLog.itemOf e.pc e.debug

def repeats (e : Executed) : Option Executed → Bool
  | none => false
  | some previous =>
      e.opcode == opcodeHlt && previous.opcode == opcodeHlt && e.address == previous.address

def history : List Executed → List Executed
  | [] => []
  | e :: earlier => if e.repeats earlier.head? then history earlier else e :: history earlier

theorem getInstrLen_mem (opcode : Byte) : getInstrLen opcode ∈ [1, 2, 3] := by
  have htable : ∀ len ∈ instrLens, len ∈ [1, 2, 3] := by decide +kernel
  have hsize : instrLens.length = 256 := by decide +kernel
  exact Indices.forall_getD htable 0 (hsize ▸ opcode.isLt)

theorem address_item (e : Executed) : e.item.address = BitVec.ofNat 16 e.address := by
  rw [TraceItem.address]
  exact BitVec.ofInt_natCast 16 e.address

theorem bytes_item (e : Executed) : e.item.bytes = e.bytes := by
  have hlen := getInstrLen_mem e.opcode
  have hpchl : getInstrLen opcodePchl = 1 := by decide
  by_cases hop : e.debug.instr 0 = opcodePchl
  · simp [TraceItem.bytes, bytes, item, TraceLog.itemOf, opcode, hop, hpchl]
  · simp only [List.mem_cons, List.not_mem_nil, or_false] at hlen
    rcases hlen with hone | htwo | hthree
    · simp_all [TraceItem.bytes, bytes, item, TraceLog.itemOf, opcode]
    · simp_all [TraceItem.bytes, bytes, item, TraceLog.itemOf, opcode]
    · simp_all [TraceItem.bytes, bytes, item, TraceLog.itemOf, opcode]

theorem head_history (e : Executed) (earlier : List Executed) :
    ∃ first rest, history (e :: earlier) = first :: rest ∧ first.opcode = e.opcode ∧
      (e.opcode = opcodeHlt → first.address = e.address) := by
  induction earlier generalizing e with
  | nil => exact ⟨e, [], rfl, rfl, fun _ => rfl⟩
  | cons previous earlier ih =>
      rw [history]
      split
      · rename_i hrepeats
        simp only [List.head?_cons, repeats, Bool.and_eq_true, beq_iff_eq] at hrepeats
        obtain ⟨⟨hop, hprevious⟩, haddress⟩ := hrepeats
        obtain ⟨first, rest, hfirst, hopcode, hsame⟩ := ih previous
        refine ⟨first, rest, hfirst, ?_, fun _ => (hsame hprevious).trans haddress.symm⟩
        rw [hopcode, hprevious, hop]
      · exact ⟨e, _, rfl, rfl, fun _ => rfl⟩

end Executed

/-! ## Queries on a list of records -/

namespace TraceLog

def callerFrom (generation : BitVec 64) (rangeStart rangeEnd : BitVec 32) :
    List TraceItem → Nat → Addr → CallerResult
  | [], _, _ => .historyEnd generation
  | item :: items, cursor, destination =>
      let pc := item.address
      if pc.toNat < rangeStart.toNat ∨ rangeEnd.toNat ≤ pc.toNat then
        .found generation pc destination cursor
      else callerFrom generation rangeStart rangeEnd items (cursor + 1) pc

/-- The answer of `FindCaller` if its records are those of the list, by position. -/
def callerIn (items : List TraceItem) (generation : BitVec 64) (query : CallerQuery)
    (livePc : Addr) : Except String CallerResult :=
  if query.rangeEnd.toNat ≤ query.rangeStart.toNat ∨ 0x10000 < query.rangeEnd.toNat then
    .error "invalid history range"
  else
    match query.continues with
    | none => .ok (callerFrom generation query.rangeStart query.rangeEnd items 0 livePc)
    | some (expected, cursor) =>
        if expected ≠ generation then .error "stale history generation"
        else
          match items[cursor]? with
          | none => .error "invalid history cursor"
          | some item =>
              .ok (callerFrom generation query.rangeStart query.rangeEnd (items.drop (cursor + 1))
                (cursor + 1) item.address)

def successorIn (items : List TraceItem) (generation expected : BitVec 64) (cursor : Nat) :
    Except String Addr :=
  if expected ≠ generation then .error "stale history generation"
  else
    match items[cursor]? with
    | none => .error "invalid history cursor"
    | some item => .ok (BitVec.ofInt 16 (item.globalAddr + getInstrLen item.opcode))

structure Retains (t : TraceLog) (items : List TraceItem) : Prop where
  window : Ring.Window t.log traceLogSize t.logIdx items
  count : t.historyCount = items.length

structure Records (t : TraceLog) (items : List TraceItem) (total : Nat) : Prop where
  window : Ring.Window t.log traceLogSize t.logIdx items
  count : t.historyCount = items.length
  length : items.length = min total traceLogSize
  logIdx_lt : t.logIdx < traceLogSize
  index : (t.logIdx + total) % traceLogSize = 0
  -- slot 0 is the last one to be filled
  marker : total < traceLogSize → (t.log 0).globalAddr = emptyItem
  full : ∀ item ∈ items, item.globalAddr ≠ emptyItem

variable {t : TraceLog} {items : List TraceItem} {total : Nat}

theorem Records.retains (h : t.Records items total) : t.Retains items := ⟨h.window, h.count⟩

theorem Retains.itemAt (h : t.Retains items) {cursor : Nat} (hcursor : cursor < items.length) :
    t.itemAt cursor = items[cursor] :=
  h.window.get cursor hcursor

theorem scanLog_eq {n index : Nat} {items : List TraceItem} (hlen : items.length ≤ n)
    (hget : ∀ i (h : i < items.length), t.log ((index + i) % traceLogSize) = items[i])
    (hfull : ∀ item ∈ items, item.globalAddr ≠ emptyItem)
    (hend : items.length < n →
      (t.log ((index + items.length) % traceLogSize)).globalAddr = emptyItem) :
    t.scanLog n index = items := by
  induction items generalizing n index with
  | nil =>
      cases n with
      | zero => rfl
      | succ n =>
          have hempty : (t.log (index % traceLogSize)).globalAddr = emptyItem :=
            hend (Nat.succ_pos n)
          simp only [scanLog, if_pos hempty]
  | cons item items ih =>
      cases n with
      | zero => simp at hlen
      | succ n =>
          have hfirst : t.log (index % traceLogSize) = item := hget 0 (Nat.succ_pos _)
          have hitem := hfull item List.mem_cons_self
          simp only [scanLog, hfirst, if_neg hitem]
          congr 1
          refine ih (Nat.le_of_succ_le_succ hlen) (fun i hi => ?_)
            (fun x hx => hfull x (List.mem_cons_of_mem _ hx)) (fun hmore => ?_)
          · have hnext := hget (i + 1) (Nat.succ_lt_succ hi)
            rw [← Nat.add_right_comm, Nat.add_assoc, hnext, List.getElem_cons_succ]
          · have hnext := hend (Nat.succ_lt_succ hmore)
            rwa [List.length_cons, Nat.add_comm items.length 1, ← Nat.add_assoc] at hnext

theorem Records.scanLog (h : t.Records items total) :
    t.scanLog traceLogSize t.logIdx = items := by
  refine scanLog_eq h.window.length_le h.window.get h.full fun hmore => ?_
  have hlen : items.length = total := by
    have hmin := h.length
    omega
  rw [hlen, h.index]
  exact h.marker (hlen ▸ hmore)

theorem Retains.scanCaller (h : t.Retains items) (rangeStart rangeEnd : BitVec 32)
    {n cursor : Nat} (hn : cursor + n = items.length) (destination : Addr) :
    t.scanCaller rangeStart rangeEnd n cursor destination =
      callerFrom t.historyGeneration rangeStart rangeEnd (items.drop cursor) cursor destination := by
  induction n generalizing cursor destination with
  | zero =>
      have hend : items.drop cursor = [] := List.drop_eq_nil_of_le (Nat.le_of_eq hn.symm)
      rw [hend]
      rfl
  | succ n ih =>
      have hcursor : cursor < items.length := by omega
      rw [List.drop_eq_getElem_cons hcursor, TraceLog.scanCaller, callerFrom, h.itemAt hcursor]
      split
      · rfl
      · exact ih (by omega) _

theorem Retains.findCaller (h : t.Retains items) (query : CallerQuery) (livePc : Addr) :
    t.findCaller query livePc = callerIn items t.historyGeneration query livePc := by
  rw [TraceLog.findCaller, callerIn]
  generalize query.continues = continues
  split
  · rfl
  · cases continues with
    | none =>
        have hall := h.scanCaller query.rangeStart query.rangeEnd
          (Nat.zero_add t.historyCount |>.trans h.count) livePc
        rw [List.drop_zero] at hall
        exact congrArg Except.ok hall
    | some continued =>
        obtain ⟨generation, cursor⟩ := continued
        dsimp only
        split
        · rfl
        · by_cases hcursor : cursor < items.length
          · rw [if_neg (by rw [h.count]; omega), List.getElem?_eq_getElem hcursor,
              h.itemAt hcursor, h.scanCaller _ _ (by rw [h.count]; omega)]
          · rw [if_pos (by rw [h.count]; omega), List.getElem?_eq_none (Nat.le_of_not_lt hcursor)]

theorem Retains.callerSuccessor (h : t.Retains items) (expected : BitVec 64) (cursor : Nat) :
    t.callerSuccessor expected cursor = successorIn items t.historyGeneration expected cursor := by
  rw [TraceLog.callerSuccessor, successorIn]
  split
  · rfl
  · by_cases hcursor : cursor < items.length
    · rw [if_neg (by rw [h.count]; omega), List.getElem?_eq_getElem hcursor, h.itemAt hcursor]
    · rw [if_pos (by rw [h.count]; omega), List.getElem?_eq_none (Nat.le_of_not_lt hcursor)]

/-! ## One call -/

theorem retains_new : new.Retains [] :=
  ⟨⟨Nat.zero_le _, fun i hi => absurd hi (Nat.not_lt_zero i)⟩, rfl⟩

theorem retains_reset (t : TraceLog) : t.reset.Retains [] :=
  ⟨⟨Nat.zero_le _, fun i hi => absurd hi (Nat.not_lt_zero i)⟩, rfl⟩

def skips (t : TraceLog) (debug : Debug) : Prop :=
  debug.instr 0 = opcodeHlt ∧ (t.log t.logIdx).opcode = opcodeHlt

instance (t : TraceLog) (debug : Debug) : Decidable (t.skips debug) :=
  inferInstanceAs (Decidable (_ ∧ _))

theorem Retains.push (h : t.Retains items) (pc : RegPair) (debug : Debug) :
    (t.update pc debug).Retains
      (if t.skips debug then items else (itemOf pc debug :: items).take traceLogSize) := by
  have hidx : t.invalidateFilter.logIdx = t.logIdx := rfl
  have hlog : t.invalidateFilter.log = t.log := rfl
  rw [TraceLog.update, updateLogBuffer, hidx, hlog]
  by_cases hskip : t.skips debug
  · rw [if_pos hskip, if_pos (show _ ∧ _ from hskip)]
    exact ⟨h.window, h.count⟩
  · rw [if_neg hskip, if_neg (show ¬ (_ ∧ _) from hskip)]
    constructor
    · dsimp only
      exact h.window.pushFront traceLogSize_pos (itemOf pc debug)
    · change min (t.historyCount + 1) traceLogSize = _
      rw [h.count, List.length_take, List.length_cons, Nat.min_comm]

theorem Retains.update (h : t.Retains items) (pc : RegPair) (debug : Debug) :
    ∃ items', (t.update pc debug).Retains items' ∧ items'.Sublist (itemOf pc debug :: items) := by
  refine ⟨_, h.push pc debug, ?_⟩
  split
  · exact List.sublist_cons_self _ _
  · exact List.take_sublist _ _

theorem historyGeneration_update (t : TraceLog) (pc : RegPair) (debug : Debug) :
    (t.update pc debug).historyGeneration = t.historyGeneration ∨
      (t.update pc debug).historyGeneration = t.historyGeneration + 1 := by
  rw [update, updateLogBuffer]
  split
  · exact .inl rfl
  · exact .inr rfl

theorem itemOf_ne_empty (pc : RegPair) (debug : Debug) :
    (itemOf pc debug).globalAddr ≠ emptyItem := by
  have hnat : (itemOf pc debug).globalAddr = (debug.instrGlobalAddr : Int) := rfl
  rw [hnat, emptyItem]
  omega

def nextIdx (t : TraceLog) : Nat := (t.logIdx + traceLogSize - 1) % traceLogSize

structure Pushed (t : TraceLog) (item : TraceItem) (u : TraceLog) : Prop where
  log : u.log = Function.update t.log t.nextIdx item
  logIdx : u.logIdx = t.nextIdx
  count : u.historyCount = min (t.historyCount + 1) traceLogSize

theorem pushed_update {pc : RegPair} {debug : Debug} (hskip : ¬ t.skips debug) :
    t.Pushed (itemOf pc debug) (t.update pc debug) := by
  have hskip' : ¬ (debug.instr 0 = opcodeHlt ∧
      (t.invalidateFilter.log t.invalidateFilter.logIdx).opcode = opcodeHlt) := hskip
  have hidx : t.invalidateFilter.logIdx = t.logIdx := rfl
  rw [update, updateLogBuffer, if_neg hskip', hidx]
  constructor
  · dsimp only [nextIdx]
    rfl
  · dsimp only [nextIdx]
  · dsimp only
    rfl

theorem Records.push (h : t.Records items total) {item : TraceItem} {u : TraceLog}
    (hitem : item.globalAddr ≠ emptyItem) (hu : t.Pushed item u) :
    u.Records ((item :: items).take traceLogSize) (total + 1) := by
  have hpos := traceLogSize_pos
  have hlen := h.length
  have hindex : (t.nextIdx + (total + 1)) % traceLogSize = 0 := by
    have hsum : t.logIdx + traceLogSize - 1 + (total + 1) = t.logIdx + total + traceLogSize := by
      omega
    rw [nextIdx, Nat.mod_add_mod, hsum, Nat.add_mod_right, h.index]
  constructor
  · rw [hu.log, hu.logIdx]
    exact h.window.pushFront hpos item
  · rw [hu.count, h.count, List.length_take, List.length_cons, Nat.min_comm]
  · rw [List.length_take, List.length_cons]
    omega
  · rw [hu.logIdx]
    exact Nat.mod_lt _ hpos
  · rw [hu.logIdx, hindex]
  · intro hmore
    have hslot : 0 ≠ t.nextIdx := by
      intro hzero
      rw [← hzero, Nat.zero_add, Nat.mod_eq_of_lt hmore] at hindex
      omega
    rw [hu.log, Function.update_of_ne hslot]
    exact h.marker (by omega)
  · intro kept hkept
    rcases List.mem_cons.mp (List.mem_of_mem_take hkept) with rfl | hold
    · exact hitem
    · exact h.full kept hold

theorem Records.skip (h : t.Records items total) (pc : RegPair) {debug : Debug}
    (hskip : t.skips debug) : (t.update pc debug).Records items total := by
  have hskip' : debug.instr 0 = opcodeHlt ∧
      (t.invalidateFilter.log t.invalidateFilter.logIdx).opcode = opcodeHlt := hskip
  rw [update, updateLogBuffer, if_pos hskip']
  exact ⟨h.window, h.count, h.length, h.logIdx_lt, h.index, h.marker, h.full⟩

theorem records_reset (t : TraceLog) : t.reset.Records [] 0 := by
  refine ⟨⟨Nat.zero_le _, fun i hi => absurd hi (Nat.not_lt_zero i)⟩, rfl, rfl, traceLogSize_pos,
    rfl, fun _ => ?_, fun _ hitem => absurd hitem List.not_mem_nil⟩
  simp [reset, invalidateFilter]

theorem records_new : new.Records [] 0 :=
  ⟨⟨Nat.zero_le _, fun i hi => absurd hi (Nat.not_lt_zero i)⟩, rfl, rfl, traceLogSize_pos, rfl,
    fun _ => rfl, fun _ hitem => absurd hitem List.not_mem_nil⟩

theorem scanLog_invalidateFilter (t : TraceLog) (n index : Nat) :
    t.invalidateFilter.scanLog n index = t.scanLog n index := by
  induction n generalizing index with
  | zero => rfl
  | succ n ih =>
      simp only [TraceLog.scanLog, ih]
      rfl

theorem createFilter_all (t : TraceLog) (texts : TraceTexts) :
    (t.createFilter texts "" "").filteredEntries =
      (t.scanLog traceLogSize t.logIdx).map (makeQueryEntry texts) := by
  simp only [createFilter, scanLog_invalidateFilter]
  exact List.filter_eq_self.mpr fun _ _ => rfl

theorem reset_log (t : TraceLog) (slot : Nat) : (t.reset.log slot).opcode = (t.log slot).opcode := by
  by_cases hslot : slot = 0
  · simp [reset, invalidateFilter, hslot]
  · simp [reset, invalidateFilter, hslot]

end TraceLog

/-! ## Runs of updates and resets -/

inductive TraceOp where
  | update (e : Executed)
  | reset

structure Traced where
  log : TraceLog
  executed : List Executed

namespace Traced

open Executed

def start : Traced := ⟨.new, []⟩

def step : TraceOp → Traced → Traced
  | .update e, s => ⟨s.log.update e.pc e.debug, e :: s.executed⟩
  | .reset, s => ⟨s.log.reset, []⟩

def recent (s : Traced) : List Executed := (history s.executed).take traceLogSize

structure Exact (s : Traced) : Prop where
  visits : s.log.scanLog traceLogSize s.log.logIdx = s.recent.map item
  entries : ∀ texts, (s.log.createFilter texts "" "").filteredEntries.map
      (fun entry => (entry.address, entry.bytes)) =
    s.recent.map fun e => (BitVec.ofNat 16 e.address, e.bytes)
  count : s.log.historyCount = min (history s.executed).length traceLogSize
  caller : ∀ query livePc, s.log.findCaller query livePc =
    TraceLog.callerIn (s.recent.map item) s.log.historyGeneration query livePc
  successor : ∀ expected cursor, s.log.callerSuccessor expected cursor =
    TraceLog.successorIn (s.recent.map item) s.log.historyGeneration expected cursor

/-- An HLT that finds an HLT in the newest slot repeats the instruction before it. -/
def TellsRepetition (s : Traced) : TraceOp → Prop
  | .update e => e.opcode = opcodeHlt → (s.log.log s.log.logIdx).opcode = opcodeHlt →
      e.repeats s.executed.head? = true
  | .reset => True

def Recorded (s : Traced) : Prop :=
  s.log.Records (s.recent.map item) (history s.executed).length

theorem Recorded.exact {s : Traced} (h : s.Recorded) : s.Exact where
  visits := h.scanLog
  entries := by
    intro texts
    rw [TraceLog.createFilter_all, h.scanLog, List.map_map, List.map_map]
    refine List.map_congr_left fun e _ => ?_
    exact Prod.ext e.address_item e.bytes_item
  count := by rw [h.count, h.length]
  caller := h.retains.findCaller
  successor := h.retains.callerSuccessor

theorem recent_push (s : Traced) {e : Executed} (hrepeats : e.repeats s.executed.head? = false) :
    (⟨s.log.update e.pc e.debug, e :: s.executed⟩ : Traced).recent.map item =
      (e.item :: s.recent.map item).take traceLogSize := by
  have hpos := traceLogSize_pos
  rw [recent, recent, history, if_neg (by simp [hrepeats]), ← List.map_cons, ← List.map_take]
  congr 1
  obtain ⟨n, hn⟩ := Nat.exists_eq_succ_of_ne_zero (Nat.ne_of_gt hpos)
  rw [hn, List.take_succ_cons, List.take_succ_cons, List.take_take, Nat.min_eq_left (Nat.le_succ n)]

theorem Recorded.newest {s : Traced} (h : s.Recorded) {previous : Executed}
    {earlier : List Executed} (hexecuted : s.executed = previous :: earlier) :
    ∃ first rest, history s.executed = first :: rest ∧
      s.log.log s.log.logIdx = first.item ∧ first.opcode = previous.opcode ∧
        (previous.opcode = opcodeHlt → first.address = previous.address) := by
  obtain ⟨first, rest, hfirst, hop, haddress⟩ := head_history previous earlier
  rw [← hexecuted] at hfirst
  refine ⟨first, rest, hfirst, ?_, hop, haddress⟩
  have hpos := traceLogSize_pos
  have hrecent : 0 < (s.recent.map item).length := by
    rw [recent, hfirst, List.length_map, List.length_take, List.length_cons]
    omega
  have hget := h.window.get 0 hrecent
  rw [Ring.slot, Nat.add_zero, Nat.mod_eq_of_lt h.logIdx_lt] at hget
  rw [hget]
  simp [recent, hfirst]

theorem repeats_iff {e previous : Executed} :
    e.repeats (some previous) = true ↔
      e.opcode = opcodeHlt ∧ previous.opcode = opcodeHlt ∧ e.address = previous.address := by
  simp [repeats, and_assoc]

theorem recorded_step {s : Traced} (h : s.Recorded) {op : TraceOp} (hop : s.TellsRepetition op) :
    (step op s).Recorded := by
  cases op with
  | reset =>
      have hreset := TraceLog.records_reset s.log
      simpa [Recorded, step, recent, history] using hreset
  | update e =>
      by_cases hskip : e.opcode = opcodeHlt ∧ (s.log.log s.log.logIdx).opcode = opcodeHlt
      · have hhistory : history (e :: s.executed) = history s.executed := by
          rw [history, if_pos (hop hskip.1 hskip.2)]
        have hsame := h.skip e.pc hskip
        rw [Recorded, step, recent, hhistory]
        exact hsame
      · have hrepeats : e.repeats s.executed.head? = false := by
          cases hexecuted : s.executed with
          | nil => rfl
          | cons previous earlier =>
              by_contra hrepeats
              rw [List.head?_cons, Bool.not_eq_false, repeats_iff] at hrepeats
              obtain ⟨first, rest, -, hnewest, hopcode, -⟩ := h.newest hexecuted
              refine hskip ⟨hrepeats.1, ?_⟩
              rw [hnewest]
              exact hopcode.trans hrepeats.2.1
        have hpushed :=
          h.push (TraceLog.itemOf_ne_empty e.pc e.debug) (TraceLog.pushed_update hskip)
        have hlength : (history (e :: s.executed)).length = (history s.executed).length + 1 := by
          rw [history, if_neg (by simp [hrepeats]), List.length_cons]
        rw [Recorded, step, recent_push s hrepeats, hlength]
        exact hpushed

theorem tellsRepetition_of_exact {s : Traced} (h : s.Recorded) {op : TraceOp}
    (hexact : (step op s).Exact) : s.TellsRepetition op := by
  cases op with
  | reset => trivial
  | update e =>
      intro hhlt hnewest
      by_contra hrepeats
      rw [Bool.not_eq_true] at hrepeats
      have hsame := h.skip e.pc ⟨hhlt, hnewest⟩
      have hvisits := hsame.scanLog.symm.trans hexact.visits
      rw [step, recent_push s hrepeats] at hvisits
      cases hexecuted : s.executed with
      | nil =>
          -- stale: nothing has been recorded since the reset
          have hempty : s.recent.map item = [] := by simp [recent, hexecuted, history]
          rw [hempty] at hvisits
          obtain ⟨n, hn⟩ := Nat.exists_eq_succ_of_ne_zero (Nat.ne_of_gt traceLogSize_pos)
          rw [hn, List.take_succ_cons] at hvisits
          exact absurd hvisits (List.cons_ne_nil _ _).symm
      | cons previous earlier =>
          obtain ⟨first, rest, hfirst, hslot, hopcode, haddress⟩ := h.newest hexecuted
          obtain ⟨n, hn⟩ := Nat.exists_eq_succ_of_ne_zero (Nat.ne_of_gt traceLogSize_pos)
          have hrecent : s.recent.map item = first.item :: (rest.take n).map item := by
            rw [recent, hfirst, hn, List.take_succ_cons, List.map_cons]
          rw [hrecent, hn, List.take_succ_cons, List.cons.injEq] at hvisits
          rw [hslot] at hnewest
          have hprevious : previous.opcode = opcodeHlt := hopcode.symm.trans hnewest
          have hglobal : (first.address : Int) = e.address :=
            congrArg TraceItem.globalAddr hvisits.1
          have hsameAddress : e.address = previous.address := by
            have hstart := haddress hprevious
            omega
          rw [hexecuted, List.head?_cons] at hrepeats
          exact absurd (repeats_iff.mpr ⟨hhlt, hprevious, hsameAddress⟩) (by simp [hrepeats])

theorem recorded_start : start.Recorded := TraceLog.records_new

theorem recorded_of_exact {input : Nat → TraceOp} {n : Nat}
    (hexact : ∀ k, k ≤ n → (Runs.after step input start k).Exact) (k : Nat) (hk : k ≤ n) :
    (Runs.after step input start k).Recorded := by
  induction k with
  | zero => exact recorded_start
  | succ k ih =>
      have hsofar := ih (Nat.le_of_succ_le hk)
      exact recorded_step hsofar (tellsRepetition_of_exact hsofar (hexact (k + 1) hk))

theorem trace_exact_iff (input : Nat → TraceOp) (n : Nat) :
    (∀ k, k ≤ n → (Runs.after step input start k).Exact) ↔
      ∀ k, k < n → (Runs.after step input start k).TellsRepetition (input k) := by
  constructor
  · intro hexact k hk
    exact tellsRepetition_of_exact (recorded_of_exact hexact k (Nat.le_of_lt hk)) (hexact (k + 1) hk)
  · intro htells k hk
    have hrecorded : (Runs.after step input start k).Recorded := by
      induction k with
      | zero => exact recorded_start
      | succ k ih => exact recorded_step (ih (Nat.le_of_succ_le hk)) (htells k hk)
    exact hrecorded.exact

def nopAtZero : Executed := ⟨⟨0, 0⟩, .empty, by decide⟩

def hltAtZero : Executed :=
  ⟨⟨0, 0⟩, { Debug.empty with instr := fun _ => opcodeHlt }, by decide⟩

/-- The record that fills the ring is an HLT, and so is the first instruction after a
reset. -/
def haltedBoot (k : Nat) : TraceOp :=
  if k + 1 < traceLogSize then .update nopAtZero
  else if k = traceLogSize then .reset
  else .update hltAtZero

theorem history_nops (n : Nat) : history (List.replicate n nopAtZero) = List.replicate n nopAtZero := by
  induction n with
  | zero => rfl
  | succ n ih =>
      have hrepeats : ∀ previous, nopAtZero.repeats previous = false := by
        intro previous
        cases previous <;> rfl
      rw [List.replicate_succ, history, hrepeats, ih]
      rfl

theorem executed_nops (k : Nat) (hk : k < traceLogSize) :
    (Runs.after step haltedBoot start k).executed = List.replicate k nopAtZero := by
  induction k with
  | zero => rfl
  | succ k ih =>
      have hop : haltedBoot k = .update nopAtZero := if_pos hk
      have hsofar := ih (Nat.lt_of_succ_lt hk)
      rw [Runs.after, hop, List.replicate_succ, ← hsofar]
      rfl

theorem haltedBoot_inexact :
    ¬ ∀ k, k ≤ traceLogSize + 2 → (Runs.after step haltedBoot start k).Exact := by
  intro hexact
  have hpos := traceLogSize_pos
  obtain ⟨n, hn⟩ := Nat.exists_eq_succ_of_ne_zero (Nat.ne_of_gt hpos)
  have hlast : haltedBoot n = .update hltAtZero := by
    rw [haltedBoot, if_neg (by omega), if_neg (by omega)]
  have hreset : haltedBoot traceLogSize = .reset := by
    rw [haltedBoot, if_neg (by omega), if_pos rfl]
  have hboot : haltedBoot (traceLogSize + 1) = .update hltAtZero := by
    rw [haltedBoot, if_neg (by omega), if_neg (by omega)]
  have hfilled := recorded_of_exact hexact traceLogSize (by omega)
  have hexecuted : (Runs.after step haltedBoot start traceLogSize).executed =
      hltAtZero :: List.replicate n nopAtZero := by
    rw [hn, Runs.after, hlast, ← executed_nops n (by omega)]
    rfl
  obtain ⟨first, rest, hfirst, hslot, hopcode, -⟩ := hfilled.newest hexecuted
  have hlength : (history (Runs.after step haltedBoot start traceLogSize).executed).length =
      traceLogSize := by
    have hrepeats : hltAtZero.repeats (List.replicate n nopAtZero).head? = false := by
      cases n <;> rfl
    rw [hexecuted, history, hrepeats, history_nops, hn]
    simp
  have hidx : (Runs.after step haltedBoot start traceLogSize).log.logIdx = 0 := by
    have hindex := hfilled.index
    rw [hlength, Nat.add_mod_right, Nat.mod_eq_of_lt hfilled.logIdx_lt] at hindex
    exact hindex
  have hbooted := recorded_of_exact hexact (traceLogSize + 1) (by omega)
  have htells := tellsRepetition_of_exact hbooted (hexact (traceLogSize + 1 + 1) (Nat.le_refl _))
  have hstale : ((Runs.after step haltedBoot start (traceLogSize + 1)).log.log 0).opcode =
      opcodeHlt := by
    rw [Runs.after, hreset]
    rw [hidx] at hslot
    have hkept := TraceLog.reset_log (Runs.after step haltedBoot start traceLogSize).log 0
    rw [hslot] at hkept
    exact hkept.trans hopcode
  have hnone : (Runs.after step haltedBoot start (traceLogSize + 1)).executed = [] := by
    rw [Runs.after, hreset]
    rfl
  have hzero : (Runs.after step haltedBoot start (traceLogSize + 1)).log.logIdx = 0 := by
    rw [Runs.after, hreset]
    rfl
  rw [hboot] at htells
  have hrepeats := htells rfl (by rw [hzero]; exact hstale)
  rw [hnone] at hrepeats
  exact absurd hrepeats Bool.false_ne_true

end Traced

end V6Emul
