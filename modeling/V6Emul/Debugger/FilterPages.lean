import V6Emul.Debugger.CallerSearch
import V6Emul.Debugger.GlobMatches

/-!
# The pages of a filter

A filter keeps the entries of the records that match its patterns, newest first, and the client
reads them in windows.  The id of the filter is good until the log is touched again, and no
later filter has it.
-/

namespace V6Emul

instance (pattern value : List Byte) : Decidable (GlobLanguage pattern value) :=
  decidable_of_iff _ (globMatches_iff pattern value)

namespace TraceLog

/-! ## What a filter finds -/

def Admits (pattern text : String) : Prop :=
  pattern = "" ∨ GlobLanguage (stringBytes pattern) (stringBytes text)

instance (pattern text : String) : Decidable (Admits pattern text) :=
  inferInstanceAs (Decidable (_ ∨ _))

/-- The entries of the records that match both patterns, in the order of the records. -/
def matching (texts : TraceTexts) (addressPattern instructionPattern : String)
    (items : List TraceItem) : List QueryEntry :=
  (items.map (makeQueryEntry texts)).filter fun entry =>
    Admits addressPattern (texts.address entry.address) ∧
      Admits instructionPattern entry.instruction

theorem admits_iff (pattern text : String) :
    (pattern.isEmpty || globMatches (stringBytes pattern) (stringBytes text)) = true ↔
      Admits pattern text := by
  rw [Bool.or_eq_true, String.isEmpty_iff, globMatches_iff, Admits]

variable {t : TraceLog} {items : List TraceItem}

theorem Logged.records (h : Logged t items) : ∃ total, t.Records items total := by
  induction h with
  | new => exact ⟨0, records_new⟩
  | reset _ _ => exact ⟨0, records_reset _⟩
  | @update t _ pc debug _ ih =>
      obtain ⟨total, hrecords⟩ := ih
      split
      · exact ⟨total, hrecords.skip pc ‹t.skips debug›⟩
      · exact ⟨total + 1, hrecords.push (itemOf_ne_empty pc debug) (pushed_update ‹¬ _›)⟩
  | createFilter _ _ _ _ ih =>
      obtain ⟨total, hrecords⟩ := ih
      exact ⟨total, { hrecords with }⟩
  | invalidateFilter _ ih =>
      obtain ⟨total, hrecords⟩ := ih
      exact ⟨total, { hrecords with }⟩

theorem Logged.filteredEntries (h : Logged t items) (texts : TraceTexts)
    (addressPattern instructionPattern : String) :
    (t.createFilter texts addressPattern instructionPattern).filteredEntries =
      matching texts addressPattern instructionPattern items := by
  obtain ⟨total, hrecords⟩ := h.records
  have hidx : t.invalidateFilter.logIdx = t.logIdx := rfl
  simp only [TraceLog.createFilter, hidx, scanLog_invalidateFilter, hrecords.scanLog, matching]
  refine List.filter_congr fun entry _ => ?_
  rw [Bool.eq_iff_iff, Bool.and_eq_true, admits_iff, admits_iff, decide_eq_true_iff]

/-! ## Windows -/

def windows (t : TraceLog) (filterId : BitVec 64) (lines : Nat) :
    List (Except String (List QueryEntry)) :=
  (List.range (t.filteredEntries.length / lines + 1)).map fun page =>
    t.getFilterWindow filterId (page * lines) lines

structure Paged (t : TraceLog) (filterId : BitVec 64) (found : List QueryEntry) : Prop where
  window : ∀ start lines, start ≤ found.length →
    t.getFilterWindow filterId start lines = .ok ((found.drop start).take lines)
  outside : ∀ start lines, found.length < start → t.getFilterWindow filterId start lines =
    .error "trace-log window start is outside the filtered result"
  pages : ∀ lines, 0 < lines → ∃ pages : List (List QueryEntry),
    t.windows filterId lines = pages.map .ok ∧ pages.flatten = found

def Expired (t : TraceLog) (filterId : BitVec 64) : Prop :=
  ∀ start lines, t.getFilterWindow filterId start lines =
    .error "unknown or expired trace-log filterId"

theorem flatten_pages {α : Type} (l : List α) (lines n : Nat) :
    ((List.range n).map fun page => (l.drop (page * lines)).take lines).flatten =
      l.take (n * lines) := by
  induction n with
  | zero => simp
  | succ n ih =>
      rw [List.range_succ, List.map_append, List.flatten_append, ih, Nat.succ_mul, List.take_add]
      simp

theorem paged_of_active {filterId : BitVec 64} (hactive : t.activeFilterId = filterId)
    (hid : filterId ≠ 0) : t.Paged filterId t.filteredEntries := by
  have hgood : ¬ (filterId ≠ t.activeFilterId ∨ t.activeFilterId = 0) := by
    rw [hactive]
    exact not_or.mpr ⟨not_not_intro rfl, hid⟩
  have hwindow : ∀ start lines, start ≤ t.filteredEntries.length →
      t.getFilterWindow filterId start lines = .ok ((t.filteredEntries.drop start).take lines) := by
    intro start lines hstart
    rw [getFilterWindow, if_neg hgood, if_neg (Nat.not_lt.mpr hstart)]
  refine ⟨hwindow, fun start lines hstart => ?_, fun lines hlines => ?_⟩
  · rw [getFilterWindow, if_neg hgood, if_pos hstart]
  · refine ⟨_, ?_, (flatten_pages t.filteredEntries lines
      (t.filteredEntries.length / lines + 1)).trans ?_⟩
    · rw [windows, List.map_map]
      refine List.map_congr_left fun page hpage => hwindow _ _ ?_
      exact (Nat.le_div_iff_mul_le hlines).mp (Nat.lt_succ_iff.mp (List.mem_range.mp hpage))
    · refine List.take_of_length_le ?_
      rw [Nat.add_mul, Nat.one_mul]
      exact Nat.le_of_lt (Nat.lt_div_mul_add hlines)

/-! ## The life of a filter -/

/-- The calls on the log that are no queries. -/
inductive Call where
  | update (pc : RegPair) (debug : Debug)
  | reset
  | invalidateFilter
  | createFilter (texts : TraceTexts) (addressPattern instructionPattern : String)

def call (t : TraceLog) : Call → TraceLog
  | .update pc debug => t.update pc debug
  | .reset => t.reset
  | .invalidateFilter => t.invalidateFilter
  | .createFilter texts addressPattern instructionPattern =>
      t.createFilter texts addressPattern instructionPattern

structure Outlived (filterId : BitVec 64) (t : TraceLog) : Prop where
  generation : filterId.toNat ≤ t.filterGeneration.toNat
  active : t.activeFilterId = 0 ∨ filterId.toNat < t.activeFilterId.toNat

theorem Outlived.expired {filterId : BitVec 64} (h : Outlived filterId t) : t.Expired filterId := by
  intro start lines
  rw [getFilterWindow, if_pos]
  rcases h.active with hnone | hlater
  · exact .inr hnone
  · refine .inl fun hsame => ?_
    rw [hsame] at hlater
    exact Nat.lt_irrefl _ hlater

theorem call_cases (t : TraceLog) (c : Call) :
    ((t.call c).filterGeneration = t.filterGeneration + 1 ∧ (t.call c).activeFilterId = 0) ∨
      (t.call c).filterGeneration = t.filterGeneration + 1 + 1 ∧
        (t.call c).activeFilterId = t.filterGeneration + 1 + 1 := by
  cases c with
  | update pc debug =>
      refine .inl ?_
      simp only [call, update, updateLogBuffer]
      split <;> exact ⟨rfl, rfl⟩
  | reset => exact .inl ⟨rfl, rfl⟩
  | invalidateFilter => exact .inl ⟨rfl, rfl⟩
  | createFilter texts addressPattern instructionPattern => exact .inr ⟨rfl, rfl⟩

theorem toNat_nextGenerations {generation : BitVec 64} (hroom : generation.toNat + 2 < 2 ^ 64) :
    (generation + 1).toNat = generation.toNat + 1 ∧
      (generation + 1 + 1).toNat = generation.toNat + 2 := by
  have hone : (generation + 1).toNat = generation.toNat + 1 := by
    rw [BitVec.toNat_add]
    exact Nat.mod_eq_of_lt (Nat.lt_of_succ_lt hroom)
  refine ⟨hone, ?_⟩
  rw [BitVec.toNat_add, hone]
  exact Nat.mod_eq_of_lt hroom

theorem outlived_call {filterId : BitVec 64} (hid : filterId.toNat ≤ t.filterGeneration.toNat)
    (hroom : t.filterGeneration.toNat + 2 < 2 ^ 64) (c : Call) :
    Outlived filterId (t.call c) ∧
      (t.call c).filterGeneration.toNat ≤ t.filterGeneration.toNat + 2 := by
  obtain ⟨hone, htwo⟩ := toNat_nextGenerations hroom
  rcases t.call_cases c with ⟨hgeneration, hactive⟩ | ⟨hgeneration, hactive⟩
  · refine ⟨⟨?_, .inl hactive⟩, ?_⟩ <;> rw [hgeneration, hone] <;> omega
  · refine ⟨⟨?_, .inr ?_⟩, ?_⟩
    · rw [hgeneration, htwo]
      omega
    · rw [hactive, htwo]
      omega
    · rw [hgeneration, htwo]

theorem outlived_calls {filterId : BitVec 64} (hid : filterId.toNat ≤ t.filterGeneration.toNat)
    {calls : List Call} (hroom : t.filterGeneration.toNat + 2 * calls.length < 2 ^ 64)
    (hcalls : calls ≠ []) : Outlived filterId (calls.foldl call t) := by
  induction calls generalizing t with
  | nil => exact absurd rfl hcalls
  | cons c rest ih =>
      rw [List.length_cons] at hroom
      obtain ⟨houtlived, hle⟩ := outlived_call hid (by omega) c
      rw [List.foldl_cons]
      cases rest with
      | nil => exact houtlived
      | cons next rest => exact ih houtlived.generation (by omega) (List.cons_ne_nil _ _)

/--
For every history: the windows of a new filter are the pages of the records that match its
patterns, newest first, and after any later call its id is refused for ever.
-/
theorem createFilter_paged (h : Logged t items) (texts : TraceTexts)
    (addressPattern instructionPattern : String) (later : List Call)
    (hroom : t.filterGeneration.toNat + 2 * (later.length + 1) < 2 ^ 64) :
    let u := t.createFilter texts addressPattern instructionPattern
    u.Paged u.activeFilterId (matching texts addressPattern instructionPattern items) ∧
      (later ≠ [] → (later.foldl call u).Expired u.activeFilterId) := by
  intro u
  have hid : u.activeFilterId = t.filterGeneration + 1 + 1 := rfl
  have hgeneration : u.filterGeneration = u.activeFilterId := rfl
  have htwo := (toNat_nextGenerations (show t.filterGeneration.toNat + 2 < 2 ^ 64 by omega)).2
  constructor
  · rw [← h.filteredEntries]
    refine paged_of_active rfl fun hzero => ?_
    rw [← hid, hzero] at htwo
    simp at htwo
  · intro hlater
    have hle := Nat.le_of_eq (congrArg BitVec.toNat hgeneration.symm)
    refine (outlived_calls hle ?_ hlater).expired
    rw [hgeneration, hid, htwo]
    omega

def twoTexts : TraceTexts where
  address := fun address => if address = 0x0205 then "0x0205" else "0x0000"
  instruction := fun _ => "NOP"

/-- A witness: the older of two records matches, and the reset ends the filter. -/
theorem createFilter_paged_matched :
    let t := (TraceLog.new.update ⟨0x05, 0x02⟩ (nopAt 0x0205)).update ⟨0, 0⟩ (nopAt 0)
    let u := t.createFilter twoTexts "0X02*" ""
    u.getFilterWindow 4 0 10 = .ok [⟨0x0205, [0], "NOP"⟩] ∧ u.reset.Expired 4 := by
  intro t u
  have hlogged := Logged.update ⟨0, 0⟩ (nopAt 0) (Logged.update ⟨0x05, 0x02⟩ (nopAt 0x0205) .new)
  obtain ⟨hpaged, hends⟩ := createFilter_paged hlogged twoTexts "0X02*" "" [.reset] (by decide)
  have hfound := hpaged.window 0 10 (Nat.zero_le _)
  refine ⟨hfound.trans (congrArg Except.ok ?_), hends (List.cons_ne_nil _ _)⟩
  decide +kernel

end TraceLog

end V6Emul
