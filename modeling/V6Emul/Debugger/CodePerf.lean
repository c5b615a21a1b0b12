import Mathlib.Algebra.Order.Field.Rat
import Mathlib.Tactic.FieldSimp
import Mathlib.Tactic.Ring
import V6Emul.Debugger.Scripts

/-!
# Code performance

A record measures the clocks between two addresses: a sample begins where execution
reaches the first and ends at the next visit of the second.  The record keeps the number
of samples and their mean, which every sample moves.
-/

namespace V6Emul

/-- The writable fields; a client cannot give them in the wrong order. -/
structure CodePerfInput where
  name : String
  addrStart : Addr
  addrEnd : Addr
  active : Bool
  ordered : addrStart < addrEnd

structure CodePerf where
  name : String
  addrStart : Addr
  addrEnd : Addr
  averageClockCycles : ℚ
  testCount : Nat
  sampleStartClock : Option (BitVec 64)
  active : Bool

namespace CodePerf

def maxTestCount : Nat := 20000

def ofInput (input : CodePerfInput) : CodePerf where
  name := input.name
  addrStart := input.addrStart
  addrEnd := input.addrEnd
  averageClockCycles := 0
  testCount := 0
  sampleStartClock := none
  active := input.active

def cancelSample (r : CodePerf) : CodePerf := { r with sampleStartClock := none }

def resetStatistics (r : CodePerf) : CodePerf :=
  { r with averageClockCycles := 0, testCount := 0 }.cancelSample

def edit (input : CodePerfInput) (r : CodePerf) : CodePerf :=
  let named := { r with name := input.name }
  let edited :=
    if r.addrStart ≠ input.addrStart ∨ r.addrEnd ≠ input.addrEnd then
      { named with addrStart := input.addrStart, addrEnd := input.addrEnd }.resetStatistics
    else if r.active ≠ input.active then named.cancelSample
    else named
  { edited with active := input.active }

def checkPerf (addr : Addr) (cc : BitVec 64) (r : CodePerf) : CodePerf :=
  if r.active = false ∨ maxTestCount ≤ r.testCount then r
  else if r.addrStart = addr then { r with sampleStartClock := some cc }
  else
    match r.sampleStartClock with
    | none => r
    | some start =>
        if r.addrEnd = addr then
          if cc < start then r.cancelSample
          else
            let testCount := r.testCount + 1
            let duration : ℚ := (cc - start).toNat
            let weight : ℚ := 1 / testCount
            { r with
              testCount := testCount
              averageClockCycles :=
                r.averageClockCycles + (duration - r.averageClockCycles) * weight }.cancelSample
        else r

/-! ## Events -/

inductive Event where
  | check (addr : Addr) (cc : BitVec 64)
  | edit (input : CodePerfInput)
  | cancel

def handle (r : CodePerf) : Event → CodePerf
  | .check addr cc => r.checkPerf addr cc
  | .edit input => r.edit input
  | .cancel => r.cancelSample

def after (input : CodePerfInput) (events : List Event) : CodePerf :=
  events.foldl handle (ofInput input)

/-! ## What the events say

A history has its newest event first.
-/

def settings (input : CodePerfInput) : List Event → CodePerfInput
  | [] => input
  | .edit edited :: _ => edited
  | _ :: history => settings input history

def EndpointsChange (settings edited : CodePerfInput) : Prop :=
  settings.addrStart ≠ edited.addrStart ∨ settings.addrEnd ≠ edited.addrEnd

instance (settings edited : CodePerfInput) : Decidable (EndpointsChange settings edited) :=
  inferInstanceAs (Decidable (_ ∨ _))

def Interrupts (settings : CodePerfInput) : Event → Prop
  | .check addr _ => settings.active = true ∧ (addr = settings.addrStart ∨ addr = settings.addrEnd)
  | .edit edited => EndpointsChange settings edited ∨ settings.active ≠ edited.active
  | .cancel => True

instance (settings : CodePerfInput) : DecidablePred (Interrupts settings)
  | .check .. => inferInstanceAs (Decidable (_ ∧ _))
  | .edit _ => inferInstanceAs (Decidable (_ ∨ _))
  | .cancel => .isTrue trivial

def openSample (input : CodePerfInput) : List Event → Option (BitVec 64)
  | [] => none
  | event :: history =>
      if Interrupts (settings input history) event then
        match event with
        | .check addr cc => if addr = (settings input history).addrStart then some cc else none
        | _ => none
      else openSample input history

def completes (input : CodePerfInput) (event : Event) (history : List Event) : Option Nat :=
  match event with
  | .check addr cc =>
      if (settings input history).active = true ∧ addr = (settings input history).addrEnd then
        match openSample input history with
        | none => none
        | some start => if cc < start then none else some (cc.toNat - start.toNat)
      else none
  | _ => none

def samples (input : CodePerfInput) : List Event → List Nat
  | [] => []
  | .edit edited :: history =>
      if EndpointsChange (settings input history) edited then [] else samples input history
  | event :: history => (completes input event history).toList ++ samples input history

def counted (input : CodePerfInput) (history : List Event) : List Nat :=
  (samples input history).reverse.take maxTestCount

/-! ## One event -/

section Counted

variable {input : CodePerfInput} {history : List Event}

theorem length_counted_le : (counted input history).length ≤ maxTestCount := List.length_take_le _ _

theorem samples_check (addr : Addr) (cc : BitVec 64) : samples input (.check addr cc :: history) =
    (completes input (.check addr cc) history).toList ++ samples input history := rfl

theorem counted_check_none {addr : Addr} {cc : BitVec 64}
    (h : completes input (.check addr cc) history = none) :
    counted input (.check addr cc :: history) = counted input history := by
  rw [counted, samples_check, h]
  rfl

theorem counted_check_frozen (addr : Addr) (cc : BitVec 64)
    (hfull : maxTestCount ≤ (counted input history).length) :
    counted input (.check addr cc :: history) = counted input history := by
  have hlength : maxTestCount ≤ (samples input history).reverse.length :=
    Nat.le_trans hfull (List.length_take_le' _ _)
  rw [counted, samples_check, List.reverse_append, List.take_append_of_le_length hlength, counted]

theorem counted_check_some {addr : Addr} {cc : BitVec 64} {clocks : Nat}
    (h : completes input (.check addr cc) history = some clocks)
    (hroom : (counted input history).length < maxTestCount) :
    counted input (.check addr cc :: history) = counted input history ++ [clocks] := by
  have hlength : (samples input history).reverse.length < maxTestCount := by
    rw [counted, List.length_take] at hroom
    omega
  have hall : counted input history = (samples input history).reverse :=
    List.take_of_length_le (Nat.le_of_lt hlength)
  rw [hall, counted, samples_check, h, List.reverse_append]
  exact List.take_of_length_le (by
    rw [List.length_append]
    exact hlength)

end Counted

theorem openSample_edit (input edited : CodePerfInput) (history : List Event) :
    openSample input (.edit edited :: history) =
      if EndpointsChange (settings input history) edited ∨
          (settings input history).active ≠ edited.active then none
      else openSample input history := rfl

theorem openSample_cancel (input : CodePerfInput) (history : List Event) :
    openSample input (.cancel :: history) = none := rfl

structure Tracks (input : CodePerfInput) (history : List Event) (r : CodePerf) : Prop where
  addrStart : r.addrStart = (settings input history).addrStart
  addrEnd : r.addrEnd = (settings input history).addrEnd
  active : r.active = (settings input history).active
  count : r.testCount = (counted input history).length
  total : r.testCount * r.averageClockCycles = ((counted input history).sum : ℕ)
  sample : r.testCount < maxTestCount → r.sampleStartClock = openSample input history

section Tracks

variable {input : CodePerfInput} {history : List Event} {r : CodePerf}

theorem tracks_ofInput (input : CodePerfInput) : Tracks input [] (ofInput input) where
  addrStart := rfl
  addrEnd := rfl
  active := rfl
  count := rfl
  total := by simp [ofInput, counted, samples]
  sample _ := rfl

theorem mean_push (mean duration : ℚ) (n : Nat) :
    ((n + 1 : Nat) : ℚ) * (mean + (duration - mean) * (1 / ((n + 1 : Nat) : ℚ))) =
      n * mean + duration := by
  have hne : ((n + 1 : Nat) : ℚ) ≠ 0 := Nat.cast_ne_zero.mpr (Nat.succ_ne_zero n)
  field_simp
  push_cast
  ring

theorem Tracks.quiet_check (h : Tracks input history r) {addr : Addr} {cc : BitVec 64}
    (hquiet : ¬ Interrupts (settings input history) (.check addr cc)) :
    Tracks input (.check addr cc :: history) r := by
  have hcompletes : completes input (.check addr cc) history = none := by
    rw [completes, if_neg]
    exact fun hend => hquiet ⟨hend.1, .inr hend.2⟩
  refine ⟨h.addrStart, h.addrEnd, h.active, ?_, ?_, ?_⟩
  · rw [counted_check_none hcompletes]
    exact h.count
  · rw [counted_check_none hcompletes]
    exact h.total
  · intro hroom
    rw [openSample, if_neg hquiet]
    exact h.sample hroom

theorem Tracks.frozen_check (h : Tracks input history r) (hfull : maxTestCount ≤ r.testCount)
    (addr : Addr) (cc : BitVec 64) : Tracks input (.check addr cc :: history) r := by
  have hcounted := counted_check_frozen addr cc (h.count ▸ hfull)
  refine ⟨h.addrStart, h.addrEnd, h.active, ?_, ?_, ?_⟩
  · rw [hcounted]
    exact h.count
  · rw [hcounted]
    exact h.total
  · exact fun hroom => absurd hroom (Nat.not_lt.mpr hfull)

theorem settings_ordered (input : CodePerfInput) (history : List Event) :
    (settings input history).addrStart ≠ (settings input history).addrEnd := fun heq => by
  have hlt := (settings input history).ordered
  rw [heq] at hlt
  exact absurd hlt (BitVec.lt_irrefl _)

theorem Tracks.visit_start (h : Tracks input history r) (hactive : r.active = true)
    (cc : BitVec 64) : Tracks input (.check r.addrStart cc :: history)
      { r with sampleStartClock := some cc } := by
  have hcompletes : completes input (.check r.addrStart cc) history = none := by
    rw [completes, if_neg]
    rintro ⟨-, hend⟩
    exact settings_ordered input history (h.addrStart ▸ hend)
  refine ⟨h.addrStart, h.addrEnd, h.active, ?_, ?_, ?_⟩
  · rw [counted_check_none hcompletes]
    exact h.count
  · rw [counted_check_none hcompletes]
    exact h.total
  · intro _
    rw [openSample, if_pos ⟨h.active ▸ hactive, .inl h.addrStart⟩]
    exact (if_pos h.addrStart).symm

theorem openSample_visit_end (h : Tracks input history r) (hactive : r.active = true)
    (cc : BitVec 64) : openSample input (.check r.addrEnd cc :: history) = none := by
  rw [openSample, if_pos ⟨h.active ▸ hactive, .inr h.addrEnd⟩]
  refine if_neg fun heq => ?_
  exact settings_ordered input history (heq.symm.trans h.addrEnd)

theorem Tracks.visit_end (h : Tracks input history r) (hactive : r.active = true)
    (hroom : r.testCount < maxTestCount) (cc : BitVec 64) :
    Tracks input (.check r.addrEnd cc :: history) (r.checkPerf r.addrEnd cc) := by
  have hstart : r.addrStart ≠ r.addrEnd := by
    rw [h.addrStart, h.addrEnd]
    exact settings_ordered input history
  have hopen := h.sample hroom
  have hcompletes : completes input (.check r.addrEnd cc) history =
      match r.sampleStartClock with
      | none => none
      | some start => if cc < start then none else some (cc.toNat - start.toNat) := by
    rw [completes, if_pos ⟨h.active ▸ hactive, h.addrEnd⟩, hopen]
  have hnone := openSample_visit_end h hactive cc
  rw [checkPerf, if_neg (by simp [hactive, hroom]), if_neg hstart]
  cases hclock : r.sampleStartClock with
  | none =>
      rw [hclock] at hcompletes
      refine ⟨h.addrStart, h.addrEnd, h.active, ?_, ?_, fun _ => hclock.trans hnone.symm⟩
      · rw [counted_check_none hcompletes]
        exact h.count
      · rw [counted_check_none hcompletes]
        exact h.total
  | some start =>
      rw [hclock] at hcompletes
      dsimp only at hcompletes ⊢
      rw [if_pos rfl]
      by_cases hback : cc < start
      · rw [if_pos hback] at hcompletes ⊢
        refine ⟨h.addrStart, h.addrEnd, h.active, ?_, ?_, fun _ => hnone.symm⟩
        · rw [counted_check_none hcompletes]
          exact h.count
        · rw [counted_check_none hcompletes]
          exact h.total
      · rw [if_neg hback] at hcompletes ⊢
        have hclocks : (cc - start).toNat = cc.toNat - start.toNat :=
          BitVec.toNat_sub_of_le (BitVec.not_lt.mp hback)
        have hcounted := counted_check_some hcompletes (h.count ▸ hroom)
        refine ⟨h.addrStart, h.addrEnd, h.active, ?_, ?_, fun _ => hnone.symm⟩
        · rw [hcounted, List.length_append]
          exact congrArg (· + 1) h.count
        · refine (mean_push _ _ _).trans ?_
          rw [hcounted, List.sum_append, List.sum_singleton, h.total, hclocks, Nat.cast_add]

theorem Tracks.check (h : Tracks input history r) (addr : Addr) (cc : BitVec 64) :
    Tracks input (.check addr cc :: history) (r.checkPerf addr cc) := by
  by_cases hactive : r.active = true
  · rcases Nat.lt_or_ge r.testCount maxTestCount with hroom | hfull
    · by_cases hstart : r.addrStart = addr
      · rw [checkPerf, if_neg (by simp [hactive, hroom]), if_pos hstart, ← hstart]
        exact h.visit_start hactive cc
      · by_cases hend : r.addrEnd = addr
        · rw [← hend]
          exact h.visit_end hactive hroom cc
        · have hsame : r.checkPerf addr cc = r := by
            rw [checkPerf, if_neg (by simp [hactive, hroom]), if_neg hstart]
            split
            · rfl
            · exact if_neg hend
          rw [hsame]
          apply h.quiet_check
          rintro ⟨-, heq | heq⟩
          · exact hstart (h.addrStart.trans heq.symm)
          · exact hend (h.addrEnd.trans heq.symm)
    · rw [checkPerf, if_pos (.inr hfull)]
      exact h.frozen_check hfull addr cc
  · rw [checkPerf, if_pos (.inl (Bool.eq_false_iff.mpr hactive))]
    apply h.quiet_check
    rintro ⟨hset, -⟩
    exact hactive (h.active.trans hset)

theorem Tracks.edit (h : Tracks input history r) (edited : CodePerfInput) :
    Tracks input (.edit edited :: history) (r.edit edited) := by
  have hchange : r.addrStart ≠ edited.addrStart ∨ r.addrEnd ≠ edited.addrEnd ↔
      EndpointsChange (settings input history) edited := by
    rw [EndpointsChange, h.addrStart, h.addrEnd]
  by_cases hendpoints : EndpointsChange (settings input history) edited
  · have hcounted : counted input (.edit edited :: history) = [] := by
      rw [counted, samples, if_pos hendpoints]
      rfl
    rw [CodePerf.edit, if_pos (hchange.mpr hendpoints)]
    refine ⟨rfl, rfl, rfl, ?_, ?_, ?_⟩
    · rw [hcounted]
      rfl
    · rw [hcounted]
      exact zero_mul _
    · intro _
      rw [openSample_edit, if_pos (.inl hendpoints)]
      rfl
  · have hcounted : counted input (.edit edited :: history) = counted input history := by
      rw [counted, samples, if_neg hendpoints]
      rfl
    have hsame := fun h' => hendpoints (hchange.mp h')
    obtain ⟨hstart, hend⟩ := not_or.mp hsame
    rw [CodePerf.edit, if_neg hsame]
    by_cases hactive : r.active = edited.active
    · rw [if_neg (not_not_intro hactive)]
      refine ⟨not_not.mp hstart, not_not.mp hend, rfl, hcounted ▸ h.count, hcounted ▸ h.total, ?_⟩
      intro hroom
      rw [openSample_edit, if_neg, ← h.sample hroom]
      rintro (hchanged | hchanged)
      · exact hendpoints hchanged
      · exact hchanged (h.active ▸ hactive)
    · rw [if_pos hactive]
      refine ⟨not_not.mp hstart, not_not.mp hend, rfl, hcounted ▸ h.count, hcounted ▸ h.total, ?_⟩
      intro _
      rw [openSample_edit, if_pos (.inr (h.active ▸ hactive))]
      rfl

theorem Tracks.cancel (h : Tracks input history r) :
    Tracks input (.cancel :: history) r.cancelSample := by
  exact ⟨h.addrStart, h.addrEnd, h.active, h.count, h.total,
    fun _ => (openSample_cancel input history).symm⟩

theorem Tracks.handle (h : Tracks input history r) (event : Event) :
    Tracks input (event :: history) (r.handle event) := by
  cases event with
  | check addr cc => exact h.check addr cc
  | edit edited => exact h.edit edited
  | cancel => exact h.cancel

end Tracks

/-! ## Runs -/

theorem tracks_after (input : CodePerfInput) (events : List Event) :
    Tracks input events.reverse (after input events) := by
  induction events using List.reverseRecOn with
  | nil => exact tracks_ofInput input
  | append_singleton events event ih =>
      rw [after, List.foldl_append, List.reverse_append]
      exact ih.handle event

/-- The statistics of a record: the exact mean of the counted samples. -/
structure ExactMean (input : CodePerfInput) (events : List Event) : Prop where
  total : (after input events).testCount * (after input events).averageClockCycles =
    ((counted input events.reverse).sum : ℕ)
  count : (after input events).testCount = (counted input events.reverse).length
  count_le : (after input events).testCount ≤ maxTestCount
  frozen : (after input events).testCount = maxTestCount → ∀ event,
    (∀ edited, event = .edit edited →
      ¬ EndpointsChange (settings input events.reverse) edited) →
    (after input (events ++ [event])).testCount = (after input events).testCount ∧
      (after input (events ++ [event])).averageClockCycles =
        (after input events).averageClockCycles

theorem exactMean_of_tracks {input : CodePerfInput} {events : List Event}
    (h : Tracks input events.reverse (after input events)) : ExactMean input events where
  total := h.total
  count := h.count
  count_le := h.count ▸ length_counted_le
  frozen hfull event hedit := by
    have hafter : after input (events ++ [event]) = (after input events).handle event :=
      List.foldl_append
    rw [hafter]
    cases event with
    | check addr cc =>
        rw [handle, checkPerf, if_pos (.inr (Nat.le_of_eq hfull.symm))]
        exact ⟨rfl, rfl⟩
    | edit edited =>
        have hsame : ¬ ((after input events).addrStart ≠ edited.addrStart ∨
            (after input events).addrEnd ≠ edited.addrEnd) := by
          rw [h.addrStart, h.addrEnd]
          exact hedit edited rfl
        rw [handle, edit, if_neg hsame]
        split <;> exact ⟨rfl, rfl⟩
    | cancel => exact ⟨rfl, rfl⟩

/-- For every sequence of events the statistics of a record are the exact mean. -/
theorem averageClockCycles_exact (input : CodePerfInput) (events : List Event) :
    ExactMean input events :=
  exactMean_of_tracks (tracks_after input events)

end CodePerf

/-! ## The collection -/

inductive CodePerfsError where
  | capacity
  | idExhausted
  | notFound (id : Id)
  deriving DecidableEq

structure CodePerfs where
  codePerfs : Table Id CodePerf
  updates : BitVec 32
  nextCodePerfId : Id
  idsExhausted : Bool

namespace CodePerfs

def new : CodePerfs := ⟨∅, 0, 0, false⟩

def emplace (id : Id) (r : CodePerf) (s : CodePerfs) : CodePerfs :=
  match s.codePerfs.lookup id with
  | some _ => s
  | none => { s with codePerfs := s.codePerfs.insert id r }

def addCodePerf (input : CodePerfInput) (s : CodePerfs) : Outcome CodePerfsError CodePerfs :=
  if maxRecords ≤ Table.size s.codePerfs then (some .capacity, s)
  else if s.idsExhausted then (some .idExhausted, s)
  else
    let id := s.nextCodePerfId
    let s :=
      if s.nextCodePerfId = idMax then { s with idsExhausted := true }
      else { s with nextCodePerfId := s.nextCodePerfId + 1 }
    let s := s.emplace id (.ofInput input)
    (none, { s with updates := s.updates + 1 })

def editCodePerf (id : Id) (input : CodePerfInput) (s : CodePerfs) :
    Outcome CodePerfsError CodePerfs :=
  match s.codePerfs.lookup id with
  | none => (some (.notFound id), s)
  | some r =>
      (none, { s with codePerfs := s.codePerfs.insert id (r.edit input), updates := s.updates + 1 })

def delCodePerf (id : Id) (s : CodePerfs) : CodePerfs :=
  match s.codePerfs.lookup id with
  | none => s
  | some _ => { s with codePerfs := s.codePerfs.erase id, updates := s.updates + 1 }

def delAllCodePerfs (s : CodePerfs) : CodePerfs :=
  if s.codePerfs.entries.isEmpty then s
  else { s with codePerfs := ∅, updates := s.updates + 1 }

def cancelCodePerfSamples (s : CodePerfs) : CodePerfs :=
  { s with codePerfs := Table.mapValues (fun _ r => r.cancelSample) s.codePerfs }

def checkCodePerfs (addr : Addr) (cc : BitVec 64) (s : CodePerfs) : CodePerfs :=
  { s with codePerfs := Table.mapValues (fun _ r => r.checkPerf addr cc) s.codePerfs }

inductive Op where
  | add (input : CodePerfInput)
  | edit (id : Id) (input : CodePerfInput)
  | del (id : Id)
  | delAll
  | cancelSamples
  | check (addr : Addr) (cc : BitVec 64)

def apply (s : CodePerfs) : Op → CodePerfs
  | .add input => (s.addCodePerf input).2
  | .edit id input => (s.editCodePerf id input).2
  | .del id => s.delCodePerf id
  | .delAll => s.delAllCodePerfs
  | .cancelSamples => s.cancelCodePerfSamples
  | .check addr cc => s.checkCodePerfs addr cc

/-- The event of the record with this id in an operation on the collection. -/
def eventFor (id : Id) : Op → Option CodePerf.Event
  | .check addr cc => some (.check addr cc)
  | .cancelSamples => some .cancel
  | .edit edited input => if edited = id then some (.edit input) else none
  | _ => none

def Gives (s : CodePerfs) (input : CodePerfInput) (id : Id) : Prop :=
  s.nextCodePerfId = id ∧ (s.addCodePerf input).1 = none

/-- The record was added with this id and these fields, and these are its events since. -/
def Added (ops : List Op) (id : Id) (input : CodePerfInput) (events : List CodePerf.Event) : Prop :=
  ∃ earlier later, ops = earlier ++ .add input :: later ∧
    Gives (earlier.foldl apply new) input id ∧ events = later.filterMap (eventFor id)

theorem Added.append {ops : List Op} {id : Id} {input : CodePerfInput}
    {events : List CodePerf.Event} (h : Added ops id input events) (op : Op) :
    Added (ops ++ [op]) id input (events ++ (eventFor id op).toList) := by
  obtain ⟨earlier, later, rfl, hgives, rfl⟩ := h
  refine ⟨earlier, later ++ [op], ?_, hgives, ?_⟩
  · rw [List.append_assoc, List.cons_append]
  · rw [List.filterMap_append]
    cases h : eventFor id op <;> simp [h]

end CodePerfs

end V6Emul
