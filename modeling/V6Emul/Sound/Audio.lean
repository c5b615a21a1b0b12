import Mathlib.Algebra.Order.Field.Rat
import Mathlib.Data.List.Induction
import Mathlib.Logic.Function.Iterate
import Mathlib.Tactic.Linarith
import V6Emul.Foundation.Decimation

/-!
# The audio pipeline

The sound of the chips and the beeper is taken once a tick, averaged over some ticks and
put into a ring that the host reads.  The counter and the accumulator of the averaging
outlive a reset.  Samples are exact.
-/

namespace V6Emul

structure SoundSource (σ : Type) where
  reset : σ → σ
  clock : σ → ℚ × σ

namespace Audio

def inputRate : Nat := 1500000
def outputRate : Nat := 50000
def downsampleRate : Nat := inputRate / outputRate
def bufferSize : Nat := 4000

end Audio

structure Audio (σ : Type) where
  sound : σ
  muteMul : ℚ
  buffer : Nat → ℚ
  readBuffIdx : BitVec 64
  writeBuffIdx : BitVec 64
  /-- static in `Downsample`, as is the accumulator -/
  sampleCounter : Nat
  accumulator : ℚ
  sampleCounter_le : sampleCounter ≤ Audio.downsampleRate
  accumulator_eq : sampleCounter = 0 → accumulator = 0

namespace Audio

variable {σ : Type} (source : SoundSource σ)

def reset (a : Audio σ) : Audio σ :=
  { a with
    sound := source.reset a.sound
    buffer := fun _ => 0
    readBuffIdx := 0
    writeBuffIdx := 0
    muteMul := 1 }

def downsample (sample : ℚ) (a : Audio σ) : Option ℚ × Audio σ :=
  let accumulator := a.accumulator + sample
  let sampleCounter := a.sampleCounter + 1
  if h : downsampleRate < sampleCounter then
    (some (accumulator / downsampleRate),
      { a with
        sampleCounter := 0
        accumulator := 0
        sampleCounter_le := Nat.zero_le _
        accumulator_eq := fun _ => rfl })
  else
    (none,
      { a with
        sampleCounter := sampleCounter
        accumulator := accumulator
        sampleCounter_le := Nat.le_of_not_lt h
        accumulator_eq := nofun })

def store (sample : ℚ) (a : Audio σ) : Audio σ :=
  { a with
    buffer := Function.update a.buffer (a.writeBuffIdx.toNat % bufferSize) sample
    writeBuffIdx := a.writeBuffIdx + 1 }

def sample (beeper : ℚ) (a : Audio σ) : ℚ := ((source.clock a.sound).1 + beeper) * a.muteMul

def tick (beeper : ℚ) (a : Audio σ) : Audio σ :=
  let ready := { a with sound := (source.clock a.sound).2 }.downsample (a.sample source beeper)
  match ready.1 with
  | none => ready.2
  | some sample => ready.2.store sample

def clock (cycles : Int) (beeper : ℚ) (a : Audio σ) : Audio σ :=
  (tick source beeper)^[cycles.toNat] a

/-- The number of samples that are read; both are `int`. -/
def toRead (maxSamples : BitVec 32) (a : Audio σ) : Nat :=
  (min ((a.writeBuffIdx - a.readBuffIdx).setWidth 32).toInt maxSamples.toInt).toNat

def readSamples (maxSamples : BitVec 32) (a : Audio σ) : List ℚ × Audio σ :=
  let n := a.toRead maxSamples
  ((List.range n).map fun i => a.buffer ((a.readBuffIdx + BitVec.ofNat 64 i).toNat % bufferSize),
    { a with readBuffIdx := a.readBuffIdx + BitVec.ofNat 64 n })

/-! ## Runs -/

inductive Call where
  | clock (cycles : Int) (beeper : ℚ)
  | readSamples (maxSamples : BitVec 32)

inductive Event where
  | tick (beeper : ℚ)
  | read (maxSamples : BitVec 32)

def Event.isTick : Event → Bool
  | .tick _ => true
  | .read _ => false

def Call.events : Call → List Event
  | .clock cycles beeper => List.replicate cycles.toNat (.tick beeper)
  | .readSamples maxSamples => [.read maxSamples]

def Call.run (a : Audio σ) : Call → Audio σ
  | .clock cycles beeper => a.clock source cycles beeper
  | .readSamples maxSamples => (a.readSamples maxSamples).2

/-- The pipeline with the samples of the ticks, those that were produced, and what every read
found and gave. -/
structure Trace (σ : Type) where
  audio : Audio σ
  heard : List ℚ
  produced : List ℚ
  reads : List (List ℚ × List ℚ)

def Trace.step (t : Trace σ) : Event → Trace σ
  | .tick beeper =>
      let sample := t.audio.sample source beeper
      { t with
        audio := t.audio.tick source beeper
        heard := t.heard ++ [sample]
        produced := t.produced ++ (t.audio.downsample sample).1.toList }
  | .read maxSamples =>
      { t with
        audio := (t.audio.readSamples maxSamples).2
        reads := t.reads ++ [(t.produced, (t.audio.readSamples maxSamples).1)] }

def trace (a : Audio σ) (events : List Event) : Trace σ :=
  events.foldl (Trace.step source) ⟨a.reset source, [], [], []⟩

/-- The reads give what was produced, in order; they leave out unread samples only when there
are more than the ring holds. -/
inductive InOrder : List (List ℚ × List ℚ) → Nat → Prop where
  | nil : InOrder [] 0
  | snoc {reads : List (List ℚ × List ℚ)} {next first : Nat} {produced given : List ℚ} :
      InOrder reads next → next ≤ first → (next < first → bufferSize < produced.length - next) →
      first + given.length ≤ produced.length → given = (produced.drop first).take given.length →
      InOrder (reads ++ [(produced, given)]) (first + given.length)

structure Exact (t : Trace σ) : Prop where
  produced : t.produced = (Decimation.sums downsampleRate t.heard).map (· / (downsampleRate : ℚ))
  inOrder : ∃ next, InOrder t.reads next

/-! ## The rate -/

/-- What the counter and the accumulator hold when the chips are reset, as samples. -/
def lead (a : Audio σ) : List ℚ :=
  if a.sampleCounter = 0 then [] else a.accumulator :: List.replicate (a.sampleCounter - 1) 0

theorem lead_length (a : Audio σ) : a.lead.length = a.sampleCounter := by
  unfold lead
  split
  · next h => rw [h, List.length_nil]
  · next h => rw [List.length_cons, List.length_replicate, Nat.sub_add_cancel (by omega)]

theorem lead_sum (a : Audio σ) : a.lead.sum = a.accumulator := by
  unfold lead
  split
  · next h => rw [a.accumulator_eq h, List.sum_nil]
  · rw [List.sum_cons, List.sum_replicate, nsmul_zero, add_zero]

/-- A sample takes a tick more than the rate. -/
def period : Nat := downsampleRate + 1

/-- The samples are those of the blocks of `period` ticks, the first of which begins before the
reset. -/
structure Phase (lead : List ℚ) (t : Trace σ) : Prop where
  counter : t.audio.sampleCounter = (Decimation.rest period (lead ++ t.heard)).length
  accumulator : t.audio.accumulator = (Decimation.rest period (lead ++ t.heard)).sum
  produced :
    t.produced = (Decimation.sums period (lead ++ t.heard)).map (· / (downsampleRate : ℚ))

/-- What the next sample will be, if the tick completes it. -/
def next (sample : ℚ) (a : Audio σ) : ℚ := (a.accumulator + sample) / downsampleRate

structure Waits (sample : ℚ) (a b : Audio σ) : Prop where
  sampleCounter : b.sampleCounter = a.sampleCounter + 1
  accumulator : b.accumulator = a.accumulator + sample
  buffer : b.buffer = a.buffer
  readBuffIdx : b.readBuffIdx = a.readBuffIdx
  writeBuffIdx : b.writeBuffIdx = a.writeBuffIdx

structure Gives (sample : ℚ) (a b : Audio σ) : Prop where
  sampleCounter : b.sampleCounter = 0
  accumulator : b.accumulator = 0
  buffer :
    b.buffer = Function.update a.buffer (a.writeBuffIdx.toNat % bufferSize) (a.next sample)
  readBuffIdx : b.readBuffIdx = a.readBuffIdx
  writeBuffIdx : b.writeBuffIdx = a.writeBuffIdx + 1

theorem step_waits (t : Trace σ) (beeper : ℚ) (h : t.audio.sampleCounter + 1 < period) :
    (t.step source (.tick beeper)).produced = t.produced ∧
      Waits (t.audio.sample source beeper) t.audio (t.step source (.tick beeper)).audio := by
  have hnot : ¬downsampleRate < t.audio.sampleCounter + 1 := Nat.not_lt.mpr (Nat.le_of_lt_succ h)
  rw [Trace.step, tick, downsample, downsample, dif_neg hnot, dif_neg hnot]
  exact ⟨List.append_nil _, rfl, rfl, rfl, rfl, rfl⟩

theorem step_gives (t : Trace σ) (beeper : ℚ) (h : t.audio.sampleCounter + 1 = period) :
    (t.step source (.tick beeper)).produced =
        t.produced ++ [t.audio.next (t.audio.sample source beeper)] ∧
      Gives (t.audio.sample source beeper) t.audio (t.step source (.tick beeper)).audio := by
  have hlt : downsampleRate < t.audio.sampleCounter + 1 := h ▸ Nat.lt_succ_self downsampleRate
  rw [Trace.step, tick, downsample, downsample, dif_pos hlt, dif_pos hlt]
  exact ⟨rfl, rfl, rfl, rfl, rfl, rfl⟩

theorem sampleCounter_period (a : Audio σ) :
    a.sampleCounter + 1 < period ∨ a.sampleCounter + 1 = period :=
  Nat.lt_or_eq_of_le (Nat.succ_le_succ a.sampleCounter_le)

variable {source} {lead : List ℚ} {t : Trace σ}

theorem Phase.tick (h : Phase lead t) (beeper : ℚ) : Phase lead (t.step source (.tick beeper)) := by
  have hheard : lead ++ (t.step source (.tick beeper)).heard =
      lead ++ t.heard ++ [t.audio.sample source beeper] :=
    (List.append_assoc _ _ _).symm
  rcases sampleCounter_period t.audio with hlt | heq
  · have hrest : (Decimation.rest period (lead ++ t.heard)).length + 1 < period := h.counter ▸ hlt
    obtain ⟨hproduced, hwaits⟩ := step_waits source t beeper hlt
    constructor
    · rw [hheard, Decimation.rest_snoc _ hrest, hwaits.sampleCounter, h.counter, List.length_append,
        List.length_singleton]
    · rw [hheard, Decimation.rest_snoc _ hrest, hwaits.accumulator, h.accumulator, List.sum_append,
        List.sum_singleton]
    · rw [hheard, Decimation.sums_snoc _ hrest, hproduced, h.produced]
  · have hrest : (Decimation.rest period (lead ++ t.heard)).length + 1 = period := h.counter ▸ heq
    obtain ⟨hproduced, hgives⟩ := step_gives source t beeper heq
    constructor
    · rw [hheard, Decimation.rest_snoc_full _ hrest, hgives.sampleCounter, List.length_nil]
    · rw [hheard, Decimation.rest_snoc_full _ hrest, hgives.accumulator, List.sum_nil]
    · rw [hheard, Decimation.sums_snoc_full _ hrest, hproduced, h.produced, List.map_append,
        List.map_singleton, next, h.accumulator]

theorem Phase.step (h : Phase lead t) (event : Event) : Phase lead (t.step source event) := by
  cases event with
  | tick beeper => exact h.tick beeper
  | read maxSamples => exact ⟨h.counter, h.accumulator, h.produced⟩

theorem trace_snoc (a : Audio σ) (events : List Event) (event : Event) :
    trace source a (events ++ [event]) = (trace source a events).step source event := by
  rw [trace, List.foldl_append, List.foldl_cons, List.foldl_nil, trace]

variable (source) in
theorem trace_phase (a : Audio σ) (events : List Event) :
    Phase a.lead (trace source a events) := by
  induction events using List.reverseRecOn with
  | nil =>
      have hlt : a.lead.length / period = 0 := by
        rw [lead_length]
        exact Nat.div_eq_of_lt (Nat.lt_succ_of_le a.sampleCounter_le)
      have hrest : Decimation.rest period (a.lead ++ []) = a.lead := by
        rw [List.append_nil, Decimation.rest, hlt, Nat.mul_zero, List.drop_zero]
      constructor
      · rw [trace, List.foldl_nil, hrest, lead_length, reset]
      · rw [trace, List.foldl_nil, hrest, lead_sum, reset]
      · rw [trace, List.foldl_nil, List.append_nil, Decimation.sums, hlt, List.range_zero,
          List.map_nil, List.map_nil]
  | append_singleton events event ih =>
      rw [trace_snoc]
      exact ih.step event

variable (source) in
theorem trace_rate (a : Audio σ) (events : List Event) :
    (trace source a events).produced.length =
      (a.sampleCounter + (trace source a events).heard.length) / period := by
  rw [(trace_phase source a events).produced, List.length_map, Decimation.sums_length,
    List.length_append, lead_length]

/-! ## The ring -/

def Trace.given (t : Trace σ) : Nat := (t.reads.map fun read => read.2.length).sum

structure Stored (t : Trace σ) : Prop where
  written : t.audio.writeBuffIdx = BitVec.ofNat 64 t.produced.length
  read : t.audio.readBuffIdx = BitVec.ofNat 64 t.given
  given_le : t.given ≤ t.produced.length
  newest : ∀ i < t.produced.length, t.produced.length ≤ i + bufferSize →
    t.produced[i]? = some (t.audio.buffer (i % bufferSize))
  inOrder : InOrder t.reads t.given

theorem Stored.step_tick (h : Stored t) (beeper : ℚ) (hlen : t.produced.length < 2 ^ 64) :
    Stored (t.step source (.tick beeper)) := by
  rcases sampleCounter_period t.audio with hlt | heq
  · obtain ⟨hproduced, hwaits⟩ := step_waits source t beeper hlt
    constructor
    · rw [hproduced, hwaits.writeBuffIdx, h.written]
    · exact hwaits.readBuffIdx.trans h.read
    · exact hproduced ▸ h.given_le
    · rw [hproduced, hwaits.buffer]
      exact h.newest
    · exact h.inOrder
  · obtain ⟨hproduced, hgives⟩ := step_gives source t beeper heq
    have hslot : t.audio.writeBuffIdx.toNat = t.produced.length := by
      rw [h.written, BitVec.toNat_ofNat, Nat.mod_eq_of_lt hlen]
    constructor
    · rw [hproduced, hgives.writeBuffIdx, h.written, List.length_append, List.length_singleton,
        BitVec.ofNat_add]
      rfl
    · exact hgives.readBuffIdx.trans h.read
    · rw [hproduced, List.length_append]
      exact Nat.le_add_right_of_le h.given_le
    · intro i hi hnew
      rw [hproduced, List.length_append, List.length_singleton] at hi hnew
      rw [hproduced, hgives.buffer, hslot]
      rcases Nat.lt_or_eq_of_le (Nat.le_of_lt_succ hi) with hold | hlast
      · have hother : i % bufferSize ≠ t.produced.length % bufferSize := by
          unfold bufferSize at hnew ⊢
          omega
        rw [List.getElem?_append_left hold, Function.update_of_ne hother]
        exact h.newest i hold (by omega)
      · rw [hlast, List.getElem?_concat_length, Function.update_self]
    · exact h.inOrder

def Room (t : Trace σ) : Prop := t.produced.length ≤ t.given + bufferSize

theorem Stored.unread (h : Stored t) :
    t.audio.writeBuffIdx - t.audio.readBuffIdx = BitVec.ofNat 64 (t.produced.length - t.given) := by
  have hsum : t.produced.length = t.produced.length - t.given + t.given :=
    (Nat.sub_add_cancel h.given_le).symm
  rw [h.written, h.read]
  conv_lhs => rw [hsum, BitVec.ofNat_add]
  rw [BitVec.add_sub_cancel]

theorem Stored.toRead_eq (h : Stored t) (hroom : Room t) (maxSamples : BitVec 32) :
    t.audio.toRead maxSamples = min (t.produced.length - t.given) maxSamples.toInt.toNat := by
  have hsmall : t.produced.length - t.given ≤ 4000 := Nat.sub_le_of_le_add (by rwa [Nat.add_comm])
  have htoNat : (BitVec.ofNat 32 (t.produced.length - t.given)).toNat =
      t.produced.length - t.given := by
    rw [BitVec.toNat_ofNat, Nat.mod_eq_of_lt (by omega)]
  have hint : (BitVec.ofNat 32 (t.produced.length - t.given)).toInt =
      ((t.produced.length - t.given : Nat) : Int) := by
    rw [BitVec.toInt_eq_toNat_of_lt (by omega), htoNat]
  rw [toRead, h.unread, BitVec.setWidth_ofNat_of_le (by decide), hint]
  omega

theorem Stored.readSamples_eq (h : Stored t) (hroom : Room t) (hlen : t.produced.length < 2 ^ 64)
    (maxSamples : BitVec 32) :
    (t.audio.readSamples maxSamples).1 =
      (t.produced.drop t.given).take (t.audio.toRead maxSamples) := by
  have hread := h.toRead_eq hroom maxSamples
  refine List.ext_getElem? fun i => ?_
  rw [readSamples, List.getElem?_map, List.getElem?_take, List.getElem?_drop]
  split
  · next hi =>
      have hslot : (t.audio.readBuffIdx + BitVec.ofNat 64 i).toNat = t.given + i := by
        rw [h.read, ← BitVec.ofNat_add, BitVec.toNat_ofNat, Nat.mod_eq_of_lt (by omega)]
      have hnew : t.produced.length ≤ t.given + i + bufferSize :=
        hroom.trans (Nat.add_le_add_right (Nat.le_add_right t.given i) bufferSize)
      rw [List.getElem?_range hi, Option.map_some, hslot, h.newest (t.given + i) (by omega) hnew]
  · next hi => rw [List.getElem?_eq_none (by rw [List.length_range]; omega), Option.map_none]

theorem Stored.step_read (h : Stored t) (hroom : Room t) (hlen : t.produced.length < 2 ^ 64)
    (maxSamples : BitVec 32) :
    Stored (t.step source (.read maxSamples)) := by
  have hread := h.toRead_eq hroom maxSamples
  have hgiven := h.readSamples_eq hroom hlen maxSamples
  have hlength : (t.audio.readSamples maxSamples).1.length = t.audio.toRead maxSamples := by
    rw [readSamples, List.length_map, List.length_range]
  have hcount : (t.step source (.read maxSamples)).given = t.given + t.audio.toRead maxSamples := by
    rw [Trace.step, Trace.given, List.map_append, List.map_singleton, List.sum_append,
      List.sum_singleton, hlength, Trace.given]
  have hle : t.given + t.audio.toRead maxSamples ≤ t.produced.length := by
    have hgiven_le := h.given_le
    omega
  constructor
  · exact h.written
  · rw [hcount, Trace.step, readSamples, h.read, BitVec.ofNat_add]
  · rw [hcount]
    exact hle
  · exact h.newest
  · have hsnoc := InOrder.snoc h.inOrder (Nat.le_refl t.given)
      (fun hlt => absurd hlt (Nat.lt_irrefl _)) (hlength ▸ hle) (hlength.symm ▸ hgiven)
    rw [hlength, ← hcount] at hsnoc
    exact hsnoc

theorem produced_le (t : Trace σ) (event : Event) :
    t.produced.length ≤ (t.step source event).produced.length := by
  cases event with
  | tick beeper =>
      rw [Trace.step, List.length_append]
      exact Nat.le_add_right _ _
  | read maxSamples => exact Nat.le_refl _

theorem trace_stored {a : Audio σ} {events : List Event}
    (hroom : ∀ sofar, sofar <+: events → Room (trace source a sofar))
    (hlen : (trace source a events).produced.length < 2 ^ 64) : Stored (trace source a events) := by
  induction events using List.reverseRecOn with
  | nil => exact ⟨rfl, rfl, Nat.le_refl 0, nofun, .nil⟩
  | append_singleton events event ih =>
      rw [trace_snoc] at hlen ⊢
      have hbefore := Nat.lt_of_le_of_lt (produced_le _ event) hlen
      have hstored := ih (fun sofar h => hroom sofar (h.trans (List.prefix_append _ _))) hbefore
      cases event with
      | tick beeper => exact hstored.step_tick beeper hbefore
      | read maxSamples =>
          exact hstored.step_read (hroom events (List.prefix_append _ _)) hbefore maxSamples

/-! ## Calls -/

def Call.ticks : Call → Nat
  | .clock cycles _ => cycles.toNat
  | .readSamples _ => 0

def ticks (calls : List Call) : Nat := (calls.map Call.ticks).sum

variable (source) in
theorem heard_length (a : Audio σ) (events : List Event) :
    (trace source a events).heard.length = events.countP Event.isTick := by
  induction events using List.reverseRecOn with
  | nil => rfl
  | append_singleton events event ih =>
      rw [trace_snoc, List.countP_append, ← ih]
      cases event with
      | tick beeper => exact List.length_append
      | read maxSamples => rfl

variable (source) in
theorem calls_heard (a : Audio σ) (calls : List Call) :
    (trace source a (calls.flatMap Call.events)).heard.length = ticks calls := by
  rw [heard_length, List.countP_flatMap, ticks]
  congr 1
  refine List.map_congr_left fun call _ => ?_
  cases call with
  | clock cycles beeper => exact List.countP_replicate
  | readSamples maxSamples => rfl

variable (source) in
theorem ticks_audio (t : Trace σ) (n : Nat) (beeper : ℚ) :
    ((List.replicate n (Event.tick beeper)).foldl (Trace.step source) t).audio =
      (tick source beeper)^[n] t.audio := by
  induction n generalizing t with
  | zero => rfl
  | succ n ih =>
      rw [List.replicate_succ, List.foldl_cons, ih, Function.iterate_succ_apply, Trace.step]

variable (source) in
theorem calls_audio (t : Trace σ) (calls : List Call) :
    ((calls.flatMap Call.events).foldl (Trace.step source) t).audio =
      calls.foldl (Call.run source) t.audio := by
  induction calls generalizing t with
  | nil => rfl
  | cons call calls ih =>
      rw [List.flatMap_cons, List.foldl_append, ih, List.foldl_cons]
      congr 1
      cases call with
      | clock cycles beeper => exact ticks_audio source t cycles.toNat beeper
      | readSamples maxSamples => rfl

variable (source) in
theorem exists_heard (a : Audio σ) (events : List Event) {n : Nat}
    (h : n ≤ (trace source a events).heard.length) :
    ∃ sofar, sofar <+: events ∧ (trace source a sofar).heard.length = n := by
  induction events using List.reverseRecOn with
  | nil => exact ⟨[], List.prefix_rfl, (Nat.le_zero.mp h).symm⟩
  | append_singleton events event ih =>
      rcases Nat.lt_or_ge (trace source a events).heard.length n with hlt | hge
      · refine ⟨_, List.prefix_rfl, Nat.le_antisymm ?_ h⟩
        rw [heard_length, List.countP_append, ← heard_length source a]
        have hone := List.countP_le_length (p := Event.isTick) (l := [event])
        rw [List.length_singleton] at hone
        omega
      · obtain ⟨sofar, hsofar, hn⟩ := ih hge
        exact ⟨sofar, hsofar.trans (List.prefix_append _ _), hn⟩

/-! ## Exactness -/

/-- The ticks come to no sample, or to one that begins with a silent tick from before the
reset. -/
def Short (a : Audio σ) (calls : List Call) : Prop :=
  ticks calls < downsampleRate ∧ a.sampleCounter + ticks calls ≤ downsampleRate ∨
    a.sampleCounter = 1 ∧ a.accumulator = 0 ∧ ticks calls < 2 * downsampleRate

theorem Phase.first {lead : List ℚ} {t : Trace σ} (h : Phase lead t) (hlead : lead.length = 1)
    (hle : downsampleRate ≤ t.heard.length) (hlt : t.heard.length < 2 * downsampleRate) :
    t.produced = [(lead.sum + (t.heard.take downsampleRate).sum) / downsampleRate] := by
  have hlength : (lead ++ t.heard).length = t.heard.length + 1 := by
    rw [List.length_append, hlead, Nat.add_comm]
  have htake : (lead ++ t.heard).take period = lead ++ t.heard.take downsampleRate := by
    rw [List.take_append, hlead, period, Nat.add_sub_cancel, List.take_of_length_le (by omega)]
  have hone : Decimation.sums period (lead ++ t.heard) =
      [(lead ++ t.heard.take downsampleRate).sum] := by
    rw [← htake]
    exact Decimation.sums_one (by rw [hlength]; exact Nat.succ_le_succ hle)
      (by rw [hlength, period]; omega)
  rw [h.produced, hone, List.map_singleton, List.sum_append]

theorem short_of_exact {a : Audio σ} {calls : List Call}
    (hexact : ∀ sofar, sofar <+: calls.flatMap Call.events → Exact (trace source a sofar)) :
    Short a calls := by
  have hrate : downsampleRate = 30 := rfl
  have hcounter := a.sampleCounter_le
  have hticks := calls_heard source a calls
  have hcount : ∀ n ≤ ticks calls, (a.sampleCounter + n) / 31 = n / 30 := by
    intro n hn
    obtain ⟨sofar, hsofar, hheard⟩ := exists_heard source a _ (hn.trans_eq hticks.symm)
    have hlength := congrArg List.length (hexact sofar hsofar).produced
    rwa [trace_rate, List.length_map, Decimation.sums_length, hheard] at hlength
  rw [hrate] at hcounter
  rcases Nat.lt_or_ge (ticks calls) 30 with hlt | hge
  · have hall := hcount (ticks calls) (Nat.le_refl _)
    refine Or.inl ⟨hlt, ?_⟩
    rw [hrate]
    omega
  · have hone : a.sampleCounter = 1 := by
      have hbefore := hcount 29 (by omega)
      have hfirst := hcount 30 hge
      omega
    have hsilent : a.accumulator = 0 := by
      obtain ⟨sofar, hsofar, hheard⟩ := exists_heard source a _ (hge.trans_eq hticks.symm)
      have hfirst := (trace_phase source a sofar).first (a.lead_length.trans hone)
        (hrate.trans hheard.symm).le (by rw [hheard, hrate]; decide)
      rw [(hexact sofar hsofar).produced, Decimation.sums_one (hrate.trans hheard.symm).le
        (by rw [hheard, hrate]; decide), List.map_singleton, lead_sum] at hfirst
      have hmean := (List.cons.inj hfirst).1
      rw [hrate] at hmean
      push_cast at hmean
      linarith
    refine Or.inr ⟨hone, hsilent, Nat.lt_of_not_le fun hlong => ?_⟩
    have htwo := hcount 60 hlong
    omega

section

variable {a : Audio σ} {events : List Event}
  (h : (trace source a events).heard.length < 2 * downsampleRate)

include h

theorem produced_le_two : (trace source a events).produced.length ≤ 2 := by
  have hcounter := a.sampleCounter_le
  have hrate : downsampleRate = 30 := rfl
  rw [trace_rate, period, hrate]
  omega

theorem inOrder_of_few : ∃ next, InOrder (trace source a events).reads next := by
  have hroom : ∀ sofar, sofar <+: events → Room (trace source a sofar) := by
    intro sofar hsofar
    have hheard : (trace source a sofar).heard.length ≤ (trace source a events).heard.length := by
      rw [heard_length, heard_length]
      exact hsofar.sublist.countP_le
    have htwo : (trace source a sofar).produced.length ≤ 2 :=
      produced_le_two (Nat.lt_of_le_of_lt hheard h)
    exact (htwo.trans (show 2 ≤ bufferSize by decide)).trans (Nat.le_add_left _ _)
  exact ⟨_, (trace_stored hroom (Nat.lt_of_le_of_lt (produced_le_two h) (by decide))).inOrder⟩

end

theorem exact_of_short {a : Audio σ} {calls : List Call} (h : Short a calls) {sofar : List Event}
    (hsofar : sofar <+: calls.flatMap Call.events) : Exact (trace source a sofar) := by
  have hheard : (trace source a sofar).heard.length ≤ ticks calls := by
    rw [← calls_heard source a, heard_length, heard_length]
    exact hsofar.sublist.countP_le
  have hrate : downsampleRate = 30 := rfl
  have hfew : (trace source a sofar).heard.length < 2 * downsampleRate := by
    rcases h with ⟨hlt, -⟩ | ⟨-, -, hlt⟩ <;> omega
  refine ⟨?_, inOrder_of_few hfew⟩
  rcases Nat.lt_or_ge (trace source a sofar).heard.length downsampleRate with hlt | hge
  · have hnone : (trace source a sofar).produced.length = 0 := by
      rw [trace_rate, period, hrate]
      rcases h with ⟨-, hle⟩ | ⟨hone, -, -⟩ <;> omega
    rw [List.eq_nil_of_length_eq_zero hnone, Decimation.sums_nil hlt, List.map_nil]
  · rcases h with ⟨hshort, -⟩ | ⟨hone, hsilent, -⟩
    · omega
    · rw [(trace_phase source a sofar).first (a.lead_length.trans hone) hge hfew, lead_sum, hsilent,
        zero_add, Decimation.sums_one hge hfew, List.map_singleton]

theorem exact_iff (a : Audio σ) (calls : List Call) :
    (∀ sofar, sofar <+: calls.flatMap Call.events → Exact (trace source a sofar)) ↔
      Short a calls :=
  ⟨short_of_exact, fun h _ hsofar => exact_of_short h hsofar⟩

/-- Thirty ticks after a start give no sample. -/
theorem thirtyTicks_not_exact :
    ¬∀ (source : SoundSource Unit) (a : Audio Unit) (calls : List Call) (sofar : List Event),
      sofar <+: calls.flatMap Call.events → Exact (trace source a sofar) := by
  intro h
  let silent : SoundSource Unit := ⟨id, fun s => (0, s)⟩
  let fresh : Audio Unit :=
    { sound := (), muteMul := 1, buffer := fun _ => 0, readBuffIdx := 0, writeBuffIdx := 0
      sampleCounter := 0, accumulator := 0, sampleCounter_le := by decide
      accumulator_eq := fun _ => rfl }
  have hexact := h silent fresh [.clock 30 0] _ List.prefix_rfl
  have hlength := congrArg List.length hexact.produced
  rw [trace_rate, List.length_map, Decimation.sums_length, calls_heard] at hlength
  exact absurd hlength (by decide)

end Audio

end V6Emul
