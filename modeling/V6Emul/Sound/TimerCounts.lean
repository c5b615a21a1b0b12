import V6Emul.Sound.Timer

/-!
# Counts that a program reads and waits for

A latched count is read in two bytes, between which the counter runs on.  A counter in mode 0
tells a program when its count has passed.
-/

namespace V6Emul

namespace CounterUnit

variable {c : CounterUnit}

/-! ## Reading -/

def setReading (latchValue : Int) (writeState : Nat) (c : CounterUnit) : CounterUnit :=
  { c with latchValue := latchValue, writeState := writeState }

theorem clockMode_setReading (l : Int) (w : Nat) (c : CounterUnit) :
    ((c.setReading l w).clockMode 1).2 = (c.clockMode 1).2.setReading l w := by
  unfold clockMode setReading
  dsimp only
  split
  · simp only [clockTerminalCount]
    split_ifs <;> rfl
  · simp only [clockOneShot, reload]
    split_ifs <;> rfl
  · simp only [clockRateGenerator, enable, reload]
    split_ifs <;> rfl
  · simp only [clockSquareWave, enable, squareStep, reload]
    split_ifs <;> rfl
  · rfl

theorem tick_setReading (l : Int) (w : Nat) (c : CounterUnit) :
    (c.setReading l w).tick = c.tick.setReading l w := by
  have hmode := clockMode_setReading l w c
  have hdelay : (c.setReading l w).delay = c.delay := rfl
  have henabled : (c.setReading l w).flagEnabled = c.flagEnabled := rfl
  have hload : (c.setReading l w).flagLoad = c.flagLoad := rfl
  simp only [tick, clock, hmode, hdelay, henabled, hload]
  split_ifs <;> rfl

theorem ticks_setReading (l : Int) (w n : Nat) (c : CounterUnit) :
    tick^[n] (c.setReading l w) = (tick^[n] c).setReading l w := by
  induction n generalizing c with
  | zero => rfl
  | succ n ih => rw [Function.iterate_succ_apply, Function.iterate_succ_apply, tick_setReading, ih]

theorem clockMode_frame (c : CounterUnit) :
    (c.clockMode 1).2.latchMode = c.latchMode ∧ (c.clockMode 1).2.flagBcd = c.flagBcd := by
  unfold clockMode
  split
  · simp only [clockTerminalCount]
    split_ifs <;> exact ⟨rfl, rfl⟩
  · simp only [clockOneShot, reload]
    split_ifs <;> exact ⟨rfl, rfl⟩
  · simp only [clockRateGenerator, enable, reload]
    split_ifs <;> exact ⟨rfl, rfl⟩
  · simp only [clockSquareWave, enable, reload]
    split_ifs <;> exact ⟨rfl, rfl⟩
  · exact ⟨rfl, rfl⟩

theorem tick_frame (c : CounterUnit) :
    c.tick.latchMode = c.latchMode ∧ c.tick.flagBcd = c.flagBcd := by
  simp only [tick, clock]
  split
  · exact ⟨rfl, rfl⟩
  · split
    · exact ⟨rfl, rfl⟩
    · split
      · exact ⟨rfl, rfl⟩
      · exact clockMode_frame c

theorem ticks_frame (n : Nat) (c : CounterUnit) :
    (tick^[n] c).latchMode = c.latchMode ∧ (tick^[n] c).flagBcd = c.flagBcd := by
  induction n generalizing c with
  | zero => exact ⟨rfl, rfl⟩
  | succ n ih =>
      obtain ⟨hmode, hbcd⟩ := tick_frame c
      obtain ⟨hmode', hbcd'⟩ := ih c.tick
      exact ⟨hmode'.trans hmode, hbcd'.trans hbcd⟩

/-- The bytes of a value as a reading shows it. -/
def shown (flagBcd : Bool) (value : Int) : Int :=
  if flagBcd then (toBcd (BitVec.ofInt 16 value)).toNat else value

theorem shownValue_setReading {l : Int} (hlatched : l ≠ -1) (w : Nat) (c : CounterUnit) :
    (c.setReading l w).shownValue = shown c.flagBcd l := by
  simp [shownValue, setReading, shown, hlatched]

theorem read_low {l : Int} (hlatched : l ≠ -1) (hmode : c.latchMode = 3) :
    (c.setReading l 0).read = (shown c.flagBcd l % 256, c.setReading l 1) := by
  have hshown := shownValue_setReading hlatched 0 c
  have hmode' : (c.setReading l 0).latchMode = 3 := hmode
  have hstate : (c.setReading l 0).writeState = 0 := rfl
  simp only [read, hmode', hstate, hshown]
  rw [← hmode]
  rfl

theorem read_high {l : Int} (hlatched : l ≠ -1) (hmode : c.latchMode = 3) :
    (c.setReading l 1).read = (shown c.flagBcd l / 256 % 256, c.setReading (-1) 0) := by
  have hshown := shownValue_setReading hlatched 1 c
  have hmode' : (c.setReading l 1).latchMode = 3 := hmode
  have hstate : (c.setReading l 1).writeState = 1 := rfl
  simp only [read, hmode', hstate, hshown]
  rw [← hmode]
  rfl

/-- The two bytes of a reading, with ticks between the latch and them. -/
def readLatched (m n : Nat) (c : CounterUnit) : (Int × Int) × CounterUnit :=
  let first := (tick^[m] c.latch).read
  let second := (tick^[n] first.2).read
  ((first.1, second.1), second.2)

/--
However many ticks pass between a latch and its two bytes, these are the bytes of the
count at the latch, and the counter runs on as if it had not been read.
-/
theorem readLatched_eq (hmode : c.latchMode = 3) (hstate : c.writeState = 0)
    (hcount : c.tick.value ≠ -1) (m n : Nat) :
    c.readLatched m n =
      ((shown c.flagBcd c.tick.value % 256, shown c.flagBcd c.tick.value / 256 % 256),
        (tick^[m + n] { c.tick with delay := latchDelay }).setReading (-1) 0) := by
  have hsame : c.setReading c.latchValue 0 = c := by
    rw [← hstate]
    rfl
  have hstate' : c.tick.writeState = 0 := by
    have hkeeps := tick_setReading c.latchValue 0 c
    rw [hsame] at hkeeps
    exact congrArg writeState hkeeps
  obtain ⟨htickMode, htickBcd⟩ := tick_frame c
  have hlatch : c.latch =
      ({ c.tick with delay := latchDelay } : CounterUnit).setReading c.tick.value 0 := by
    rw [latch, setReading, ← hstate']
    rfl
  generalize hbase : ({ c.tick with delay := latchDelay } : CounterUnit) = base at hlatch ⊢
  have hframe : base.latchMode = 3 ∧ base.flagBcd = c.flagBcd := by
    rw [← hbase]
    exact ⟨htickMode.trans hmode, htickBcd⟩
  have hticks := fun k => ticks_frame k base
  have hfirst : (tick^[m] c.latch).read =
      (shown c.flagBcd c.tick.value % 256, (tick^[m] base).setReading c.tick.value 1) := by
    rw [hlatch, ticks_setReading, read_low hcount ((hticks m).1.trans hframe.1), (hticks m).2,
      hframe.2]
  have hsecond : (tick^[n] ((tick^[m] base).setReading c.tick.value 1)).read =
      (shown c.flagBcd c.tick.value / 256 % 256, (tick^[m + n] base).setReading (-1) 0) := by
    rw [ticks_setReading, ← Function.iterate_add_apply, Nat.add_comm n m,
      read_high hcount ((hticks (m + n)).1.trans hframe.1), (hticks (m + n)).2, hframe.2]
  rw [readLatched, hfirst]
  dsimp only
  rw [hsecond]

/-! ## Decimal counts -/

theorem or_shiftLeft {a b i : Nat} (h : b < 2 ^ i) : b ||| a <<< i = b + a * 2 ^ i := by
  rw [Nat.or_comm, ← Nat.shiftLeft_add_eq_or_of_lt h, Nat.shiftLeft_eq, Nat.add_comm]

theorem toNat_toBcd (x : BitVec 16) :
    (toBcd x).toNat = x.toNat % 10 + x.toNat / 10 % 10 * 16 + x.toNat / 100 % 10 * 256 +
      x.toNat / 1000 % 10 * 4096 := by
  have hdigit : ∀ i < 4, (BitVec.ofNat 16 (x.toNat / 10 ^ i % 10) <<< (4 * i)).toNat =
      (x.toNat / 10 ^ i % 10) <<< (4 * i) := by
    intro i hi
    have hpower : 2 ^ (4 * i) ≤ 2 ^ 12 := Nat.pow_le_pow_right (by decide) (by omega)
    have hlt : x.toNat / 10 ^ i % 10 < 2 ^ 16 := by omega
    have hproduct : x.toNat / 10 ^ i % 10 * 2 ^ (4 * i) ≤ 9 * 2 ^ 12 :=
      Nat.mul_le_mul (by omega) hpower
    have hfits : x.toNat / 10 ^ i % 10 * 2 ^ (4 * i) < 2 ^ 16 := by omega
    rw [BitVec.toNat_shiftLeft, BitVec.toNat_ofNat, Nat.mod_eq_of_lt hlt, Nat.shiftLeft_eq,
      Nat.mod_eq_of_lt hfits]
  have hone : x.toNat % 10 < 2 ^ 4 := by omega
  have htwo : x.toNat % 10 + x.toNat / 10 % 10 * 2 ^ 4 < 2 ^ 8 := by omega
  have hthree : x.toNat % 10 + x.toNat / 10 % 10 * 2 ^ 4 + x.toNat / 100 % 10 * 2 ^ 8 < 2 ^ 12 := by
    omega
  simp only [toBcd, BitVec.toNat_or]
  rw [hdigit 0 (by decide), hdigit 1 (by decide), hdigit 2 (by decide), hdigit 3 (by decide)]
  simp only [Nat.reducePow, Nat.div_one, Nat.mul_zero, Nat.shiftLeft_zero, Nat.reduceMul]
  rw [or_shiftLeft hone, or_shiftLeft htwo, or_shiftLeft hthree]
  simp only [Nat.reducePow]

theorem toNat_fromBcd (x : BitVec 16) :
    (fromBcd x).toNat = min 9 (x.toNat / 4096 % 16) * 1000 + min 9 (x.toNat / 256 % 16) * 100 +
      min 9 (x.toNat / 16 % 16) * 10 + min 9 (x.toNat % 16) := by
  have hdigit : ∀ i, (x >>> (4 * i) &&& 0xF#16).toNat = x.toNat / 16 ^ i % 16 := by
    intro i
    have hmask : (0xF#16).toNat = 2 ^ 4 - 1 := rfl
    rw [BitVec.toNat_and, BitVec.toNat_ushiftRight, hmask, Nat.and_two_pow_sub_one_eq_mod,
      Nat.shiftRight_eq_div_pow, Nat.pow_mul]
  simp only [fromBcd, hdigit, BitVec.toNat_ofNat, Nat.reducePow, Nat.div_one]
  omega

theorem digit_above {low width digit : Nat} (rest : Nat) (hlow : low < width)
    (hdigit : digit < 16) :
    (low + width * (digit + 16 * rest)) / width % 16 = digit := by
  rw [Nat.add_mul_div_left _ _ (by omega), Nat.div_eq_of_lt hlow]
  omega

theorem fromBcd_toBcd (x : BitVec 16) : (fromBcd (toBcd x)).toNat = x.toNat % 10000 := by
  have hdecimal : x.toNat % 10000 = x.toNat / 1000 % 10 * 1000 + x.toNat / 100 % 10 * 100 +
      x.toNat / 10 % 10 * 10 + x.toNat % 10 := by omega
  have hdigit : ∀ n : Nat, n % 10 < 10 := fun n => Nat.mod_lt n (by decide)
  have hones := hdigit x.toNat
  have htens := hdigit (x.toNat / 10)
  have hhundreds := hdigit (x.toNat / 100)
  have hthousands := hdigit (x.toNat / 1000)
  rw [toNat_fromBcd, toNat_toBcd, hdecimal]
  clear hdecimal hdigit
  generalize x.toNat / 1000 % 10 = a at *
  generalize x.toNat / 100 % 10 = b at *
  generalize x.toNat / 10 % 10 = c at *
  generalize x.toNat % 10 = d at *
  have hlower : d + c * 16 + b * 256 + a * 4096 = d + 16 * (c + 16 * (b + 16 * a)) := by omega
  have hmiddle : d + c * 16 + b * 256 + a * 4096 = d + c * 16 + 256 * (b + 16 * a) := by omega
  have hupper : d + c * 16 + b * 256 + a * 4096 = d + c * 16 + b * 256 + 4096 * (a + 16 * 0) := by
    omega
  have hlow : (d + c * 16 + b * 256 + a * 4096) % 16 = d := by omega
  have hsecond : (d + c * 16 + b * 256 + a * 4096) / 16 % 16 = c := by
    rw [hlower]
    exact digit_above _ (by omega) (by omega)
  have hthird : (d + c * 16 + b * 256 + a * 4096) / 256 % 16 = b := by
    rw [hmiddle]
    exact digit_above _ (by omega) (by omega)
  have hfourth : (d + c * 16 + b * 256 + a * 4096) / 4096 % 16 = a := by
    rw [hupper]
    exact digit_above _ (by omega) (by omega)
  rw [hlow, hsecond, hthird, hfourth, Nat.min_eq_right (Nat.le_of_lt_succ hthousands),
    Nat.min_eq_right (Nat.le_of_lt_succ hhundreds), Nat.min_eq_right (Nat.le_of_lt_succ htens),
    Nat.min_eq_right (Nat.le_of_lt_succ hones)]

/--
A program that latches a counter and reads it in two bytes, however many ticks pass in
between, gets the count at the latch, in binary or in decimal digits, and the counter
runs on as if it had not been read.
-/
theorem readLatched_count (hmode : c.latchMode = 3) (hstate : c.writeState = 0)
    (hrange : 0 ≤ c.tick.value ∧ c.tick.value ≤ max 65535 (fullCount c.flagBcd)) (m n : Nat) :
    let reading := c.readLatched m n
    let word := BitVec.ofInt 16 (reading.1.1 + 256 * reading.1.2)
    ((if c.flagBcd then fromBcd word else word).toNat : Int) =
        c.tick.value % fullCount c.flagBcd ∧
      reading.2 = (tick^[m + n] { c.tick with delay := latchDelay }).setReading (-1) 0 := by
  obtain ⟨hle, hlt⟩ := hrange
  have hcount : c.tick.value ≠ -1 := by omega
  have hbytes : ∀ v : Int, v % 256 + 256 * (v / 256 % 256) = v % 65536 := by
    intro v
    omega
  dsimp only
  rw [readLatched_eq hmode hstate hcount]
  refine ⟨?_, rfl⟩
  cases hbcd : c.flagBcd with
  | true =>
      rw [hbcd] at hlt
      simp only [fullCount, if_true] at hlt
      have hvalue : (BitVec.ofInt 16 c.tick.value).toNat = c.tick.value.toNat := by
        rw [BitVec.toNat_ofInt]
        omega
      have hword : ∀ x : BitVec 16, BitVec.ofInt 16 ((x.toNat : Int) % 65536) = x := by
        intro x
        have hx : (x.toNat : Int) % 65536 = x.toNat := by
          have hlt := x.isLt
          omega
        rw [hx]
        simp
      simp only [shown, if_true, hbytes, hword, fromBcd_toBcd, hvalue, fullCount]
      omega
  | false =>
      simp only [shown, Bool.false_eq_true, if_false, hbytes, BitVec.toNat_ofInt, fullCount]
      omega

def running : CounterUnit :=
  tick^[10] (((reset.setMode 2 3 false).write 0xE8).write 0x03)

theorem readLatched_running :
    let reading := running.readLatched 3 5
    let word := BitVec.ofInt 16 (reading.1.1 + 256 * reading.1.2)
    ((if running.flagBcd then fromBcd word else word).toNat : Int) = 992 :=
  (readLatched_count (c := running) rfl rfl (by decide) 3 5).1.trans (by decide)

/-! ## Mode 0 -/

/-- A counter is programmed to mode 0, rests, gets its count and waits out the load delay. -/
def armed (flagBcd : Bool) (idle : Nat) (count : Count) (c : CounterUnit) : CounterUnit :=
  tick^[3] (count.writeTo (tick^[idle] (c.setMode 0 count.latchMode flagBcd)))

def toMode0 (c : CounterUnit) : CounterUnit :=
  { c with modeInt := 0, out := false, flagArmed := true }

theorem setMode_toMode0 (latchMode : Nat) (flagBcd : Bool) (c : CounterUnit) :
    c.setMode 0 latchMode flagBcd = (c.setMode 3 latchMode flagBcd).toMode0 := by
  simp [setMode, toMode0]

section

variable {latchMode writeState : Nat} {flagBcd : Bool}

theorem Idle.tick_toMode0 (h : Idle latchMode writeState flagBcd c) :
    c.toMode0.tick = c.tick.toMode0 := by
  by_cases hdelay : c.delay = 0
  · rw [tick_rests hdelay h.flagEnabled h.flagLoad]
    exact tick_rests (c := c.toMode0) hdelay h.flagEnabled h.flagLoad
  · rw [tick_delay hdelay]
    exact tick_delay (c := c.toMode0) hdelay

theorem Idle.ticks_toMode0 (h : Idle latchMode writeState flagBcd c) (n : Nat) :
    CounterUnit.tick^[n] c.toMode0 = (CounterUnit.tick^[n] c).toMode0 := by
  induction n generalizing c with
  | zero => rfl
  | succ n ih =>
      rw [Function.iterate_succ_apply, Function.iterate_succ_apply, h.tick_toMode0, ih h.tick]

theorem writeByte_toMode0 (w8 : Byte) (c : CounterUnit) :
    c.toMode0.writeByte w8 = (c.writeByte w8).toMode0 := by
  simp only [writeByte, toMode0]
  repeat' split
  all_goals rfl

theorem Idle.write_toMode0 (h : Idle latchMode writeState flagBcd c) (w8 : Byte) :
    c.toMode0.write w8 = (c.write w8).toMode0 := by
  have hbyte := writeByte_toMode0 w8 c
  have hmode : (c.writeByte w8).modeInt = 3 ∧ (c.writeByte w8).flagEnabled = false := by
    obtain ⟨hmode, -, henabled, -⟩ := h
    simp only [writeByte]
    repeat' split
    all_goals exact ⟨hmode, henabled⟩
  have hload : (c.writeByte w8).toMode0.flagLoad = (c.writeByte w8).flagLoad := rfl
  have hzero : (c.writeByte w8).toMode0.modeInt = 0 := rfl
  simp only [write, hbyte, hload]
  split
  · simp only [delayLoad, hmode.1, hmode.2, hzero, Bool.false_eq_true, if_false]
    simp only [toMode0, hmode.2]
  · rfl

theorem Waiting.tick_toMode0 {loadValue : BitVec 16} {delay : Nat}
    (h : Waiting loadValue flagBcd (delay + 1) c) : c.toMode0.tick = c.tick.toMode0 := by
  have hdelay : c.delay ≠ 0 := by simp [h.delay]
  rw [tick_delay hdelay]
  exact tick_delay (c := c.toMode0) hdelay

theorem Idle.write_first (h : Idle 3 0 flagBcd c) (low : Byte) :
    Idle 3 1 flagBcd (c.write low) := by
  have hlow : c.write low = { c with writeLsb := low, writeState := 1 } := by
    rw [write, writeByte, h.latchMode, h.writeState]
    exact if_neg (by simp [h.flagLoad])
  rw [hlow]
  exact ⟨h.modeInt, h.out, h.flagEnabled, h.flagLoad, h.latchMode, rfl, h.flagBcd⟩

theorem armed_eq (flagBcd : Bool) (idle : Nat) (count : Count) (c : CounterUnit) :
    armed flagBcd idle count c = (loaded flagBcd idle count c).toMode0 := by
  have hset := setMode_idle count.latchMode flagBcd c
  have hidle := hset.ticks idle
  have hwaits : ∀ d : CounterUnit, Waiting (count.value flagBcd) flagBcd 3 d →
      CounterUnit.tick^[3] d.toMode0 = (CounterUnit.tick^[3] d).toMode0 := by
    intro d hd
    show d.toMode0.tick.tick.tick = d.tick.tick.tick.toMode0
    rw [hd.tick_toMode0, hd.tick.tick_toMode0, hd.tick.tick.tick_toMode0]
  rw [armed, loaded, setMode_toMode0, hset.ticks_toMode0]
  cases count with
  | lsb low =>
      rw [Count.writeTo, hidle.write_toMode0]
      exact hwaits _ (hidle.write_low low)
  | msb high =>
      rw [Count.writeTo, hidle.write_toMode0]
      exact hwaits _ (hidle.write_high high)
  | both low high between =>
      have hfirst := hidle.write_first low
      rw [Count.writeTo, hidle.write_toMode0, hfirst.ticks_toMode0,
        (hfirst.ticks between).write_toMode0]
      exact hwaits _ (hidle.write_both low high between)

/-- Behind `n` ticks of mode 0, the first of which has loaded the count. -/
structure Counted (count : BitVec 16) (n : Nat) (c : CounterUnit) : Prop where
  modeInt : c.modeInt = 0
  delay : c.delay = 0
  flagLoad : c.flagLoad = false
  flagEnabled : c.flagEnabled = true
  flagArmed : c.flagArmed = decide (n < count.toNat)
  out : c.out = decide (0 < count.toNat ∧ count.toNat ≤ n)
  value : n < count.toNat → c.value = count.toNat - n

theorem Counted.first {count : BitVec 16} (h : Waiting count flagBcd 0 c) :
    Counted count 1 c.toMode0.tick := by
  have htick := tick_counts (c := c.toMode0) h.delay (.inr h.flagLoad)
  have hmode : c.toMode0.modeInt = 0 := rfl
  have hload : c.toMode0.flagLoad = true := h.flagLoad
  have hvalue : c.toMode0.loadValue = count := h.loadValue
  rw [tick, htick]
  simp only [clockMode, hmode, clockTerminalCount, hload, hvalue, if_true]
  split
  · rename_i hended
    refine ⟨rfl, h.delay, rfl, rfl, ?_, ?_, ?_⟩
    · simp
      omega
    · rcases Nat.eq_zero_or_pos count.toNat with hzero | hpos
      · simp [hzero]
      · have hone : count.toNat = 1 := by omega
        simp [hone]
    · intro hlt
      omega
  · rename_i hruns
    refine ⟨rfl, h.delay, rfl, rfl, ?_, ?_, ?_⟩
    · simp
      omega
    · simp
      omega
    · intro hlt
      simp

theorem Counted.tick {count : BitVec 16} {n : Nat} (h : Counted count n c) :
    Counted count (n + 1) c.tick := by
  have htick := tick_counts h.delay (.inl h.flagEnabled)
  have hvalue := h.value
  rw [CounterUnit.tick, htick]
  simp only [clockMode, h.modeInt, clockTerminalCount, h.flagLoad, h.flagEnabled, if_true,
    Bool.false_eq_true, if_false]
  by_cases hlt : n < count.toNat
  · have hcount := hvalue hlt
    have hne : c.value ≠ 0 := by omega
    split
    · refine ⟨rfl, h.delay, rfl, rfl, ?_, ?_, ?_⟩
      · simp
        omega
      · have hpos : 0 < count.toNat ∧ count.toNat ≤ n + 1 := by omega
        simp [h.flagArmed, hlt, hne, hpos]
      · intro hlater
        omega
    · refine ⟨rfl, h.delay, rfl, rfl, ?_, ?_, ?_⟩
      · have hlater : n + 1 < count.toNat := by omega
        simp [h.flagArmed, hlt, hlater]
      · have hbefore : ¬ count.toNat ≤ n ∧ ¬ count.toNat ≤ n + 1 := by omega
        simp [h.out, hbefore]
      · intro hlater
        simp
        omega
  · have hended :
        (0 < count.toNat ∧ count.toNat ≤ n) ↔ (0 < count.toNat ∧ count.toNat ≤ n + 1) := by
      omega
    have hover : ¬ n + 1 < count.toNat := by omega
    split
    · refine ⟨rfl, h.delay, rfl, rfl, ?_, ?_, fun hlater => absurd hlater hover⟩
      · simp [hover]
      · simp [h.flagArmed, hlt, h.out, hended]
    · refine ⟨rfl, h.delay, rfl, rfl, ?_, ?_, fun hlater => absurd hlater hover⟩
      · simp [h.flagArmed, hlt, hover]
      · simp [h.out, hended]

/--
The output of mode 0 is low for as many ticks as the count says, and high from then on.
With a count of zero it stays low for ever.
-/
theorem armed_output (flagBcd : Bool) (idle : Nat) (count : Count) (c : CounterUnit) (n : Nat) :
    (CounterUnit.tick^[n] (armed flagBcd idle count c)).out =
      decide (0 < (count.value flagBcd).toNat ∧ (count.value flagBcd).toNat ≤ n) := by
  have hloaded := loaded_waiting flagBcd idle count c
  rw [armed_eq]
  generalize loaded flagBcd idle count c = d at hloaded
  cases n with
  | zero =>
      have hlow : d.toMode0.out = false := rfl
      rw [Function.iterate_zero, id_eq, hlow]
      symm
      rw [decide_eq_false_iff_not]
      omega
  | succ n =>
      have hcounted : Counted (count.value flagBcd) (n + 1)
          (CounterUnit.tick^[n + 1] d.toMode0) := by
        induction n with
        | zero => exact Counted.first hloaded
        | succ n ih =>
            rw [Function.iterate_succ_apply']
            exact ih.tick
      exact hcounted.out

end

end CounterUnit

end V6Emul
