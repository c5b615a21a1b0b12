import Mathlib.Logic.Function.Iterate
import V6Emul.Io

/-!
# A counter of the timer

The clock of a counter counts its value down and reloads it, in a way of each mode.  A
load value of 0 stands for the full count on a reload, not on the first load.
-/

namespace V6Emul

structure CounterUnit where
  latchValue : Int
  writeState : Nat
  latchMode : Nat
  out : Bool
  value : Int
  modeInt : Nat
  writeLsb : Byte
  writeMsb : Byte
  loadValue : BitVec 16
  delay : Nat
  flagArmed : Bool
  flagLoad : Bool
  flagEnabled : Bool
  flagBcd : Bool

namespace CounterUnit

def latchDelay : Nat := 1

def reset : CounterUnit where
  latchValue := -1
  writeState := 0
  latchMode := 0
  out := false
  value := 0
  modeInt := 0
  writeLsb := 0
  writeMsb := 0
  loadValue := 0
  delay := 0
  flagArmed := false
  flagLoad := false
  flagEnabled := false
  flagBcd := false

def toBcd (x : BitVec 16) : BitVec 16 :=
  let digit (i : Nat) : BitVec 16 := BitVec.ofNat 16 (x.toNat / 10 ^ i % 10) <<< (4 * i)
  digit 0 ||| digit 1 ||| digit 2 ||| digit 3

def fromBcd (x : BitVec 16) : BitVec 16 :=
  let digit (i : Nat) : Nat := min 9 (x >>> (4 * i) &&& 0xF#16).toNat
  BitVec.ofNat 16 (((digit 3 * 10 + digit 2) * 10 + digit 1) * 10 + digit 0)

def output (c : CounterUnit) : Int := if c.out then 1 else 0

def fullCount (flagBcd : Bool) : Nat := if flagBcd then 10000 else 65536

def reload (period : Nat) (c : CounterUnit) : CounterUnit :=
  { c with value := c.value + (if c.loadValue = 0 then fullCount c.flagBcd else period : Nat) }

def clockTerminalCount (cycles : Int) (c : CounterUnit) : Int × CounterUnit :=
  let result := if c.flagLoad then 0 else c.output
  let c :=
    if c.flagLoad then
      { c with value := c.loadValue.toNat, flagEnabled := true, flagArmed := true, out := false }
    else c
  if c.flagEnabled then
    let value := c.value - cycles
    if value ≤ 0 then
      (if c.flagArmed then -value + 1 else result,
        { c with
          value := value + fullCount c.flagBcd
          out := c.out || (c.flagArmed && c.value != 0)
          flagArmed := false })
    else (result, { c with value := value })
  else (result, c)

def clockOneShot (cycles : Int) (c : CounterUnit) : CounterUnit :=
  let c := if !c.flagEnabled && c.flagLoad then { c with flagEnabled := true } else c
  if c.flagEnabled then
    let c := { c with value := c.value - cycles }
    if c.value ≤ 0 then c.reload (c.loadValue.toNat + 1) else c
  else c

def enable (c : CounterUnit) : CounterUnit :=
  if !c.flagEnabled && c.flagLoad then
    { c with value := c.loadValue.toNat, flagEnabled := true }
  else c

def clockRateGenerator (cycles : Int) (c : CounterUnit) : CounterUnit :=
  let c := c.enable
  if c.flagEnabled then
    let c := { c with value := c.value - cycles }
    if c.value ≤ 0 then c.reload c.loadValue.toNat else c
  else c

def squareStep (c : CounterUnit) : Int :=
  if c.value = c.loadValue.toNat ∧ c.value % 2 = 1 then (if c.out then 1 else 3) else 2

def clockSquareWave (c : CounterUnit) : CounterUnit :=
  let c := c.enable
  if c.flagEnabled then
    let c := { c with value := c.value - c.squareStep }
    if c.value ≤ 0 then { c with out := !c.out }.reload c.loadValue.toNat else c
  else c

def clockMode (cycles : Int) (c : CounterUnit) : Int × CounterUnit :=
  match c.modeInt with
  | 0 => c.clockTerminalCount cycles
  | 1 => (c.output, c.clockOneShot cycles)
  | 2 => (c.output, c.clockRateGenerator cycles)
  | 3 => (c.clockSquareWave.output, c.clockSquareWave)
  | _ => (c.output, c)

def clock (cycles : Int) (c : CounterUnit) : Int × CounterUnit :=
  if c.delay ≠ 0 then (c.output, { c with delay := c.delay - 1 })
  else if cycles = 0 then (c.output, c)
  else if (!c.flagEnabled && !c.flagLoad) = true then (c.output, c)
  else ((c.clockMode cycles).1, { (c.clockMode cycles).2 with flagLoad := false })

def setMode (mode latchMode : Nat) (flagBcd : Bool) (c : CounterUnit) : CounterUnit :=
  let c := (c.clock latchDelay).2
  let modeInt := if mode % 4 = 2 then 2 else if mode % 4 = 3 then 3 else mode
  { c with
    delay := latchDelay
    flagBcd := flagBcd
    modeInt := modeInt
    out := modeInt != 0
    flagArmed := modeInt ≤ 1 || c.flagArmed
    flagEnabled := false
    flagLoad := false
    latchMode := latchMode
    writeState := 0 }

def latch (c : CounterUnit) : CounterUnit :=
  let c := (c.clock latchDelay).2
  { c with delay := latchDelay, latchValue := c.value }

def writeByte (w8 : Byte) (c : CounterUnit) : CounterUnit :=
  match c.latchMode with
  | 3 =>
      match c.writeState with
      | 0 => { c with writeLsb := w8, writeState := 1 }
      | 1 => { c with
          writeMsb := w8
          writeState := 0
          loadValue := w8 ++ c.writeLsb
          flagLoad := true }
      | _ => c
  | 1 => { c with loadValue := w8.setWidth 16, flagLoad := true }
  | 2 => { c with value := (w8 ++ 0#8 : BitVec 16).toNat, loadValue := w8 ++ 0#8, flagLoad := true }
  | _ => c

def delayLoad (c : CounterUnit) : CounterUnit :=
  match c.modeInt with
  | 0 => { c with delay := 3 }
  | 1 | 2 | 3 => if c.flagEnabled then c else { c with delay := 3 }
  | _ => { c with delay := 4 }

def write (w8 : Byte) (c : CounterUnit) : CounterUnit :=
  let written := c.writeByte w8
  let loadValue := if written.flagBcd then fromBcd written.loadValue else written.loadValue
  if written.flagLoad then { written with loadValue := loadValue }.delayLoad else written

def shownValue (c : CounterUnit) : Int :=
  let value := if c.latchValue ≠ -1 then c.latchValue else c.value
  if c.flagBcd then (toBcd (BitVec.ofInt 16 value)).toNat else value

def read (c : CounterUnit) : Int × CounterUnit :=
  let low := c.shownValue % 256
  let high := c.shownValue / 256 % 256
  match c.latchMode with
  | 1 => (low, { c with latchValue := -1 })
  | 2 => (high, { c with latchValue := -1 })
  | 3 =>
      match c.writeState with
      | 0 => (low, { c with writeState := 1 })
      | 1 => (high, { c with latchValue := -1, writeState := 0 })
      | _ => (c.shownValue, c)
  | _ => (0, c)

def tick (c : CounterUnit) : CounterUnit := (c.clock 1).2

/-! ## Runs -/

inductive Input where
  | setMode (mode latchMode : Nat) (flagBcd : Bool)
  | write (w8 : Byte)
  | latch
  | read
  | clock

def step (c : CounterUnit) : Input → CounterUnit
  | .setMode mode latchMode flagBcd => c.setMode mode latchMode flagBcd
  | .write w8 => c.write w8
  | .latch => c.latch
  | .read => c.read.2
  | .clock => c.tick

def Input.ticks : Input → Bool
  | .setMode .. | .latch | .clock => true
  | .write _ | .read => false

def run (inputs : List Input) : CounterUnit := inputs.foldl step reset

/-! ## The square wave -/

/-- A count as it is written: in a byte, or in two with ticks between them. -/
inductive Count where
  | lsb (low : Byte)
  | msb (high : Byte)
  | both (low high : Byte) (between : Nat)

def Count.latchMode : Count → Nat
  | .lsb _ => 1
  | .msb _ => 2
  | .both _ _ _ => 3

def Count.raw : Count → BitVec 16
  | .lsb low => low.setWidth 16
  | .msb high => high ++ 0#8
  | .both low high _ => high ++ low

def Count.value (flagBcd : Bool) (count : Count) : BitVec 16 :=
  if flagBcd then fromBcd count.raw else count.raw

def Count.period (flagBcd : Bool) (count : Count) : Nat :=
  if count.value flagBcd = 0 then fullCount flagBcd else (count.value flagBcd).toNat

def Count.writeTo (c : CounterUnit) : Count → CounterUnit
  | .lsb low => c.write low
  | .msb high => c.write high
  | .both low high between => (tick^[between] (c.write low)).write high

/-- A counter is programmed to mode 3, idles, gets its count and waits out the load delay. -/
def loaded (flagBcd : Bool) (idle : Nat) (count : Count) (c : CounterUnit) : CounterUnit :=
  tick^[3] (count.writeTo (tick^[idle] (c.setMode 3 count.latchMode flagBcd)))

/-- The output of the wave at `n` ticks. -/
def level (period n : Nat) : Int := if n % period < (period + 1) / 2 then 1 else 0

/-- The output is that of the wave, from what the load delay leaves on; every call of `Clock`
returns the output at its end. -/
structure SquareWave (period : Nat) (c : CounterUnit) : Prop where
  start : c.output = level period 0
  returned : ∀ n, ((tick^[n] c).clock 1).1 = level period (n + 1)

/-- A counter in mode 3 that waits for its count. -/
structure Idle (latchMode writeState : Nat) (flagBcd : Bool) (c : CounterUnit) : Prop where
  modeInt : c.modeInt = 3
  out : c.out = true
  flagEnabled : c.flagEnabled = false
  flagLoad : c.flagLoad = false
  latchMode : c.latchMode = latchMode
  writeState : c.writeState = writeState
  flagBcd : c.flagBcd = flagBcd

theorem setMode_idle (latchMode : Nat) (flagBcd : Bool) (c : CounterUnit) :
    Idle latchMode 0 flagBcd (c.setMode 3 latchMode flagBcd) :=
  ⟨rfl, rfl, rfl, rfl, rfl, rfl, rfl⟩

theorem tick_delay {c : CounterUnit} (h : c.delay ≠ 0) :
    c.tick = { c with delay := c.delay - 1 } := by
  rw [tick, clock, if_pos h]

theorem tick_rests {c : CounterUnit} (hdelay : c.delay = 0) (henabled : c.flagEnabled = false)
    (hload : c.flagLoad = false) : c.tick = c := by
  rw [tick, clock, if_neg (fun h => h hdelay), if_neg (by decide), henabled, hload]
  rfl

theorem tick_counts {c : CounterUnit} (hdelay : c.delay = 0)
    (h : c.flagEnabled = true ∨ c.flagLoad = true) :
    c.clock 1 = ((c.clockMode 1).1, { (c.clockMode 1).2 with flagLoad := false }) := by
  have hcounts : (!c.flagEnabled && !c.flagLoad) ≠ true := by
    rcases h with h | h <;> rw [h]
    · exact Bool.false_ne_true
    · rw [Bool.not_true, Bool.and_false]
      exact Bool.false_ne_true
  rw [clock, if_neg (fun h => h hdelay), if_neg (by decide), if_neg hcounts]

variable {latchMode writeState : Nat} {flagBcd : Bool} {c : CounterUnit}

theorem Idle.tick (h : Idle latchMode writeState flagBcd c) :
    Idle latchMode writeState flagBcd c.tick := by
  by_cases hdelay : c.delay = 0
  · rwa [tick_rests hdelay h.flagEnabled h.flagLoad]
  · rw [tick_delay hdelay]
    exact ⟨h.modeInt, h.out, h.flagEnabled, h.flagLoad, h.latchMode, h.writeState, h.flagBcd⟩

theorem Idle.ticks (h : Idle latchMode writeState flagBcd c) (n : Nat) :
    Idle latchMode writeState flagBcd (CounterUnit.tick^[n] c) := by
  induction n generalizing c with
  | zero => exact h
  | succ n ih => exact ih h.tick

structure Waiting (loadValue : BitVec 16) (flagBcd : Bool) (delay : Nat) (c : CounterUnit) :
    Prop where
  modeInt : c.modeInt = 3
  out : c.out = true
  flagEnabled : c.flagEnabled = false
  flagLoad : c.flagLoad = true
  loadValue : c.loadValue = loadValue
  flagBcd : c.flagBcd = flagBcd
  delay : c.delay = delay

theorem Waiting.write {raw : BitVec 16} {delay : Nat} {w8 : Byte}
    (h : Waiting raw flagBcd delay (c.writeByte w8)) :
    Waiting (if flagBcd then fromBcd raw else raw) flagBcd 3 (c.write w8) := by
  have heq : c.write w8 =
      { c.writeByte w8 with
        loadValue := if flagBcd then fromBcd raw else raw
        delay := 3 } := by
    rw [CounterUnit.write, if_pos h.flagLoad, h.flagBcd, h.loadValue]
    simp only [delayLoad, h.modeInt, h.flagEnabled, h.flagBcd, Bool.false_eq_true, if_false]
  rw [heq]
  exact ⟨h.modeInt, h.out, h.flagEnabled, h.flagLoad, rfl, h.flagBcd, rfl⟩

theorem Idle.write_low (h : Idle 1 writeState flagBcd c) (low : Byte) :
    Waiting ((Count.lsb low).value flagBcd) flagBcd 3 (c.write low) := by
  have hbyte : Waiting (Count.lsb low).raw flagBcd c.delay (c.writeByte low) := by
    rw [writeByte, h.latchMode]
    exact ⟨h.modeInt, h.out, h.flagEnabled, rfl, rfl, h.flagBcd, rfl⟩
  exact hbyte.write

theorem Idle.write_high (h : Idle 2 writeState flagBcd c) (high : Byte) :
    Waiting ((Count.msb high).value flagBcd) flagBcd 3 (c.write high) := by
  have hbyte : Waiting (Count.msb high).raw flagBcd c.delay (c.writeByte high) := by
    rw [writeByte, h.latchMode]
    exact ⟨h.modeInt, h.out, h.flagEnabled, rfl, rfl, h.flagBcd, rfl⟩
  exact hbyte.write

theorem tick_writeLsb_of_idle (h : Idle latchMode writeState flagBcd c) :
    c.tick.writeLsb = c.writeLsb := by
  by_cases hdelay : c.delay = 0
  · rw [tick_rests hdelay h.flagEnabled h.flagLoad]
  · rw [tick_delay hdelay]

theorem ticks_writeLsb_of_idle (h : Idle latchMode writeState flagBcd c) (n : Nat) :
    (tick^[n] c).writeLsb = c.writeLsb := by
  induction n generalizing c with
  | zero => rfl
  | succ n ih => exact (ih h.tick).trans (tick_writeLsb_of_idle h)

theorem Idle.write_both (h : Idle 3 0 flagBcd c) (low high : Byte) (between : Nat) :
    Waiting ((Count.both low high between).value flagBcd) flagBcd 3
      ((CounterUnit.tick^[between] (c.write low)).write high) := by
  have hlow : c.write low = { c with writeLsb := low, writeState := 1 } := by
    have hload : ¬({ c with writeLsb := low, writeState := 1 } : CounterUnit).flagLoad = true := by
      rw [h.flagLoad]
      exact Bool.false_ne_true
    rw [write, writeByte, h.latchMode, h.writeState]
    exact if_neg hload
  have hidle : Idle 3 1 flagBcd (c.write low) := by
    rw [hlow]
    exact ⟨h.modeInt, h.out, h.flagEnabled, h.flagLoad, h.latchMode, rfl, h.flagBcd⟩
  have hlsb : (CounterUnit.tick^[between] (c.write low)).writeLsb = low := by
    rw [ticks_writeLsb_of_idle hidle, hlow]
  have hticks := hidle.ticks between
  generalize CounterUnit.tick^[between] (c.write low) = d at hlsb hticks
  have hbyte : Waiting (Count.both low high between).raw flagBcd d.delay (d.writeByte high) := by
    rw [writeByte, hticks.latchMode, hticks.writeState]
    exact ⟨hticks.modeInt, hticks.out, hticks.flagEnabled, rfl, congrArg (high ++ ·) hlsb,
      hticks.flagBcd, rfl⟩
  exact hbyte.write

theorem Waiting.tick {loadValue : BitVec 16} {delay : Nat}
    (h : Waiting loadValue flagBcd (delay + 1) c) : Waiting loadValue flagBcd delay c.tick := by
  rw [tick_delay (by rw [h.delay]; exact Nat.succ_ne_zero delay)]
  refine ⟨h.modeInt, h.out, h.flagEnabled, h.flagLoad, h.loadValue, h.flagBcd, ?_⟩
  rw [h.delay, Nat.add_sub_cancel]

theorem loaded_waiting (flagBcd : Bool) (idle : Nat) (count : Count) (c : CounterUnit) :
    Waiting (count.value flagBcd) flagBcd 0 (loaded flagBcd idle count c) := by
  have hidle := (setMode_idle count.latchMode flagBcd c).ticks idle
  have hwritten : Waiting (count.value flagBcd) flagBcd 3
      (count.writeTo (CounterUnit.tick^[idle] (c.setMode 3 count.latchMode flagBcd))) := by
    cases count with
    | lsb low => exact hidle.write_low low
    | msb high => exact hidle.write_high high
    | both low high between => exact hidle.write_both low high between
  exact hwritten.tick.tick.tick

/-! ## A period -/

def high (period : Nat) : Nat := (period + 1) / 2

def waveValue (period place : Nat) : Int :=
  if place = 0 ∨ place = high period then period
  else if place < high period then 2 * (high period - place) else 2 * (period - place)

structure Wave (period place : Nat) (c : CounterUnit) : Prop where
  modeInt : c.modeInt = 3
  flagEnabled : c.flagEnabled = true
  delay : c.delay = 0
  loadValue : c.loadValue.toNat = period
  out : c.out = decide (place < high period)
  value : c.value = waveValue period place

theorem enable_of_enabled (h : c.flagEnabled = true) : c.enable = c := by
  rw [enable, h]
  rfl

theorem squareWave_counts (henabled : c.flagEnabled = true) (h : 0 < c.value - c.squareStep) :
    c.clockSquareWave = { c with value := c.value - c.squareStep } := by
  rw [clockSquareWave, enable_of_enabled henabled]
  exact (if_pos henabled).trans (if_neg (Int.not_le.mpr h))

theorem squareWave_reloads (henabled : c.flagEnabled = true) (h : c.value - c.squareStep ≤ 0) :
    c.clockSquareWave =
      { c with value := c.value - c.squareStep, out := !c.out }.reload c.loadValue.toNat := by
  rw [clockSquareWave, enable_of_enabled henabled]
  exact (if_pos henabled).trans (if_pos h)

theorem clock_square (hmode : c.modeInt = 3) (hdelay : c.delay = 0)
    (h : c.flagEnabled = true ∨ c.flagLoad = true) :
    c.clock 1 = (c.clockSquareWave.output, { c.clockSquareWave with flagLoad := false }) := by
  have hsquare : c.clockMode 1 = (c.clockSquareWave.output, c.clockSquareWave) := by
    rw [clockMode, hmode]
    rfl
  rw [tick_counts hdelay h, hsquare]

variable {period place : Nat}

theorem Wave.squareStep (h : Wave period place c) (hperiod : 2 ≤ period) :
    c.value - c.squareStep =
      if place + 1 = high period ∨ place + 1 = period then 0 else waveValue period (place + 1) := by
  rw [CounterUnit.squareStep, h.loadValue, h.out, h.value]
  unfold waveValue high
  grind

theorem reload_value (hload : c.loadValue.toNat ≠ 0) (period : Nat) :
    (c.reload period).value = c.value + period := by
  have hzero : c.loadValue ≠ 0 := fun h => hload (congrArg BitVec.toNat h)
  rw [reload, if_neg hzero]

theorem Wave.tick (h : Wave period place c) (hperiod : 2 ≤ period) (hplace : place < period) :
    Wave period (if place + 1 = period then 0 else place + 1) c.tick := by
  have hstep := h.squareStep hperiod
  rw [CounterUnit.tick, clock_square h.modeInt h.delay (Or.inl h.flagEnabled)]
  by_cases hend : place + 1 = high period ∨ place + 1 = period
  · rw [if_pos hend] at hstep
    rw [squareWave_reloads h.flagEnabled hstep.le]
    refine ⟨h.modeInt, h.flagEnabled, h.delay, h.loadValue, ?_, ?_⟩
    · show (!c.out) = _
      rw [h.out]
      unfold high at hend ⊢
      grind
    · have hvalue := reload_value (c := { c with value := c.value - c.squareStep, out := !c.out })
        (by rw [h.loadValue]; omega) c.loadValue.toNat
      refine hvalue.trans ?_
      show c.value - c.squareStep + (c.loadValue.toNat : Int) = _
      rw [hstep, h.loadValue, waveValue, if_pos, zero_add]
      rcases hend with hend | hend <;> grind
  · rw [if_neg hend] at hstep
    rw [squareWave_counts h.flagEnabled (by rw [hstep]; unfold waveValue high at *; grind)]
    refine ⟨h.modeInt, h.flagEnabled, h.delay, h.loadValue, ?_, ?_⟩
    · show c.out = _
      rw [h.out]
      unfold high at hend ⊢
      grind
    · show c.value - c.squareStep = _
      rw [hstep, if_neg (fun hlast => hend (Or.inr hlast))]

theorem Wave.ticks (h : Wave period 0 c) (hperiod : 2 ≤ period) (n : Nat) :
    Wave period (n % period) (CounterUnit.tick^[n] c) := by
  induction n with
  | zero => rwa [Nat.zero_mod]
  | succ n ih =>
      have hplace : (n + 1) % period = if n % period + 1 = period then 0 else n % period + 1 := by
        have hlt := Nat.mod_lt n (Nat.lt_of_lt_of_le Nat.zero_lt_two hperiod)
        rw [Nat.add_mod, Nat.mod_eq_of_lt (Nat.lt_of_lt_of_le Nat.one_lt_two hperiod)]
        split
        · next hlast => rw [hlast, Nat.mod_self]
        · exact Nat.mod_eq_of_lt (by omega)
      rw [Function.iterate_succ_apply', hplace]
      exact ih.tick hperiod (Nat.mod_lt n (by omega))

theorem Wave.output (h : Wave period (place % period) c) : c.output = level period place := by
  rw [CounterUnit.output, h.out, level, high]
  simp only [decide_eq_true_eq]

theorem clock_output (hmode : c.modeInt = 3) (hdelay : c.delay = 0)
    (h : c.flagEnabled = true ∨ c.flagLoad = true) : (c.clock 1).1 = c.tick.output := by
  rw [tick, clock_square hmode hdelay h]
  rfl

theorem Waiting.enable_eq {loadValue : BitVec 16} {delay : Nat}
    (h : Waiting loadValue flagBcd delay c) :
    c.enable = { c with value := c.loadValue.toNat, flagEnabled := true } := by
  rw [enable, h.flagEnabled, h.flagLoad]
  rfl

theorem Waiting.enable_square {loadValue : BitVec 16} {delay : Nat}
    (h : Waiting loadValue flagBcd delay c) : c.enable.clockSquareWave = c.clockSquareWave := by
  rw [clockSquareWave, clockSquareWave, enable_of_enabled (c := c.enable) (by rw [h.enable_eq])]

theorem Waiting.clock_enable {loadValue : BitVec 16} (h : Waiting loadValue flagBcd 0 c) :
    c.enable.clock 1 = c.clock 1 := by
  have henable := h.enable_eq
  have hmode : c.enable.modeInt = 3 := by
    rw [henable]
    exact h.modeInt
  have hdelay : c.enable.delay = 0 := by
    rw [henable]
    exact h.delay
  rw [clock_square hmode hdelay (Or.inl (by rw [henable])), h.enable_square,
    clock_square h.modeInt h.delay (Or.inr h.flagLoad)]

theorem Waiting.enable_wave {loadValue : BitVec 16} (h : Waiting loadValue flagBcd 0 c)
    (hload : 2 ≤ loadValue.toNat) : Wave loadValue.toNat 0 c.enable := by
  have henable := h.enable_eq
  have hhigh : 0 < high loadValue.toNat := Nat.div_pos (by omega) Nat.zero_lt_two
  rw [henable]
  refine ⟨h.modeInt, rfl, h.delay, congrArg _ h.loadValue, ?_, ?_⟩
  · rw [decide_eq_true hhigh]
    exact h.out
  · rw [waveValue, if_pos (Or.inl rfl), h.loadValue]

theorem Waiting.square {loadValue : BitVec 16} (h : Waiting loadValue flagBcd 0 c)
    (hload : 2 ≤ loadValue.toNat) : SquareWave loadValue.toNat c := by
  have hwave := (h.enable_wave hload).ticks hload
  have htick : c.enable.tick = c.tick := congrArg Prod.snd h.clock_enable
  constructor
  · have hhigh : 0 < (loadValue.toNat + 1) / 2 := Nat.div_pos (by omega) Nat.zero_lt_two
    rw [CounterUnit.output, h.out, level, Nat.zero_mod, if_pos hhigh]
    rfl
  · intro n
    have hnext := (hwave (n + 1)).output
    rw [Function.iterate_succ_apply, htick, ← Function.iterate_succ_apply,
      Function.iterate_succ_apply'] at hnext
    cases n with
    | zero => exact (clock_output h.modeInt h.delay (Or.inr h.flagLoad)).trans hnext
    | succ n =>
        have hsofar := hwave (n + 1)
        rw [Function.iterate_succ_apply, htick, ← Function.iterate_succ_apply] at hsofar
        exact (clock_output hsofar.modeInt hsofar.delay (Or.inl hsofar.flagEnabled)).trans hnext

theorem Waiting.not_square {loadValue : BitVec 16} (h : Waiting loadValue flagBcd 0 c)
    (hload : loadValue.toNat < 2) {period : Nat} (hperiod : period = 1 ∨ 2 < period) :
    ¬SquareWave period c := by
  intro hsquare
  have hends : c.enable.value - c.enable.squareStep ≤ 0 := by
    rw [squareStep, h.enable_eq]
    simp only [h.loadValue, h.out]
    split <;> omega
  have hlow : c.clockSquareWave.out = false := by
    have hreloads := squareWave_reloads (c := c.enable) (by rw [h.enable_eq]) hends
    rw [← h.enable_square, hreloads, reload, h.enable_eq, h.out]
    rfl
  have hfirst := hsquare.returned 0
  have hzero : c.clockSquareWave.output = 0 := by
    rw [CounterUnit.output, hlow]
    rfl
  have hlevel : level period 1 = 1 := by
    refine if_pos ?_
    rcases hperiod with hone | htwo
    · rw [hone]
      decide
    · rw [Nat.mod_eq_of_lt (by omega)]
      omega
  rw [Function.iterate_zero_apply, clock_square h.modeInt h.delay (Or.inr h.flagLoad), hzero,
    Nat.zero_add, hlevel] at hfirst
  exact Int.zero_ne_one hfirst

theorem loaded_square_iff (c : CounterUnit) (flagBcd : Bool) (idle : Nat) (count : Count) :
    SquareWave (count.period flagBcd) (loaded flagBcd idle count c) ↔
      2 ≤ (count.value flagBcd).toNat := by
  have hloaded := loaded_waiting flagBcd idle count c
  constructor
  · intro hsquare
    refine Nat.le_of_not_lt fun hlt => hloaded.not_square hlt ?_ hsquare
    unfold Count.period fullCount
    split
    · exact Or.inr (by split <;> decide)
    · next hne =>
        have hpos : (count.value flagBcd).toNat ≠ 0 := fun h => hne (BitVec.eq_of_toNat_eq h)
        omega
  · intro hle
    have hperiod : count.period flagBcd = (count.value flagBcd).toNat := by
      refine if_neg fun h => ?_
      rw [h] at hle
      exact absurd hle (by decide)
    rw [hperiod]
    exact hloaded.square hle

/-! ## The range of the value -/

def InRange (c : CounterUnit) : Prop := 0 ≤ c.value ∧ c.value ≤ 65536

/-- The counter counts in mode 3, and is to reload a value of 1. -/
def Spins (c : CounterUnit) : Prop :=
  c.modeInt = 3 ∧ c.loadValue = 1 ∧ c.delay = 0 ∧ (c.flagEnabled = true ∨ c.flagLoad = true)

theorem fullCount_range (flagBcd : Bool) :
    10000 ≤ fullCount flagBcd ∧ fullCount flagBcd ≤ 65536 := by
  cases flagBcd <;> decide

theorem enable_inRange (h : InRange c) : InRange c.enable := by
  have hload := c.loadValue.isLt
  unfold enable
  split
  · exact ⟨Int.natCast_nonneg _, by show (c.loadValue.toNat : Int) ≤ 65536; omega⟩
  · exact h

theorem reload_inRange {c : CounterUnit} {period : Nat} (below : Int) (hbelow : -below ≤ c.value)
    (hle : c.value ≤ 0) (hfull : below ≤ 10000)
    (hperiod : c.loadValue ≠ 0 → below ≤ period ∧ period ≤ 65536) : InRange (c.reload period) := by
  have hrange := fullCount_range c.flagBcd
  have hvalue : (c.reload period).value =
      c.value + (if c.loadValue = 0 then fullCount c.flagBcd else period : Nat) := rfl
  unfold InRange
  rw [hvalue]
  split
  · omega
  · next hne =>
      have hbound := hperiod hne
      omega

theorem toNat_pos {x : BitVec 16} (h : x ≠ 0) : 0 < x.toNat :=
  Nat.pos_of_ne_zero fun hzero => h (BitVec.eq_of_toNat_eq hzero)

theorem terminalCount_inRange (h : InRange c) : InRange (c.clockTerminalCount 1).2 := by
  have hload := c.loadValue.isLt
  obtain ⟨hle, hlt⟩ : 0 ≤ (if c.flagLoad then (c.loadValue.toNat : Int) else c.value) ∧
      (if c.flagLoad then (c.loadValue.toNat : Int) else c.value) ≤ 65536 := by
    split
    · omega
    · exact h
  have hrange := fullCount_range c.flagBcd
  unfold InRange clockTerminalCount
  cases hflag : c.flagLoad <;> simp only [hflag, if_true, if_false, Bool.false_eq_true] at hle hlt ⊢
  · split
    · split
      · show 0 ≤ c.value - 1 + (fullCount c.flagBcd : Int) ∧
          c.value - 1 + (fullCount c.flagBcd : Int) ≤ 65536
        omega
      · show 0 ≤ c.value - 1 ∧ c.value - 1 ≤ 65536
        omega
    · exact ⟨hle, hlt⟩
  · split
    · show 0 ≤ (c.loadValue.toNat : Int) - 1 + (fullCount c.flagBcd : Int) ∧
        (c.loadValue.toNat : Int) - 1 + (fullCount c.flagBcd : Int) ≤ 65536
      omega
    · show 0 ≤ (c.loadValue.toNat : Int) - 1 ∧ (c.loadValue.toNat : Int) - 1 ≤ 65536
      omega

theorem countOne_inRange (h : InRange c) {period : Nat}
    (hperiod : c.loadValue ≠ 0 → 1 ≤ period ∧ period ≤ 65536) :
    InRange
      (if c.flagEnabled then
        if c.value - 1 ≤ 0 then { c with value := c.value - 1 }.reload period
        else { c with value := c.value - 1 }
      else c) := by
  obtain ⟨hle, hlt⟩ := h
  split
  · split
    · next hends =>
        refine reload_inRange 1 ?_ hends (by decide) (fun hne => ?_)
        · show -1 ≤ c.value - 1
          omega
        · have hbound := hperiod hne
          omega
    · show 0 ≤ c.value - 1 ∧ c.value - 1 ≤ 65536
      omega
  · exact ⟨hle, hlt⟩

theorem oneShot_inRange (h : InRange c) : InRange (c.clockOneShot 1) := by
  have hload := c.loadValue.isLt
  unfold clockOneShot
  by_cases hstart : (!c.flagEnabled && c.flagLoad) = true
  · rw [if_pos hstart]
    exact countOne_inRange (c := { c with flagEnabled := true }) h (fun _ => ⟨by omega, hload⟩)
  · rw [if_neg hstart]
    exact countOne_inRange h (fun _ => ⟨by omega, hload⟩)

theorem rateGenerator_inRange (h : InRange c) : InRange (c.clockRateGenerator 1) :=
  countOne_inRange (enable_inRange h) fun hne =>
    ⟨toNat_pos hne, Nat.le_of_lt c.enable.loadValue.isLt⟩

theorem squareWave_inRange (h : InRange c) (hload : c.loadValue ≠ 1) :
    InRange c.clockSquareWave := by
  have henabled : InRange c.enable ∧ c.enable.loadValue.toNat ≠ 1 := by
    refine ⟨enable_inRange h, fun hone => hload ?_⟩
    have hsame : c.enable.loadValue = c.loadValue := by
      unfold enable
      split <;> rfl
    exact hsame ▸ BitVec.eq_of_toNat_eq hone
  rw [clockSquareWave]
  generalize c.enable = e at henabled
  obtain ⟨⟨hle, hlt⟩, hone⟩ := henabled
  have hstep : -2 ≤ e.value - e.squareStep ∧ 1 ≤ e.squareStep := by
    unfold squareStep
    split
    · split <;> omega
    · omega
  show InRange
    (if e.flagEnabled then
      if e.value - e.squareStep ≤ 0 then
        { e with value := e.value - e.squareStep, out := !e.out }.reload e.loadValue.toNat
      else { e with value := e.value - e.squareStep }
    else e)
  split
  · split
    · next hends =>
        refine reload_inRange 2 hstep.1 hends (by decide) (fun hne => ?_)
        have hpos : 0 < e.loadValue.toNat := toNat_pos hne
        have hload := e.loadValue.isLt
        omega
    · show 0 ≤ e.value - e.squareStep ∧ e.value - e.squareStep ≤ 65536
      omega
  · exact ⟨hle, hlt⟩

theorem tick_inRange (h : InRange c) (hspins : ¬Spins c) : InRange c.tick := by
  unfold tick clock
  split
  · exact h
  · next hdelay =>
      split
      · exact h
      · split
        · exact h
        · next hcounts =>
            have hcounting : c.flagEnabled = true ∨ c.flagLoad = true := by
              revert hcounts
              cases c.flagEnabled <;> cases c.flagLoad <;> decide
            show InRange (c.clockMode 1).2
            unfold clockMode
            split
            · exact terminalCount_inRange h
            · exact oneShot_inRange h
            · exact rateGenerator_inRange h
            · next hmode =>
                refine squareWave_inRange h fun hload => hspins ⟨hmode, hload, ?_, hcounting⟩
                exact Decidable.not_not.mp hdelay
            · exact h

theorem writeByte_inRange (h : InRange c) (w8 : Byte) : InRange (c.writeByte w8) := by
  unfold writeByte
  split
  · split
    · exact h
    · exact h
    · exact h
  · exact h
  · have hlt := (w8 ++ 0#8 : BitVec 16).isLt
    show 0 ≤ ((w8 ++ 0#8 : BitVec 16).toNat : Int) ∧ ((w8 ++ 0#8 : BitVec 16).toNat : Int) ≤ 65536
    omega
  · exact h

theorem delayLoad_value (c : CounterUnit) : c.delayLoad.value = c.value := by
  unfold delayLoad
  split
  · rfl
  · split <;> rfl
  · split <;> rfl
  · split <;> rfl
  · rfl

theorem write_value (c : CounterUnit) (w8 : Byte) :
    (c.write w8).value = (c.writeByte w8).value := by
  rw [write]
  split
  · exact delayLoad_value _
  · rfl

theorem read_value (c : CounterUnit) : c.read.2.value = c.value := by
  unfold read
  split
  · rfl
  · rfl
  · split <;> rfl
  · rfl

theorem step_inRange (h : InRange c) (input : Input) (hspins : input.ticks = true → ¬Spins c) :
    InRange (c.step input) := by
  cases input with
  | setMode mode latchMode flagBcd => exact tick_inRange h (hspins rfl)
  | write w8 =>
      unfold InRange step
      rw [write_value]
      exact writeByte_inRange h w8
  | latch => exact tick_inRange h (hspins rfl)
  | read =>
      unfold InRange step
      rw [read_value]
      exact h
  | clock => exact tick_inRange h (hspins rfl)

/-- No tick counts in mode 3 with a load value of 1. -/
def NeverSpins : CounterUnit → List Input → Prop
  | _, [] => True
  | c, input :: inputs => (input.ticks = true → ¬Spins c) ∧ NeverSpins (c.step input) inputs

theorem run_inRange {inputs : List Input} (h : NeverSpins c inputs) (hc : InRange c) :
    InRange (inputs.foldl step c) := by
  induction inputs generalizing c with
  | nil => exact hc
  | cons input inputs ih => exact ih h.2 (step_inRange hc input h.1)

/-! ## A load value of 1 -/

theorem squareWave_frame (c : CounterUnit) :
    c.clockSquareWave.modeInt = c.modeInt ∧ c.clockSquareWave.loadValue = c.loadValue ∧
      c.clockSquareWave.delay = c.delay := by
  have henable : c.enable.modeInt = c.modeInt ∧ c.enable.loadValue = c.loadValue ∧
      c.enable.delay = c.delay := by
    unfold enable
    split <;> exact ⟨rfl, rfl, rfl⟩
  rw [clockSquareWave]
  generalize c.enable = e at henable ⊢
  dsimp only
  split
  · split <;> exact henable
  · exact henable

theorem squareWave_enabled (h : c.flagEnabled = true ∨ c.flagLoad = true) :
    c.clockSquareWave.flagEnabled = true := by
  have henable : c.enable.flagEnabled = true := by
    unfold enable
    split
    · rfl
    · next hnot =>
        revert h hnot
        cases c.flagEnabled <;> cases c.flagLoad <;> decide
  rw [clockSquareWave]
  generalize c.enable = e at henable ⊢
  dsimp only
  rw [if_pos henable]
  split <;> exact henable

theorem Spins.tick (h : Spins c) : Spins c.tick ∧ c.tick.flagEnabled = true := by
  obtain ⟨hmode, hload, hdelay, hcounts⟩ := h
  obtain ⟨hmode', hload', hdelay'⟩ := squareWave_frame c
  have henabled := squareWave_enabled hcounts
  rw [CounterUnit.tick, clock_square hmode hdelay hcounts]
  exact ⟨⟨hmode'.trans hmode, hload'.trans hload, hdelay'.trans hdelay, Or.inl henabled⟩, henabled⟩

theorem Spins.tick_value (h : Spins c) (henabled : c.flagEnabled = true) :
    c.tick.value = c.value - c.squareStep + (if c.value - c.squareStep ≤ 0 then 1 else 0) ∧
      c.tick.out = (if c.value - c.squareStep ≤ 0 then !c.out else c.out) := by
  obtain ⟨hmode, hload, hdelay, hcounts⟩ := h
  rw [CounterUnit.tick, clock_square hmode hdelay hcounts]
  by_cases hends : c.value - c.squareStep ≤ 0
  · have hone : c.loadValue.toNat = 1 := congrArg BitVec.toNat hload
    have hvalue := reload_value (c := { c with value := c.value - c.squareStep, out := !c.out })
      (fun hzero => absurd (hone.symm.trans hzero) Nat.one_ne_zero) c.loadValue.toNat
    rw [squareWave_reloads henabled hends, if_pos hends, if_pos hends]
    refine ⟨hvalue.trans ?_, rfl⟩
    rw [hone]
    rfl
  · rw [squareWave_counts henabled (Int.not_le.mp hends), if_neg hends, if_neg hends]
    exact ⟨(add_zero _).symm, rfl⟩

theorem Spins.squareStep (h : Spins c) :
    c.squareStep = if c.value = 1 then (if c.out then 1 else 3) else 2 := by
  have hone : c.loadValue.toNat = 1 := congrArg BitVec.toNat h.2.1
  rw [CounterUnit.squareStep, hone]
  by_cases hvalue : c.value = 1
  · rw [if_pos hvalue, if_pos ⟨hvalue, by rw [hvalue]; rfl⟩]
  · rw [if_neg hvalue, if_neg (fun h => hvalue h.1)]

theorem Spins.two_ticks (h : Spins c) (henabled : c.flagEnabled = true) :
    c.tick.tick.value + 1 ≤ c.value := by
  obtain ⟨hspins, henabled'⟩ := h.tick
  obtain ⟨hvalue, hout⟩ := h.tick_value henabled
  obtain ⟨hvalue', -⟩ := hspins.tick_value henabled'
  rw [hspins.squareStep] at hvalue'
  rw [h.squareStep] at hvalue hout
  grind

theorem Spins.falls (h : Spins c) (henabled : c.flagEnabled = true) (n : Nat) :
    (CounterUnit.tick^[2 * n] c).value + n ≤ c.value := by
  induction n generalizing c with
  | zero => exact (add_zero _).le
  | succ n ih =>
      have htwo := h.two_ticks henabled
      have hrest := ih h.tick.1.tick.1 h.tick.1.tick.2
      rw [Nat.mul_succ, Function.iterate_add_apply]
      show (CounterUnit.tick^[2 * n] c.tick.tick).value + ((n + 1 : Nat) : Int) ≤ c.value
      omega

theorem Spins.leaves (h : Spins c) : ∃ n, (CounterUnit.tick^[n] c).value < -65536 := by
  obtain ⟨hspins, henabled⟩ := h.tick
  have hfalls := hspins.falls henabled (c.tick.value + 65537).toNat
  refine ⟨2 * (c.tick.value + 65537).toNat + 1, ?_⟩
  rw [Function.iterate_succ_apply]
  omega

theorem run_clocks (inputs : List Input) (n : Nat) :
    run (inputs ++ List.replicate n .clock) = CounterUnit.tick^[n] (run inputs) := by
  rw [run, List.foldl_append, run]
  generalize inputs.foldl step reset = c
  induction n generalizing c with
  | zero => rfl
  | succ n ih => exact ih c.tick

/-- The counts that give a square wave, and the runs that keep the value a count. -/
theorem square_and_range (c : CounterUnit) (flagBcd : Bool) (idle : Nat) (count : Count)
    (inputs : List Input) :
    (SquareWave (count.period flagBcd) (loaded flagBcd idle count c) ↔
      2 ≤ (count.value flagBcd).toNat) ∧
    (NeverSpins reset inputs → -65536 ≤ (run inputs).value ∧ (run inputs).value ≤ 65536) ∧
    (Spins (run inputs) → ∃ n, (run (inputs ++ List.replicate n .clock)).value < -65536) := by
  refine ⟨loaded_square_iff c flagBcd idle count, fun h => ?_, fun h => ?_⟩
  · obtain ⟨hle, hlt⟩ := run_inRange h ⟨Int.le_refl 0, by decide⟩
    exact ⟨(by decide : (-65536 : Int) ≤ 0).trans hle, hlt⟩
  · obtain ⟨n, hn⟩ := h.leaves
    exact ⟨n, (run_clocks inputs n).symm ▸ hn⟩

/-- A witness: a count of 5, loaded after 7 ticks, and clocked. -/
theorem square_and_range_five :
    SquareWave 5 (loaded false 7 (.lsb 5) reset) ∧
      -65536 ≤ (run [.setMode 3 1 false, .write 5, .clock]).value := by
  have hall := square_and_range reset false 7 (.lsb 5) [.setMode 3 1 false, .write 5, .clock]
  refine ⟨hall.1.mpr (by decide), (hall.2.1 ⟨?_, ?_, ?_, trivial⟩).1⟩
  · exact fun _ h => absurd h.1 (by decide)
  · nofun
  · exact fun _ h => absurd h.2.1 (by decide)

/-- A count of 0 begins with a low half, and a count of 1 takes the value down for ever. -/
theorem zeroAndOne_not_square :
    ¬((∀ (c : CounterUnit) (flagBcd : Bool) (idle : Nat) (count : Count),
        (count.value flagBcd).toNat ≠ 1 →
          SquareWave (count.period flagBcd) (loaded flagBcd idle count c)) ∨
      ∀ inputs, -65536 ≤ (run inputs).value ∧ (run inputs).value ≤ 65536) := by
  rintro (hsquare | hrange)
  · have hzero := hsquare reset false 0 (.both 0 0 0) (by decide)
    have hwaiting := loaded_waiting false 0 (.both 0 0 0) reset
    exact hwaiting.not_square (by decide) (Or.inr (by decide)) hzero
  · obtain ⟨n, hn⟩ := Spins.leaves (c := run [.setMode 3 1 false, .write 1, .clock, .clock, .clock])
      ⟨rfl, rfl, rfl, Or.inr rfl⟩
    rw [← run_clocks] at hn
    exact absurd (hrange _).1 (Int.not_le.mpr hn)

end CounterUnit

end V6Emul
