import V6Emul.Sound.Timer

/-!
# The chips behind the ports

A program reads the counters of the timer and the sixteen registers of the sound
generator.  What the generator counts beside them is heard only.  Keyboard and disk
controller are parameters.
-/

namespace V6Emul

/-! ## The timer -/

structure TimerI8253 where
  counters : Fin 3 → CounterUnit

namespace TimerI8253

def reset : TimerI8253 := ⟨fun _ => .reset⟩

def setCounter (i : Fin 3) (c : CounterUnit) (t : TimerI8253) : TimerI8253 :=
  ⟨Function.update t.counters i c⟩

def writeCw (w8 : Byte) (t : TimerI8253) : TimerI8253 :=
  let counterSet := (w8 >>> 6).toNat
  let modeSet := (w8 >>> 1 &&& 3#8).toNat
  let latchSet := (w8 >>> 4 &&& 3#8).toNat
  if h : counterSet < 3 then
    let counter := t.counters ⟨counterSet, h⟩
    t.setCounter ⟨counterSet, h⟩
      (if latchSet = 0 then counter.latch else counter.setMode modeSet latchSet (w8.getLsbD 0))
  else t

/-- The counter at `_addr & 3`; the control word is at 3. -/
def counterAt (addr : Int) : Option (Fin 3) :=
  if h : (addr % 4).toNat < 3 then some ⟨(addr % 4).toNat, h⟩ else none

def write (addr : Int) (w8 : Byte) (t : TimerI8253) : TimerI8253 :=
  match counterAt addr with
  | none => t.writeCw w8
  | some i => t.setCounter i ((t.counters i).write w8)

def read (addr : Int) (t : TimerI8253) : Int × TimerI8253 :=
  match counterAt addr with
  | none => (0, t)
  | some i => ((t.counters i).read.1, t.setCounter i (t.counters i).read.2)

def clock (cycles : Int) (t : TimerI8253) : TimerI8253 :=
  ⟨fun i => ((t.counters i).clock cycles).2⟩

end TimerI8253

/-! ## The sound generator -/

structure SoundAY8910 where
  ayr : Fin (16 + 3) → Nat
  envc : Nat
  envv : Nat
  envx : Nat
  ay13 : Nat
  tons : Nat
  noic : Nat
  noiv : Nat
  noir : Nat
  ayreg : BitVec 4

namespace SoundAY8910

def init : SoundAY8910 where
  ayr _ := 0
  envc := 0
  envv := 0
  envx := 0
  ay13 := 0
  tons := 0
  noic := 0
  noiv := 0
  noir := 1
  ayreg := 0

/-- One of the sixteen registers that a program can select. -/
def register (i : BitVec 4) (s : SoundAY8910) : Nat := s.ayr (i.toFin.castAdd 3)

def setAyr (i : Fin (16 + 3)) (value : Nat) (s : SoundAY8910) : SoundAY8910 :=
  { s with ayr := Function.update s.ayr i value }

def rmask (i : BitVec 4) : Byte :=
  [0xFF#8, 0x0F#8, 0xFF#8, 0x0F#8, 0xFF#8, 0x0F#8, 0x1F#8, 0xFF#8,
    0x1F#8, 0x1F#8, 0x1F#8, 0xFF#8, 0xFF#8, 0x0F#8, 0xFF#8, 0xFF#8].getD i.toNat 0

def cStep (ch : Fin 3) (s : SoundAY8910) : SoundAY8910 :=
  let count := s.ayr (ch.natAdd 16) + 1
  let low := s.register (BitVec.ofNat 4 (2 * ch))
  let period := low ||| s.register (BitVec.ofNat 4 (2 * ch + 1)) <<< 8
  if period ≤ count then { s.setAyr (ch.natAdd 16) 0 with tons := s.tons ^^^ 1 <<< ch.val }
  else s.setAyr (ch.natAdd 16) count

def eStep (s : SoundAY8910) : Nat × SoundAY8910 :=
  let step (s : SoundAY8910) : Nat × SoundAY8910 :=
    (if s.ay13 &&& 4 ≠ 0 then s.envx else 15 - s.envx, { s with envx := s.envx + 1 })
  if s.envx >>> 4 ≠ 0 then
    if s.ay13 &&& 1 ≠ 0 then (15 * ((s.ay13 >>> 1 ^^^ s.ay13) &&& 2) / 2, s)
    else step { s with envx := 0, ay13 := s.ay13 ^^^ (s.ay13 <<< 1 &&& 4) }
  else step s

def clockEnvelope (s : SoundAY8910) : SoundAY8910 :=
  if s.register 11 <<< 1 ||| s.register 12 <<< 9 ≤ s.envc + 1 then
    let (value, s) := { s with envc := 0 }.eStep
    { s with envv := value }
  else { s with envc := s.envc + 1 }

def clockNoise (s : SoundAY8910) : SoundAY8910 :=
  if s.register 6 <<< 1 ≤ s.noic + 1 then
    let noiv := s.noir &&& 1
    { s with noic := 0, noiv := noiv, noir := (s.noir ^^^ noiv * 0x24000) >>> 1 }
  else { s with noic := s.noic + 1 }

def clock (s : SoundAY8910) : SoundAY8910 :=
  (((s.clockEnvelope.clockNoise).cStep 0).cStep 1).cStep 2

def setShape (val : Byte) (s : SoundAY8910) : SoundAY8910 :=
  if s.ayreg = 13 then
    { s with
      envx := 0
      ay13 := if val &&& 0x0C#8 = 0 then 9 else if val &&& 0x0C#8 = 4 then 15 else val.toNat }
  else s

def write (addr val : Byte) (s : SoundAY8910) : SoundAY8910 :=
  if addr = 1 then { s with ayreg := val.setWidth 4 }
  else (s.setAyr (s.ayreg.toFin.castAdd 3) (val &&& rmask s.ayreg).toNat).setShape val

def read (addr : Byte) (s : SoundAY8910) : Nat :=
  if addr = 1 then s.ayreg.toNat else s.register s.ayreg

end SoundAY8910

structure AYWrapper where
  ay : SoundAY8910
  ayAccu : Nat

namespace AYWrapper

def reset (w : AYWrapper) : AYWrapper := { w with ay := .init }

def clock (cycles : Nat) (w : AYWrapper) : AYWrapper where
  ay := SoundAY8910.clock^[(w.ayAccu + 7 * cycles) / 96] w.ay
  ayAccu := (w.ayAccu + 7 * cycles) % 96

end AYWrapper

/-! ## All chips -/

structure Peripherals (κ : Type) where
  keyRead : Byte → κ → Byte
  keySS : κ → Bool
  keyUS : κ → Bool
  keyRus : κ → Bool
  fdcRead : FdcPort → κ → Byte × κ
  fdcWrite : FdcPort → Byte → κ → κ
  debugPortOut : Byte → Byte → κ → κ

def Peripherals.silent : Peripherals Unit where
  keyRead _ _ := 0xFF
  keySS _ := false
  keyUS _ := false
  keyRus _ := false
  fdcRead _ k := (0xFF, k)
  fdcWrite _ _ k := k
  debugPortOut _ _ k := k

structure Chips (κ : Type) where
  peripherals : κ
  timer : TimerI8253
  aywrapper : AYWrapper

namespace Chips

variable {κ : Type}

def tick (c : Chips κ) : Chips κ :=
  { c with timer := c.timer.clock 1, aywrapper := c.aywrapper.clock 2 }

def writeAy (addr value : Byte) (c : Chips κ) : Chips κ :=
  { c with aywrapper := { c.aywrapper with ay := c.aywrapper.ay.write addr value } }

def setPeripherals (peripherals : κ) (c : Chips κ) : Chips κ :=
  { c with peripherals := peripherals }

def reset (c : Chips κ) : Chips κ :=
  { c with timer := .reset, aywrapper := c.aywrapper.reset }

end Chips

def Peripherals.devices {κ : Type} (p : Peripherals κ) : Devices (Chips κ) where
  keyRead portA c := p.keyRead portA c.peripherals
  keySS c := p.keySS c.peripherals
  keyUS c := p.keyUS c.peripherals
  keyRus c := p.keyRus c.peripherals
  timerRead addr c :=
    (BitVec.ofInt 8 (c.timer.read addr).1, { c with timer := (c.timer.read addr).2 })
  timerWrite addr w8 c := { c with timer := c.timer.write addr w8 }
  ayRead addr c := (BitVec.ofNat 8 (c.aywrapper.ay.read addr), c)
  ayWrite addr val c := c.writeAy addr val
  fdcRead port c :=
    ((p.fdcRead port c.peripherals).1, c.setPeripherals (p.fdcRead port c.peripherals).2)
  fdcWrite port value c := c.setPeripherals (p.fdcWrite port value c.peripherals)
  debugPortOut port value c := c.setPeripherals (p.debugPortOut port value c.peripherals)
  audioClock _ c := c.tick.tick
  audioReset c := c.reset

/-! ## What a program can tell of the chips -/

structure Devices.Respects {δ : Type} (dev : Devices δ) (D : δ → δ → Prop) : Prop where
  keyRead : ∀ {d d'}, D d d' → ∀ portA, dev.keyRead portA d = dev.keyRead portA d'
  keySS : ∀ {d d'}, D d d' → dev.keySS d = dev.keySS d'
  keyUS : ∀ {d d'}, D d d' → dev.keyUS d = dev.keyUS d'
  keyRus : ∀ {d d'}, D d d' → dev.keyRus d = dev.keyRus d'
  timerRead : ∀ {d d'}, D d d' → ∀ addr,
    (dev.timerRead addr d).1 = (dev.timerRead addr d').1 ∧
      D (dev.timerRead addr d).2 (dev.timerRead addr d').2
  timerWrite : ∀ {d d'}, D d d' → ∀ addr w8,
    D (dev.timerWrite addr w8 d) (dev.timerWrite addr w8 d')
  ayRead : ∀ {d d'}, D d d' → ∀ addr,
    (dev.ayRead addr d).1 = (dev.ayRead addr d').1 ∧ D (dev.ayRead addr d).2 (dev.ayRead addr d').2
  ayWrite : ∀ {d d'}, D d d' → ∀ addr val, D (dev.ayWrite addr val d) (dev.ayWrite addr val d')
  fdcRead : ∀ {d d'}, D d d' → ∀ port,
    (dev.fdcRead port d).1 = (dev.fdcRead port d').1 ∧
      D (dev.fdcRead port d).2 (dev.fdcRead port d').2
  fdcWrite : ∀ {d d'}, D d d' → ∀ port value,
    D (dev.fdcWrite port value d) (dev.fdcWrite port value d')
  debugPortOut : ∀ {d d'}, D d d' → ∀ port value,
    D (dev.debugPortOut port value d) (dev.debugPortOut port value d')
  audioClock : ∀ {d d'}, D d d' → ∀ beeper, D (dev.audioClock beeper d) (dev.audioClock beeper d')
  audioReset : ∀ {d d'}, D d d' → D (dev.audioReset d) (dev.audioReset d')

namespace SoundAY8910

structure SameRegisters (s s' : SoundAY8910) : Prop where
  ayreg : s.ayreg = s'.ayreg
  register : ∀ i, s.register i = s'.register i

theorem register_setAyr_count (i : BitVec 4) (ch : Fin 3) (value : Nat) (s : SoundAY8910) :
    (s.setAyr (ch.natAdd 16) value).register i = s.register i := by
  have hne : i.toFin.castAdd 3 ≠ ch.natAdd 16 := by
    intro heq
    have hval := congrArg Fin.val heq
    have hlt := i.isLt
    simp only [Fin.val_castAdd, BitVec.val_toFin, Fin.val_natAdd] at hval
    omega
  exact Function.update_of_ne hne value s.ayr

theorem sameRegisters_cStep (ch : Fin 3) (s : SoundAY8910) : SameRegisters (s.cStep ch) s := by
  simp only [cStep]
  split
  · exact ⟨rfl, fun i => register_setAyr_count i ch _ s⟩
  · exact ⟨rfl, fun i => register_setAyr_count i ch _ s⟩

theorem sameRegisters_eStep (s : SoundAY8910) : SameRegisters s.eStep.2 s := by
  simp only [eStep]
  repeat' split
  all_goals exact ⟨rfl, fun _ => rfl⟩

theorem sameRegisters_clockEnvelope (s : SoundAY8910) : SameRegisters s.clockEnvelope s := by
  have hstep := sameRegisters_eStep { s with envc := 0 }
  unfold clockEnvelope
  split
  · exact ⟨hstep.ayreg, hstep.register⟩
  · exact ⟨rfl, fun _ => rfl⟩

theorem sameRegisters_clockNoise (s : SoundAY8910) : SameRegisters s.clockNoise s := by
  unfold clockNoise
  split
  all_goals exact ⟨rfl, fun _ => rfl⟩

theorem sameRegisters_setShape (val : Byte) (s : SoundAY8910) :
    SameRegisters (s.setShape val) s := by
  unfold setShape
  split
  all_goals exact ⟨rfl, fun _ => rfl⟩

namespace SameRegisters

variable {s t u : SoundAY8910}

theorem symm (h : SameRegisters s t) : SameRegisters t s :=
  ⟨h.ayreg.symm, fun i => (h.register i).symm⟩

theorem trans (h : SameRegisters s t) (h' : SameRegisters t u) : SameRegisters s u :=
  ⟨h.ayreg.trans h'.ayreg, fun i => (h.register i).trans (h'.register i)⟩

end SameRegisters

theorem sameRegisters_clock (s : SoundAY8910) : SameRegisters s.clock s :=
  (sameRegisters_cStep 2 _).trans ((sameRegisters_cStep 1 _).trans ((sameRegisters_cStep 0 _).trans
    ((sameRegisters_clockNoise _).trans (sameRegisters_clockEnvelope s))))

theorem sameRegisters_iterate (n : Nat) (s : SoundAY8910) : SameRegisters (clock^[n] s) s := by
  induction n with
  | zero => exact ⟨rfl, fun _ => rfl⟩
  | succ n ih =>
      rw [Function.iterate_succ_apply']
      exact (sameRegisters_clock _).trans ih

namespace SameRegisters

variable {s s' : SoundAY8910} (h : SameRegisters s s')
include h

theorem read (addr : Byte) : s.read addr = s'.read addr := by
  unfold SoundAY8910.read
  rw [← h.ayreg, h.register]

theorem setAyr (i : Fin (16 + 3)) (value : Nat) :
    SameRegisters (s.setAyr i value) (s'.setAyr i value) := by
  refine ⟨h.ayreg, fun j => ?_⟩
  simp only [SoundAY8910.register, SoundAY8910.setAyr, Function.update_apply]
  split
  · rfl
  · exact h.register j

theorem write (addr val : Byte) : SameRegisters (s.write addr val) (s'.write addr val) := by
  unfold SoundAY8910.write
  rw [← h.ayreg]
  split
  · exact ⟨rfl, h.register⟩
  · exact (sameRegisters_setShape val _).trans
      ((h.setAyr _ _).trans (sameRegisters_setShape val _).symm)

end SameRegisters

end SoundAY8910

namespace Chips

variable {κ : Type}

structure Alike (c c' : Chips κ) : Prop where
  peripherals : c.peripherals = c'.peripherals
  timer : c.timer = c'.timer
  ay : c.aywrapper.ay.SameRegisters c'.aywrapper.ay

theorem Alike.tick {c c' : Chips κ} (h : c.Alike c') : c.tick.Alike c'.tick := by
  refine ⟨h.peripherals, congrArg (TimerI8253.clock 1) h.timer, ?_⟩
  exact (SoundAY8910.sameRegisters_iterate _ _).trans
    (h.ay.trans (SoundAY8910.sameRegisters_iterate _ _).symm)

theorem alike_reset {c c' : Chips κ} (h : c.peripherals = c'.peripherals) :
    c.reset.Alike c'.reset :=
  ⟨h, rfl, ⟨rfl, fun _ => rfl⟩⟩

theorem respects (p : Peripherals κ) : p.devices.Respects Alike := by
  constructor
  · exact fun h portA => congrArg (p.keyRead portA) h.peripherals
  · exact fun h => congrArg p.keySS h.peripherals
  · exact fun h => congrArg p.keyUS h.peripherals
  · exact fun h => congrArg p.keyRus h.peripherals
  · intro c c' h addr
    exact ⟨congrArg (fun t : TimerI8253 => BitVec.ofInt 8 (t.read addr).1) h.timer,
      h.peripherals, congrArg (fun t : TimerI8253 => (t.read addr).2) h.timer, h.ay⟩
  · exact fun h addr w8 => ⟨h.peripherals, congrArg (TimerI8253.write addr w8) h.timer, h.ay⟩
  · exact fun h addr => ⟨congrArg (BitVec.ofNat 8) (h.ay.read addr), h⟩
  · exact fun h addr val => ⟨h.peripherals, h.timer, h.ay.write addr val⟩
  · intro c c' h port
    exact ⟨congrArg (fun k => (p.fdcRead port k).1) h.peripherals,
      congrArg (fun k => (p.fdcRead port k).2) h.peripherals, h.timer, h.ay⟩
  · exact fun h port value => ⟨congrArg (p.fdcWrite port value) h.peripherals, h.timer, h.ay⟩
  · exact fun h port value => ⟨congrArg (p.debugPortOut port value) h.peripherals, h.timer, h.ay⟩
  · exact fun h _ => h.tick.tick
  · exact fun h => alike_reset h.peripherals

end Chips

end V6Emul
