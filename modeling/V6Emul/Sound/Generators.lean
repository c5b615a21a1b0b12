import Mathlib.Tactic.FinCases
import V6Emul.Foundation.Divider
import V6Emul.Sound.Chips
import V6Emul.Sound.Noise

/-!
# The generators of the sound chip

Three tones, the noise and the envelope count the clock side by side, each with a period
from the registers.  What they leave in a channel is a level for the table of amplitudes.
-/

namespace V6Emul

namespace SoundAY8910

/-! ## What each of them counts -/

def tonePeriod (ch : Fin 3) (s : SoundAY8910) : Nat :=
  s.register (BitVec.ofNat 4 (2 * ch)) ||| s.register (BitVec.ofNat 4 (2 * ch + 1)) <<< 8

def toneCount (ch : Fin 3) (s : SoundAY8910) : Nat := s.ayr (ch.natAdd 16)

def tone (ch : Fin 3) (s : SoundAY8910) : Bool := s.tons.testBit ch

def noisePeriod (s : SoundAY8910) : Nat := s.register 6 <<< 1

def envelopePeriod (s : SoundAY8910) : Nat := s.register 11 <<< 1 ||| s.register 12 <<< 9

def envelope (s : SoundAY8910) : Nat × Nat × Nat := (s.envx, s.ay13, s.envv)

/-! ## What each of them leaves alone -/

theorem eStep_frame (s : SoundAY8910) :
    s.eStep.2.ayr = s.ayr ∧ s.eStep.2.tons = s.tons ∧ s.eStep.2.noic = s.noic ∧
      s.eStep.2.noir = s.noir ∧ s.eStep.2.envc = s.envc := by
  simp only [eStep]
  repeat' split
  all_goals simp

theorem clockEnvelope_frame (s : SoundAY8910) :
    s.clockEnvelope.ayr = s.ayr ∧ s.clockEnvelope.tons = s.tons ∧
      s.clockEnvelope.noic = s.noic ∧ s.clockEnvelope.noir = s.noir := by
  obtain ⟨hayr, htons, hnoic, hnoir, -⟩ := eStep_frame { s with envc := 0 }
  simp only [clockEnvelope]
  split <;> simp [hayr, htons, hnoic, hnoir]

theorem clockNoise_frame (s : SoundAY8910) :
    s.clockNoise.ayr = s.ayr ∧ s.clockNoise.tons = s.tons ∧ s.clockNoise.envc = s.envc ∧
      s.clockNoise.envelope = s.envelope := by
  simp only [clockNoise, envelope]
  split <;> simp

theorem cStep_frame (ch : Fin 3) (s : SoundAY8910) :
    (s.cStep ch).envc = s.envc ∧ (s.cStep ch).envelope = s.envelope ∧
      (s.cStep ch).noic = s.noic ∧ (s.cStep ch).noir = s.noir := by
  simp only [cStep, envelope]
  split <;> simp [setAyr]

theorem cStep_eq (ch : Fin 3) (s : SoundAY8910) :
    s.cStep ch = if Divider.Fires (s.tonePeriod ch) (s.toneCount ch) then
        { s.setAyr (ch.natAdd 16) 0 with tons := s.tons ^^^ 1 <<< ch.val }
      else s.setAyr (ch.natAdd 16) (s.toneCount ch + 1) := rfl

theorem toneCount_cStep (ch c : Fin 3) (s : SoundAY8910) :
    (s.cStep c).toneCount ch =
      if ch = c then Divider.next (s.tonePeriod ch) (s.toneCount ch) else s.toneCount ch := by
  by_cases hsame : ch = c
  · subst hsame
    rw [cStep_eq, Divider.next, if_pos rfl]
    split_ifs <;> simp [toneCount, setAyr]
  · have hindex : ch.natAdd 16 ≠ c.natAdd 16 := fun h => hsame (Fin.natAdd_inj 16 |>.mp h)
    rw [cStep_eq, if_neg hsame]
    split_ifs <;> simp [toneCount, setAyr, Function.update_of_ne hindex]

theorem tone_cStep (ch c : Fin 3) (s : SoundAY8910) :
    (s.cStep c).tone ch =
      (s.tone ch ^^ decide (ch = c ∧ Divider.Fires (s.tonePeriod ch) (s.toneCount ch))) := by
  by_cases hsame : ch = c
  · subst hsame
    rw [cStep_eq]
    split_ifs with hfires <;> simp [hfires, tone, setAyr, Nat.one_shiftLeft]
  · have hval : c.val ≠ ch.val := fun h => hsame (Fin.ext h.symm)
    rw [cStep_eq]
    split_ifs <;> simp [hsame, hval, tone, setAyr, Nat.one_shiftLeft]

theorem tonePeriod_congr {s t : SoundAY8910} (h : SameRegisters s t) (ch : Fin 3) :
    s.tonePeriod ch = t.tonePeriod ch := by
  simp only [tonePeriod, h.register]

theorem tonePeriod_cStep (ch c : Fin 3) (s : SoundAY8910) :
    (s.cStep c).tonePeriod ch = s.tonePeriod ch := tonePeriod_congr (sameRegisters_cStep c s) ch

/-! ## Dividers -/

theorem tone_clock (ch : Fin 3) (s : SoundAY8910) :
    s.clock.toneCount ch = Divider.next (s.tonePeriod ch) (s.toneCount ch) ∧
      s.clock.tone ch =
        (s.tone ch ^^ decide (Divider.Fires (s.tonePeriod ch) (s.toneCount ch))) := by
  obtain ⟨hayr, htons, -⟩ := clockEnvelope_frame s
  obtain ⟨hayr', htons', -⟩ := clockNoise_frame s.clockEnvelope
  have hcount : s.clockEnvelope.clockNoise.toneCount ch = s.toneCount ch := by
    simp [toneCount, hayr, hayr']
  have hbit : s.clockEnvelope.clockNoise.tone ch = s.tone ch := by
    simp [tone, htons, htons']
  have hperiod : s.clockEnvelope.clockNoise.tonePeriod ch = s.tonePeriod ch :=
    tonePeriod_congr ((sameRegisters_clockNoise _).trans (sameRegisters_clockEnvelope s)) ch
  rw [← hcount, ← hbit, ← hperiod, clock]
  fin_cases ch <;> simp [toneCount_cStep, tone_cStep, tonePeriod_cStep]

def Reversed (ch : Fin 3) (start : Bool) (k : Nat) (s : SoundAY8910) : Prop :=
  s.tone ch = (start ^^ decide (k % 2 = 1))

theorem tone_drives (ch : Fin 3) (start : Bool) :
    Divider.Drives clock (tonePeriod ch) (toneCount ch) (Reversed ch start) where
  period_clock s := tonePeriod_congr (sameRegisters_clock s) ch
  count_clock s := (tone_clock ch s).1
  fires s k hk hfires := by
    have hodd : (k + 1) % 2 = 1 ↔ ¬ k % 2 = 1 := by omega
    rw [Reversed] at hk ⊢
    rw [(tone_clock ch s).2, hk]
    by_cases hbit : k % 2 = 1 <;> simp [hfires, hodd, hbit]
  waits s k hk hwaits := by
    rw [Reversed] at hk ⊢
    simp [(tone_clock ch s).2, hk, hwaits]

theorem clockNoise_eq (s : SoundAY8910) :
    s.clockNoise = if Divider.Fires s.noisePeriod s.noic then
        { s with noic := 0, noiv := s.noir &&& 1, noir := shiftNoise s.noir }
      else { s with noic := s.noic + 1 } := rfl

theorem noise_clock (s : SoundAY8910) :
    s.clock.noic = Divider.next s.noisePeriod s.noic ∧
      s.clock.noir =
        if Divider.Fires s.noisePeriod s.noic then shiftNoise s.noir else s.noir := by
  obtain ⟨hayr, -, hnoic, hnoir⟩ := clockEnvelope_frame s
  have hperiod : s.clockEnvelope.noisePeriod = s.noisePeriod := by
    simp [noisePeriod, register, hayr]
  rw [← hnoic, ← hnoir, ← hperiod, clock]
  simp only [cStep_frame, clockNoise_eq, Divider.next]
  split_ifs <;> exact ⟨rfl, rfl⟩

theorem noise_drives (start : Nat) :
    Divider.Drives clock noisePeriod noic fun k s => s.noir = shiftNoise^[k] start where
  period_clock s := by simp only [noisePeriod, (sameRegisters_clock s).register]
  count_clock s := (noise_clock s).1
  fires s k hk hfires := by
    rw [(noise_clock s).2, if_pos hfires, hk, Function.iterate_succ_apply']
  waits s k hk hwaits := by rw [(noise_clock s).2, if_neg hwaits, hk]

theorem clockEnvelope_eq (s : SoundAY8910) :
    s.clockEnvelope = if Divider.Fires s.envelopePeriod s.envc then
        { ({ s with envc := 0 } : SoundAY8910).eStep.2 with
          envv := ({ s with envc := 0 } : SoundAY8910).eStep.1 }
      else { s with envc := s.envc + 1 } := rfl

theorem eStep_envc (s : SoundAY8910) :
    ({ s with envc := 0 } : SoundAY8910).eStep = (s.eStep.1, { s.eStep.2 with envc := 0 }) := by
  simp only [eStep]
  split_ifs <;> rfl

theorem envelope_clock (s : SoundAY8910) :
    s.clock.envc = Divider.next s.envelopePeriod s.envc ∧
      s.clock.envelope = if Divider.Fires s.envelopePeriod s.envc then
        (s.eStep.2.envx, s.eStep.2.ay13, s.eStep.1) else s.envelope := by
  have hnoise : ∀ t : SoundAY8910, t.clockNoise.envc = t.envc ∧
      t.clockNoise.envelope = t.envelope :=
    fun t => ⟨(clockNoise_frame t).2.2.1, (clockNoise_frame t).2.2.2⟩
  simp only [clock, cStep_frame, hnoise, clockEnvelope_eq, eStep_envc, Divider.next]
  split_ifs <;> exact ⟨rfl, rfl⟩

/-! ## Levels -/

/-- Whether a channel is heard: its tone and the noise, each unless the mixer excludes it. -/
def mix (ch : Fin 3) (s : SoundAY8910) : Nat :=
  let mixer := s.register 7
  (mixer >>> ch.val ||| s.tons >>> ch.val) &&& (mixer >>> (ch.val + 3) ||| s.noiv) &&& 1

/-- The index with which `CStep` reads `amp`, whether the channel is heard or not. -/
def ampIndex (ch : Fin 3) (s : SoundAY8910) : Nat :=
  let volume := s.register (BitVec.ofNat 4 (8 + ch))
  if volume &&& 0x10 ≠ 0 then s.envv else volume &&& 0x0F

/-- The level that is heard; 0 is silence. -/
def level (ch : Fin 3) (s : SoundAY8910) : Nat := s.mix ch * s.ampIndex ch

/-- The mixer passes the tone of a channel and not the noise, and its volume is fixed. -/
structure PlaysTone (ch : Fin 3) (s : SoundAY8910) : Prop where
  toneOn : (s.register 7).testBit ch = false
  noiseOff : (s.register 7).testBit (ch + 3) = true
  fixedVolume : s.register (BitVec.ofNat 4 (8 + ch)) < 0x10

theorem fixedVolume_bits : ∀ volume < 0x10, volume &&& 0x10 = 0 ∧ volume &&& 0x0F = volume := by
  decide

theorem PlaysTone.level {ch : Fin 3} {s : SoundAY8910} (h : s.PlaysTone ch) :
    s.level ch = if s.tone ch then s.register (BitVec.ofNat 4 (8 + ch)) else 0 := by
  obtain ⟨henvelope, hvolume⟩ := fixedVolume_bits _ h.fixedVolume
  have hmix : s.mix ch = (s.tone ch).toNat := by
    have hone : ∀ x : Nat, x &&& 1 = (x.testBit 0).toNat := by
      intro x
      rw [Nat.and_one_is_mod, Nat.testBit_zero]
      rcases Nat.mod_two_eq_zero_or_one x with hbit | hbit <;> simp [hbit]
    rw [mix, hone, Nat.testBit_and, Nat.testBit_or, Nat.testBit_or, Nat.testBit_shiftRight,
      Nat.testBit_shiftRight, Nat.testBit_shiftRight, Nat.add_zero, Nat.add_zero, h.toneOn,
      h.noiseOff, Bool.false_or, Bool.true_or, Bool.and_true, SoundAY8910.tone]
  rw [SoundAY8910.level, ampIndex, hmix]
  cases s.tone ch <;> simp [henvelope, hvolume]

/--
A channel that plays its tone alternates between silence and its volume, with the period
of its registers, whatever the other channels, the noise and the envelope do.
-/
theorem level_square (ch : Fin 3) {s : SoundAY8910} (h : s.PlaysTone ch) (n : Nat) :
    (clock^[n] s).level ch =
      if s.tone ch ^^ decide (Divider.fired (s.tonePeriod ch) (s.toneCount ch) n % 2 = 1) then
        s.register (BitVec.ofNat 4 (8 + ch)) else 0 := by
  have hsame := sameRegisters_iterate n s
  have hplays : (clock^[n] s).PlaysTone ch := by
    constructor
    · rw [hsame.register]
      exact h.toneOn
    · rw [hsame.register]
      exact h.noiseOff
    · rw [hsame.register]
      exact h.fixedVolume
  have hstart : Reversed ch (s.tone ch) 0 s := by simp [Reversed]
  have htone := (tone_drives ch (s.tone ch)).iterate n hstart
  rw [Nat.zero_add] at htone
  rw [hplays.level, htone, hsame.register]

def tuned : SoundAY8910 :=
  ((((init.write 1 7).write 0 0x38).write 1 0).write 0 2 |>.write 1 8).write 0 15

theorem level_square_tuned : (clock^[2] tuned).level 0 = 15 :=
  (level_square 0 ⟨by decide, by decide, by decide⟩ 2).trans (by decide)

/-! ## Runs -/

/-- What happens to the chip: a program writes to it, and it is clocked. -/
inductive Call where
  | write (addr val : Byte)
  | clock

def Call.run (s : SoundAY8910) : Call → SoundAY8910
  | .write addr val => s.write addr val
  | .clock => s.clock

structure Bounded (s : SoundAY8910) : Prop where
  envx : s.envx ≤ 16
  envv : s.envv ≤ 15
  noir_pos : 0 < s.noir
  noir_lt : s.noir < 2 ^ 17

theorem bounded_init : init.Bounded := ⟨by decide, by decide, by decide, by decide⟩

theorem eStep_bounds {s : SoundAY8910} (h : s.envx ≤ 16) :
    s.eStep.1 ≤ 15 ∧ s.eStep.2.envx ≤ 16 := by
  have hend : s.envx >>> 4 = s.envx / 16 := Nat.shiftRight_eq_div_pow s.envx 4
  have htwo : (s.ay13 >>> 1 ^^^ s.ay13) &&& 2 ≤ 2 := Nat.and_le_right
  simp only [eStep, hend]
  split_ifs <;> simp <;> omega

theorem Bounded.clock {s : SoundAY8910} (h : s.Bounded) : s.clock.Bounded := by
  obtain ⟨hvalue, hx⟩ := eStep_bounds h.envx
  have hnoise := (noise_clock s).2
  have henvelope := (envelope_clock s).2
  simp only [envelope] at henvelope
  constructor
  · split at henvelope <;> simp_all [h.envx]
  · split at henvelope <;> simp_all [h.envv]
  · rw [hnoise]
    split
    · exact shiftNoise_pos _ h.noir_lt h.noir_pos
    · exact h.noir_pos
  · rw [hnoise]
    split
    · exact shiftNoise_lt _ h.noir_lt
    · exact h.noir_lt

theorem Bounded.setShape {s : SoundAY8910} (h : s.Bounded) (val : Byte) :
    (s.setShape val).Bounded := by
  unfold SoundAY8910.setShape
  split
  · exact ⟨Nat.zero_le _, h.envv, h.noir_pos, h.noir_lt⟩
  · exact h

theorem Bounded.write {s : SoundAY8910} (h : s.Bounded) (addr val : Byte) :
    (s.write addr val).Bounded := by
  unfold SoundAY8910.write
  split
  · exact ⟨h.envx, h.envv, h.noir_pos, h.noir_lt⟩
  · exact Bounded.setShape (s := s.setAyr _ _) ⟨h.envx, h.envv, h.noir_pos, h.noir_lt⟩ val

theorem bounded_run (calls : List Call) : (calls.foldl Call.run init).Bounded := by
  have hrun : ∀ s : SoundAY8910, s.Bounded → (calls.foldl Call.run s).Bounded := by
    induction calls with
    | nil => exact fun s hs => hs
    | cons call rest ih =>
        intro s hs
        cases call with
        | write addr val => exact ih _ (hs.write addr val)
        | clock => exact ih _ hs.clock
  exact hrun init bounded_init

/-- The indices with which the three calls of `CStep` in a clock read `amp`. -/
def clockReads (s : SoundAY8910) : List Nat :=
  let s := s.clockEnvelope.clockNoise.cStep 0
  let s' := s.cStep 1
  [s.ampIndex 0, s'.ampIndex 1, (s'.cStep 2).ampIndex 2]

theorem ampIndex_lt {s : SoundAY8910} (h : s.envv ≤ 15) (ch : Fin 3) : s.ampIndex ch < 16 := by
  have hvolume : s.register (BitVec.ofNat 4 (8 + ch)) &&& 0x0F ≤ 0x0F := Nat.and_le_right
  simp only [ampIndex]
  split_ifs <;> omega

/-- The table of amplitudes is only read inside its 16 entries. -/
theorem clockReads_lt (calls : List Call) :
    ∀ index ∈ (calls.foldl Call.run init).clockReads, index < 16 := by
  have hbounded := (bounded_run calls).clock
  generalize calls.foldl Call.run init = s at hbounded ⊢
  have hcStep (ch : Fin 3) (s : SoundAY8910) : (s.cStep ch).envv = s.envv :=
    congrArg (fun e => e.2.2) (cStep_frame ch s).2.1
  have henvv := hbounded.envv
  simp only [clock, hcStep] at henvv
  intro index hindex
  simp only [clockReads, List.mem_cons, List.not_mem_nil, or_false] at hindex
  rcases hindex with rfl | rfl | rfl
  all_goals exact ampIndex_lt (by simp only [hcStep]; exact henvv) _

def envelopeAndVolume : List Call :=
  [.write 1 8, .write 0 0x10, .write 1 9, .write 0 12, .write 1 13, .write 0 13] ++
    List.replicate 5 .clock

/-- A witness: an envelope that rises on one channel, and a volume on another. -/
theorem clockReads_lt_rising :
    (envelopeAndVolume.foldl Call.run init).clockReads = [5, 12, 0] ∧ 5 < 16 :=
  ⟨by decide +kernel, clockReads_lt envelopeAndVolume 5 (by decide +kernel)⟩

/--
After any writes and clocks the noise goes on with the period of register 6, and its
words repeat after `2 ^ 17 - 1` shifts, which go once through every word but zero.
-/
theorem noise_maximal (calls : List Call) :
    let s := calls.foldl Call.run init
    (∀ n, (clock^[n] s).noir = shiftNoise^[Divider.fired s.noisePeriod s.noic n] s.noir) ∧
      Function.minimalPeriod shiftNoise s.noir = 2 ^ 17 - 1 ∧
      ∀ v, 0 < v → v < 2 ^ 17 → ∃ k < 2 ^ 17 - 1, shiftNoise^[k] s.noir = v := by
  intro s
  have hbounded : s.Bounded := bounded_run calls
  refine ⟨?_, ?_, ?_⟩
  · intro n
    have hnoise := (noise_drives s.noir).iterate n (k := 0) rfl
    rwa [Nat.zero_add] at hnoise
  · exact minimalPeriod_shiftNoise hbounded.noir_lt hbounded.noir_pos
  · intro v hpos hlt
    exact exists_shiftNoise hbounded.noir_lt hbounded.noir_pos hlt hpos

end SoundAY8910

end V6Emul
