import V6Emul.Hardware.Mapping

/-!
# Headless and interactive execution

`RunHeadless` and `ExecuteInstruction` share the turns of an instruction.  Behind
them only `ExecuteInstruction` calls `IsException`, and resets the mapping when a
second RAM disk has been enabled; the two therefore agree up to the first such
collision.
-/

namespace V6Emul

variable {δ : Type}

/-- More than one enabled mapping is found in the registers, and not in empty ones. -/
def Memory.Counted (m : Memory) : Prop :=
  1 < m.mappingsEnabled → ∃ disk, (m.mappings disk).enabled = true

theorem Memory.counted_memAfterOut (port value : Byte) {m : Memory} (h : m.Counted) :
    (Bus.memAfterOut port value m).Counted := by
  unfold Bus.memAfterOut
  split
  · rename_i diskIdx _
    intro hcount
    have hmappings : (m.setRamDiskMode diskIdx value).mappings = _ :=
      (Bus.frame_setRamDiskModeLoop _ _).2.2
    rw [hmappings]
    exact exists_enabled_of_count rfl (Nat.lt_of_succ_lt hcount)
  · exact h

theorem Memory.counted_init (m : Memory) : m.init.Counted := fun h => absurd h (show ¬ 1 < 0 by decide)

namespace Hardware

/-! ## Collisions -/

/-- More than one enabled mapping is counted when the next instruction has been executed. -/
def Collides (dev : Devices δ) (h : Hardware δ) : Prop := 1 < (h.memAfterNext dev).mappingsEnabled

theorem registers_executeCycles {dev : Devices δ} {h t : Hardware δ} (hparked : h.Parked)
    (hrun : h.executeCycles dev = some t) :
    t.mem.registers = (h.memAfterNext dev).registers := by
  by_cases hnext : h.toSys.nextOpcode (h.irqLine dev) = opcodeOut
  · rw [memAfterNext, nextOut, if_pos hnext]
    exact registers_of_out hparked hnext hrun
  · rw [memAfterNext, nextOut, if_neg hnext]
    exact registers_of_no_out hparked hnext hrun

theorem Counted.memAfterNext (dev : Devices δ) {h : Hardware δ} (hcounted : h.mem.Counted) :
    (h.memAfterNext dev).Counted := by
  unfold Hardware.memAfterNext
  split
  · exact Memory.counted_memAfterOut _ _ hcounted
  · exact hcounted

theorem collides_withCount (dev : Devices δ) {h : Hardware δ} {count : Nat}
    (hcount : count = h.mem.mappingsEnabled ∨ (count ≤ 1 ∧ h.mem.mappingsEnabled ≤ 1)) :
    (h.withCount count).Collides dev ↔ h.Collides dev := by
  have hirq : (h.withCount count).irqLine dev = h.irqLine dev := irqLine_setMem dev h rfl
  have hout : (h.withCount count).nextOut dev = h.nextOut dev := by
    rw [nextOut, hirq]
    rfl
  have hsmall : 1 < count ↔ 1 < h.mem.mappingsEnabled := by omega
  rw [Collides, Collides, memAfterNext, memAfterNext, hout]
  split
  · unfold Bus.memAfterOut
    split
    · exact Iff.rfl
    · exact hsmall
  · exact hsmall

theorem executeInstruction_eq {dev : Devices δ} {h t : Hardware δ} (hparked : h.Parked)
    (hrun : h.executeCycles dev = some t) :
    (h.Collides dev → h.executeInstruction dev none =
      some (true, t.setMem (t.mem.withCount 0).initRamDiskMapping)) ∧
    (¬ h.Collides dev → h.executeInstruction dev none = some (false, t.withCount 0)) := by
  have hcount : t.mem.mappingsEnabled = (h.memAfterNext dev).mappingsEnabled :=
    congrArg Prod.snd (registers_executeCycles hparked hrun)
  constructor
  · intro hcollides
    have hexception : t.mem.mappingsEnabled > 1 := hcount ▸ hcollides
    simp only [executeInstruction, hrun, Option.map_some, checkMapping, Memory.isException,
      decide_eq_true hexception]
    rfl
  · intro hno
    have hquiet : ¬ t.mem.mappingsEnabled > 1 := hcount ▸ hno
    simp only [executeInstruction, hrun, Option.map_some, checkMapping, Memory.isException,
      decide_eq_false hquiet]
    rfl

/-! ## Between instructions -/

structure Ready (h : Hardware δ) : Prop where
  parked : h.Parked
  counted : h.mem.Counted

theorem ready_ofRam (ram : Ram) (devices : δ) : (ofRam ram devices).Ready :=
  ⟨parked_ofRam ram devices, fun h => absurd h (show ¬ 1 < 0 by decide)⟩

theorem ready_reset (dev : Devices δ) (h : Hardware δ) : (h.reset dev).Ready :=
  ⟨parked_reset dev h, Memory.counted_init h.mem⟩

theorem Parked.of_cpu_io {h h' : Hardware δ} (hparked : h.Parked) (hcpu : h'.cpu = h.cpu)
    (hslot : h'.io.state.outCommitTimer = h.io.state.outCommitTimer) : h'.Parked := by
  obtain ⟨⟨⟨hin, hpending, hhalted⟩, hexecuted⟩, hsettled⟩ := hparked
  refine ⟨⟨⟨?_, ?_, ?_⟩, ?_⟩, hslot.trans hsettled⟩
  · rwa [Sys.InCycle, hcpu]
  · rwa [hcpu]
  · rwa [hcpu]
  · rwa [Sys.isInstructionExecuted, hcpu]

theorem parked_restart (dev : Devices δ) {h : Hardware δ} (hparked : h.Parked) :
    (h.restart dev).Parked := by
  have hcpu := Sys.parked_ofReset (h.restart dev).mem (h.restart dev).io
  exact ⟨⟨⟨hcpu.sequenced.inCycle, hcpu.sequenced.pending, hcpu.sequenced.halted⟩,
    hcpu.executed⟩, hparked.slot⟩

theorem parked_checkMapping {h : Hardware δ} (hparked : h.Parked) : h.checkMapping.2.Parked := by
  unfold Hardware.checkMapping
  dsimp only
  split
  · exact hparked.of_cpu_io rfl rfl
  · exact hparked.of_cpu_io rfl rfl

theorem parked_handle {h : Hardware δ} (hparked : h.Parked) (req : HostReq δ) :
    (h.handle req).Parked := by
  cases req <;> exact hparked.of_cpu_io rfl rfl

theorem Ready.executeCycles {dev : Devices δ} {h t : Hardware δ} (hready : h.Ready)
    (hrun : h.executeCycles dev = some t) : t.Ready := by
  refine ⟨parked_executeCycles hready.parked hrun, ?_⟩
  have hcounted := Counted.memAfterNext dev hready.counted
  have hregisters := registers_executeCycles hready.parked hrun
  have hmappings : t.mem.mappings = (h.memAfterNext dev).mappings := congrArg Prod.fst hregisters
  have hcount : t.mem.mappingsEnabled = (h.memAfterNext dev).mappingsEnabled :=
    congrArg Prod.snd hregisters
  rwa [Memory.Counted, hmappings, hcount]

theorem Ready.checkMapping {h : Hardware δ} (hready : h.Ready) : h.checkMapping.2.Ready := by
  refine ⟨parked_checkMapping hready.parked, ?_⟩
  unfold Hardware.checkMapping
  dsimp only
  split <;> exact fun h => absurd h (show ¬ 1 < 0 by decide)

inductive Operates (dev : Devices δ) (h : Hardware δ) : Hardware δ → Prop where
  | headless {t : Hardware δ} : h.executeCycles dev = some t → Operates dev h t
  | interactive {break_ : Bool} {t : Hardware δ} :
      h.executeInstruction dev none = some (break_, t) → Operates dev h t
  | handle (req : HostReq δ) : Operates dev h (h.handle req)
  | reset : Operates dev h (h.reset dev)
  | restart : Operates dev h (h.restart dev)

theorem ready_of_reachable {dev : Devices δ} {h : Hardware δ}
    (hreach : Runs.Reachable (fun s => ∃ h₀ : Hardware δ, s = h₀.reset dev) (Operates dev) h) :
    h.Ready := by
  refine hreach.invariant ?_ ?_
  · rintro s ⟨h₀, rfl⟩
    exact ready_reset dev h₀
  · intro s t hs hnext
    cases hnext with
    | headless hrun => exact hs.executeCycles hrun
    | interactive hrun =>
        obtain ⟨u, hu, heq⟩ := Option.map_eq_some_iff.mp hrun
        have ht : u.checkMapping.2 = t := congrArg Prod.snd heq
        rw [← ht]
        exact (hs.executeCycles hu).checkMapping
    | handle req =>
        refine ⟨parked_handle hs.parked req, ?_⟩
        cases req <;> exact hs.counted
    | reset => exact ready_reset dev s
    | restart =>
        exact ⟨parked_restart dev hs.parked, fun h => absurd h (show ¬ 1 < 0 by decide)⟩

/-! ## Runs -/

/-- The parts of the machine that a program or a user can see. -/
structure SameState (h h' : Hardware δ) : Prop where
  cpu : h.cpu = h'.cpu
  ram : h.mem.ram = h'.mem.ram
  mappings : h.mem.mappings = h'.mem.mappings
  update : h.mem.update = h'.mem.update
  io : h.io = h'.io
  display : h.display = h'.display

/-- After `n` instructions the headless and the interactive run are in the same state. -/
def Agrees (dev : Devices δ) (n : Nat) (h : Hardware δ) : Prop :=
  ∃ t t', headless dev n h = some t ∧ interactive dev n h = some t' ∧ t.SameState t'

/-- The runs differ in the count at most, which is above one in both or in neither. -/
structure Aligned (dev : Devices δ) (n : Nat) (h t : Hardware δ) (count : Nat) : Prop where
  headless : headless dev n h = some t
  interactive : interactive dev n h = some (t.withCount count)
  count : count = t.mem.mappingsEnabled ∨ (count ≤ 1 ∧ t.mem.mappingsEnabled ≤ 1)
  ready : t.Ready

theorem Aligned.agrees {dev : Devices δ} {n : Nat} {h t : Hardware δ} {count : Nat}
    (ha : Aligned dev n h t count) : Agrees dev n h :=
  ⟨t, t.withCount count, ha.headless, ha.interactive, ⟨rfl, rfl, rfl, rfl, rfl, rfl⟩⟩

theorem parked_withCount {h : Hardware δ} (hparked : h.Parked) (count : Nat) :
    (h.withCount count).Parked := hparked.of_cpu_io rfl rfl

theorem Aligned.next {dev : Devices δ} {n : Nat} {h t : Hardware δ} {count : Nat}
    (ha : Aligned dev n h t count) (hno : ¬ t.Collides dev) :
    ∃ u, Aligned dev (n + 1) h u 0 := by
  obtain ⟨u, hu⟩ := Option.isSome_iff_exists.mp (t.executeCycles_isSome dev)
  obtain ⟨count', hcount'⟩ := executeCycles_withCount dev count t
  rw [hu] at hcount'
  have hsmall : u.mem.mappingsEnabled ≤ 1 := by
    have hregisters := congrArg Prod.snd (registers_executeCycles ha.ready.parked hu)
    change u.mem.mappingsEnabled = _ at hregisters
    rw [hregisters]
    exact Nat.le_of_not_lt hno
  have hno' : ¬ (t.withCount count).Collides dev := mt (collides_withCount dev ha.count).mp hno
  have hstep := (executeInstruction_eq (parked_withCount ha.ready.parked count) hcount').2 hno'
  refine ⟨u, ?_, ?_, .inr ⟨Nat.zero_le 1, hsmall⟩, ha.ready.executeCycles hu⟩
  · rw [Hardware.headless, ha.headless]
    exact hu
  · rw [Hardware.interactive, ha.interactive, Option.bind_some, hstep]
    rfl

theorem Aligned.diverges {dev : Devices δ} {n : Nat} {h t : Hardware δ} {count : Nat}
    (ha : Aligned dev n h t count) (hcollides : t.Collides dev) : ¬ Agrees dev (n + 1) h := by
  obtain ⟨u, hu⟩ := Option.isSome_iff_exists.mp (t.executeCycles_isSome dev)
  obtain ⟨count', hcount'⟩ := executeCycles_withCount dev count t
  rw [hu] at hcount'
  have hcollides' := (collides_withCount dev ha.count).mpr hcollides
  have hstep := (executeInstruction_eq (parked_withCount ha.ready.parked count) hcount').1 hcollides'
  rintro ⟨v, v', hv, hv', hsame⟩
  rw [Hardware.headless, ha.headless, Option.bind_some, hu] at hv
  rw [Hardware.interactive, ha.interactive, Option.bind_some, hstep] at hv'
  cases hv
  cases hv'
  have hregisters := registers_executeCycles ha.ready.parked hu
  have hmappings : u.mem.mappings = (t.memAfterNext dev).mappings := congrArg Prod.fst hregisters
  obtain ⟨disk, henabled⟩ := Counted.memAfterNext dev ha.ready.counted hcollides
  rw [← hmappings, hsame.mappings] at henabled
  have hreset : (Mapping.mk 0).enabled = false := rfl
  exact Bool.false_ne_true (hreset.symm.trans henabled)

theorem exists_aligned {dev : Devices δ} {h : Hardware δ} (hready : h.Ready) (n : Nat)
    (hno : ∀ k < n, ∀ t, headless dev k h = some t → ¬ t.Collides dev) :
    ∃ t count, Aligned dev n h t count := by
  induction n with
  | zero => exact ⟨h, h.mem.mappingsEnabled, rfl, rfl, .inl rfl, hready⟩
  | succ n ih =>
      obtain ⟨t, count, ha⟩ := ih fun k hk => hno k (Nat.lt_succ_of_lt hk)
      obtain ⟨u, hu⟩ := ha.next (hno n (Nat.lt_succ_self n) t ha.headless)
      exact ⟨u, 0, hu⟩

/-- The runs agree on the first `n` instructions exactly when none of these collides. -/
theorem agrees_iff_no_collision (dev : Devices δ) {h : Hardware δ} (hready : h.Ready) (n : Nat) :
    (∀ k ≤ n, Agrees dev k h) ↔
      ∀ k < n, ∀ t, headless dev k h = some t → ¬ t.Collides dev := by
  constructor
  · intro hagrees k
    induction k using Nat.strongRecOn with
    | ind k ih =>
        intro hk t ht hcollides
        obtain ⟨t', count, ha⟩ := exists_aligned hready k
          fun j hj => ih j hj (Nat.lt_trans hj hk)
        have hsame : t' = t := Option.some.inj (ha.headless.symm.trans ht)
        rw [hsame] at ha
        exact ha.diverges hcollides (hagrees (k + 1) hk)
  · intro hno k hk
    obtain ⟨t, count, ha⟩ := exists_aligned hready k
      fun j hj => hno j (Nat.lt_of_lt_of_le hj hk)
    exact ha.agrees

/-- `LXI SP, 2000H; PUSH B; MVI A, 20H; OUT 10H` stores a word and enables one RAM disk. -/
def pushProgram : Ram := fun i => [0x31, 0x00, 0x20, 0xC5, 0x3E, 0x20, 0xD3, 0x10].getD i.val 0

/-- A witness: with one RAM disk the two runs agree on every instruction. -/
theorem agrees_iff_no_collision_push :
    let h : Hardware Unit := ofRam pushProgram ()
    (∀ k ≤ 4, Agrees .silent k h) ∧
      (headless .silent 4 h).map (fun t => t.mem.mappings ⟨0, by decide⟩) = some ⟨0x20⟩ := by
  intro h
  have hiff := agrees_iff_no_collision .silent (ready_ofRam pushProgram ()) 4
  have hsmall : ∀ k < 4, ∀ t ∈ headless .silent k h,
      (t.memAfterNext .silent).mappingsEnabled ≤ 1 := by
    have hall : ∀ k < 4, (headless .silent k h).all
        (fun t => decide ((t.memAfterNext .silent).mappingsEnabled ≤ 1)) = true := by
      decide +kernel
    intro k hk t ht
    have hone := hall k hk
    rw [Option.mem_def.mp ht] at hone
    exact of_decide_eq_true hone
  refine ⟨hiff.mpr ?_, by decide +kernel⟩
  intro k hk t ht
  exact Nat.not_lt.mpr (hsmall k hk t ht)

/-- `MVI A, 20H; OUT 10H; OUT 11H` enables the mappings of two RAM disks. -/
def ramDiskProgram : Ram := fun i => [0x3E, 0x20, 0xD3, 0x10, 0xD3, 0x11].getD i.val 0

/-- The headless run keeps both mappings, the interactive one resets them. -/
theorem second_ramDisk_diverges :
    let h : Hardware Unit := ofRam ramDiskProgram ()
    (headless .silent 3 h).map (fun t => t.mem.mappings ⟨1, by decide⟩) = some ⟨0x20⟩ ∧
      (interactive .silent 3 h).map (fun t => t.mem.mappings ⟨1, by decide⟩) = some ⟨0⟩ ∧
      ¬ Agrees .silent 3 h := by
  intro h
  have hheadless : (headless .silent 3 h).map (fun t => t.mem.mappings ⟨1, by decide⟩) =
      some ⟨0x20⟩ := by decide +kernel
  have hinteractive : (interactive .silent 3 h).map (fun t => t.mem.mappings ⟨1, by decide⟩) =
      some ⟨0⟩ := by decide +kernel
  refine ⟨hheadless, hinteractive, ?_⟩
  rintro ⟨t, t', ht, ht', hsame⟩
  rw [ht, Option.map_some, Option.some_inj, hsame.mappings] at hheadless
  rw [ht', Option.map_some, hheadless] at hinteractive
  exact absurd hinteractive (by decide)

/-! ## `RunHeadless` -/

theorem headless_succ (dev : Devices δ) (n : Nat) (h : Hardware δ) :
    headless dev (n + 1) h = (h.executeCycles dev).bind (headless dev n) := by
  induction n with
  | zero => simp [headless]
  | succ n ih =>
      rw [headless, ih, Option.bind_assoc]
      rfl

theorem exists_headless_of_loop {dev : Devices δ} {limits : HeadlessLimits}
    {startCC startFrame : BitVec 64} {fuel : Nat} {h t : Hardware δ}
    (hrun : runHeadlessLoop dev limits startCC startFrame fuel h = some t) :
    ∃ n, 0 < n ∧ n ≤ fuel ∧ headless dev n h = some t := by
  induction fuel generalizing h with
  | zero => cases hrun
  | succ fuel ih =>
      rw [runHeadlessLoop] at hrun
      obtain ⟨u, hu, hrest⟩ := Option.bind_eq_some_iff.mp hrun
      split at hrest
      · cases hrest
        refine ⟨1, Nat.one_pos, Nat.succ_le_succ (Nat.zero_le fuel), ?_⟩
        rw [headless_succ, hu]
        rfl
      · obtain ⟨n, -, hn, hheadless⟩ := ih hrest
        refine ⟨n + 1, Nat.succ_pos n, Nat.succ_le_succ hn, ?_⟩
        rw [headless_succ, hu]
        exact hheadless

theorem exists_headless_of_run {dev : Devices δ} {limits : HeadlessLimits} {fuel : Nat}
    {h t : Hardware δ} {result : HeadlessResult}
    (hrun : h.runHeadless dev limits fuel = some (result, t)) :
    ∃ n, 0 < n ∧ n ≤ fuel ∧ headless dev n h = some t := by
  obtain ⟨u, hu, heq⟩ := Option.map_eq_some_iff.mp hrun
  cases heq
  exact exists_headless_of_loop hu

end Hardware

end V6Emul
