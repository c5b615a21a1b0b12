import V6Emul.Recorder.Targets

/-!
# The active RAM-disk mapping

The mapping is held twice: eight registers, and the active mapping derived from
them.  Writing a register and the resets keep the two in agreement.  The recorder
saves and restores the active mapping alone, which agrees with the registers
only if the state that playback stops at was saved under the same mapping.
-/

namespace V6Emul

open Packed

/-! ## Agreement -/

namespace Memory

def activeDisk (mappings : Fin ramDiskMax → Mapping) : Option (Fin ramDiskMax) :=
  (List.finRange ramDiskMax).find? fun i => (mappings i).enabled

def Selects (mappings : Fin ramDiskMax → Mapping) (disk : Option (Fin ramDiskMax)) (u : Update) :
    Prop :=
  match disk with
  | none => u.mapping = ⟨0⟩
  | some i => u.mapping = mappings i ∧ u.ramdiskIdx = BitVec.ofNat 3 i

def Coherent (m : Memory) : Prop := Selects m.mappings (activeDisk m.mappings) m.update

structure SameMapping (m m' : Memory) : Prop where
  mappings : m'.mappings = m.mappings
  mapping : m'.update.mapping = m.update.mapping
  ramdiskIdx : m'.update.ramdiskIdx = m.update.ramdiskIdx

theorem SameMapping.coherent {m m' : Memory} (h : m.SameMapping m') (hm : m.Coherent) :
    m'.Coherent := by
  unfold Coherent Selects at hm ⊢
  rw [h.mappings]
  cases hdisk : activeDisk m.mappings with
  | none =>
      rw [hdisk] at hm
      exact h.mapping.trans hm
  | some i =>
      rw [hdisk] at hm
      exact ⟨h.mapping.trans hm.1, h.ramdiskIdx.trans hm.2⟩

theorem activeDisk_clear : activeDisk (fun _ => ⟨0⟩) = none := by
  decide

theorem coherent_initRamDiskMapping (m : Memory) : m.initRamDiskMapping.Coherent := by
  rw [Coherent, initRamDiskMapping, activeDisk_clear]
  rfl

theorem coherent_init (m : Memory) : m.init.Coherent := coherent_initRamDiskMapping _

theorem coherent_restart (m : Memory) : m.restart.Coherent := coherent_initRamDiskMapping _

/-! ## Writing a mapping register -/

theorem setRamDiskModeLoop_found (m : Memory) (h : 1 ≤ m.mappingsEnabled)
    (disks : List (Fin ramDiskMax)) :
    (m.setRamDiskModeLoop disks).mappings = m.mappings ∧
      (m.setRamDiskModeLoop disks).update = m.update := by
  induction disks with
  | nil => exact ⟨rfl, rfl⟩
  | cons i disks ih =>
      rw [setRamDiskModeLoop]
      cases henabled : (m.mappings i).enabled with
      | true =>
          have hstep : m.setRamDiskModeStep i =
              (true, { m with mappingsEnabled := m.mappingsEnabled + 1 }) := by
            rw [setRamDiskModeStep, if_pos henabled]
            exact if_pos (by change m.mappingsEnabled + 1 > 1; omega)
          rw [hstep]
          exact ⟨rfl, rfl⟩
      | false =>
          have hstep : m.setRamDiskModeStep i = (false, m) := by
            rw [setRamDiskModeStep, if_neg (by rw [henabled]; exact Bool.false_ne_true)]
          rw [hstep]
          exact ih

theorem setRamDiskModeLoop_selects (m : Memory) (hnone : m.mappingsEnabled = 0)
    (hclear : m.update.mapping = ⟨0⟩) (disks : List (Fin ramDiskMax)) :
    (m.setRamDiskModeLoop disks).mappings = m.mappings ∧
      Selects m.mappings (disks.find? fun i => (m.mappings i).enabled)
        (m.setRamDiskModeLoop disks).update := by
  induction disks with
  | nil => exact ⟨rfl, hclear⟩
  | cons i disks ih =>
      rw [setRamDiskModeLoop]
      cases henabled : (m.mappings i).enabled with
      | true =>
          have hstep : m.setRamDiskModeStep i = (false, { m with
              mappingsEnabled := m.mappingsEnabled + 1
              update := { m.update with
                mapping := m.mappings i
                ramdiskIdx := BitVec.ofNat 3 i } }) := by
            rw [setRamDiskModeStep, if_pos henabled]
            exact if_neg (by change ¬ m.mappingsEnabled + 1 > 1; omega)
          obtain ⟨hmappings, hupdate⟩ := setRamDiskModeLoop_found { m with
            mappingsEnabled := m.mappingsEnabled + 1
            update := { m.update with
              mapping := m.mappings i
              ramdiskIdx := BitVec.ofNat 3 i } } (Nat.le_add_left 1 _) disks
          have hfind : ((i :: disks).find? fun i => (m.mappings i).enabled) = some i := by
            simp [henabled]
          rw [hstep, hfind]
          refine ⟨hmappings, ?_⟩
          simp only [hupdate]
          exact ⟨rfl, rfl⟩
      | false =>
          have hstep : m.setRamDiskModeStep i = (false, m) := by
            rw [setRamDiskModeStep, if_neg (by rw [henabled]; exact Bool.false_ne_true)]
          have hfind : ((i :: disks).find? fun i => (m.mappings i).enabled) =
              disks.find? fun i => (m.mappings i).enabled := by
            simp [henabled]
          rw [hstep, hfind]
          exact ih

theorem coherent_setRamDiskMode (m : Memory) (diskIdx : Fin ramDiskMax) (data : Byte) :
    (m.setRamDiskMode diskIdx data).Coherent := by
  obtain ⟨hmappings, hselects⟩ := setRamDiskModeLoop_selects { m with
    mappings := Function.update m.mappings diskIdx ⟨data⟩
    update := { m.update with mapping := ⟨0⟩ }
    mappingsEnabled := 0 } rfl rfl (List.finRange ramDiskMax)
  rw [Coherent, setRamDiskMode, hmappings]
  exact hselects

end Memory

/-! ## The mapping that playback sets -/

namespace Recorder

def mappingAt (r : Recorder) (u : Update) (slot : Option Nat) : Update :=
  slot.elim u fun i => (r.states i).saved.mem

theorem mem_snapshotAt (r : Recorder) (s : Snapshot) (slot : Option Nat) :
    (r.snapshotAt s slot).mem = r.mappingAt s.mem slot := by
  cases slot <;> rfl

theorem playForwardLoop_mapping (frames : Nat) (r : Recorder) (m : Machine) :
    (r.playForwardLoop frames m).2.mem.mappings = m.mem.mappings ∧
      (r.playForwardLoop frames m).2.mem.update =
        r.mappingAt m.mem.update (forwardSlot frames r) := by
  obtain ⟨hmappings, hsnapshot⟩ := r.playForwardLoop_snapshot frames m
  exact ⟨hmappings, (congrArg Snapshot.mem hsnapshot).trans (r.mem_snapshotAt _ _)⟩

theorem playReverseLoop_mapping (frames : Nat) (r : Recorder) (m : Machine) :
    (r.playReverseLoop frames m).2.mem.mappings = m.mem.mappings ∧
      (r.playReverseLoop frames m).2.mem.update =
        r.mappingAt m.mem.update (reverseSlot frames r) := by
  obtain ⟨hmappings, hsnapshot⟩ := r.playReverseLoop_snapshot frames m
  exact ⟨hmappings, (congrArg Snapshot.mem hsnapshot).trans (r.mem_snapshotAt _ _)⟩

theorem deserialize_mapping {data : List Byte} {r r' : Recorder} {m m' : Machine}
    (h : r.deserialize data m = some (r', m')) :
    m'.mem.mappings = m.mem.mappings ∧
      m'.mem.update =
        if (Layout.uint 4).decode (data.take 4) &&& versionMask = formatVersion then
          (lastSaved data).mem
        else m.mem.update := by
  obtain ⟨hmappings, hsnapshot⟩ := deserialize_snapshot h
  refine ⟨hmappings, (congrArg Snapshot.mem hsnapshot).trans ?_⟩
  split <;> rfl

end Recorder

/-! ## Operations in any order -/

inductive MappingOp where
  | setRamDiskMode (diskIdx : Fin ramDiskMax) (data : Byte)
  | initRamDiskMapping
  | init
  | restart
  /-- An instruction or an interrupt that leaves the machine as given, and the `Update` behind it. -/
  | execute (m : Machine)
  | resetRecorder
  | playForward (frames : Int)
  | playReverse (frames : Int)
  | deserialize (data : List Byte)

structure MappingRun where
  recorder : Recorder
  machine : Machine

namespace MappingRun

def setMem (s : MappingRun) (mem : Memory) : MappingRun :=
  { s with machine := { s.machine with mem := mem } }

inductive Step (s : MappingRun) : MappingOp → MappingRun → Prop where
  | setRamDiskMode (diskIdx : Fin ramDiskMax) (data : Byte) :
      Step s (.setRamDiskMode diskIdx data) (s.setMem (s.machine.mem.setRamDiskMode diskIdx data))
  | initRamDiskMapping : Step s .initRamDiskMapping (s.setMem s.machine.mem.initRamDiskMapping)
  | init : Step s .init (s.setMem s.machine.mem.init)
  | restart : Step s .restart (s.setMem s.machine.mem.restart)
  | execute (m : Machine) : s.machine.mem.SameMapping m.mem →
      Step s (.execute m) ⟨s.recorder.update m, m⟩
  | resetRecorder : Step s .resetRecorder ⟨s.recorder.reset s.machine, s.machine⟩
  | playForward (frames : Int) : Step s (.playForward frames)
      ⟨(s.recorder.playForward frames s.machine).1, (s.recorder.playForward frames s.machine).2⟩
  | playReverse (frames : Int) : Step s (.playReverse frames)
      ⟨(s.recorder.playReverse frames s.machine).1, (s.recorder.playReverse frames s.machine).2⟩
  | deserialize (data : List Byte) {r : Recorder} {m : Machine} :
      s.recorder.deserialize data s.machine = some (r, m) → Step s (.deserialize data) ⟨r, m⟩

def Selected (s : MappingRun) (u : Update) : Prop :=
  Memory.Selects s.machine.mem.mappings (Memory.activeDisk s.machine.mem.mappings) u

/-- A state that playback or a load sets was saved under the mapping that the registers hold now. -/
def SetsSelected (s : MappingRun) : MappingOp → Prop
  | .playForward frames =>
      ∀ i ∈ Recorder.forwardSlot frames.toNat s.recorder,
        s.Selected (s.recorder.states i).saved.mem
  | .playReverse frames =>
      ∀ i ∈ Recorder.reverseSlot frames.toNat s.recorder,
        s.Selected (s.recorder.states i).saved.mem
  | .deserialize data =>
      (Layout.uint 4).decode (data.take 4) &&& Recorder.versionMask = Recorder.formatVersion →
        s.Selected (Recorder.lastSaved data).mem
  | _ => True

def Coherent (s : MappingRun) : Prop := s.machine.mem.Coherent

theorem selected_mappingAt {s : MappingRun} (hs : s.Coherent) (slot : Option Nat) :
    s.Selected (s.recorder.mappingAt s.machine.mem.update slot) ↔
      ∀ i ∈ slot, s.Selected (s.recorder.states i).saved.mem := by
  cases slot with
  | none => exact ⟨fun _ i hi => absurd hi (Option.not_mem_none i), fun _ => hs⟩
  | some i =>
      constructor
      · intro h j hj
        exact Option.mem_some_iff.mp hj ▸ h
      · intro h
        exact h i rfl

theorem coherent_iff_selected {s t : MappingRun}
    (h : t.machine.mem.mappings = s.machine.mem.mappings) :
    t.Coherent ↔ s.Selected t.machine.mem.update := by
  rw [Coherent, Memory.Coherent, Selected, h]

theorem coherent_step_iff {s t : MappingRun} {op : MappingOp} (hs : s.Coherent)
    (h : s.Step op t) : t.Coherent ↔ s.SetsSelected op := by
  cases h with
  | setRamDiskMode diskIdx data => exact iff_true_intro (Memory.coherent_setRamDiskMode _ _ _)
  | initRamDiskMapping => exact iff_true_intro (Memory.coherent_initRamDiskMapping _)
  | init => exact iff_true_intro (Memory.coherent_init _)
  | restart => exact iff_true_intro (Memory.coherent_restart _)
  | execute m hsame => exact iff_true_intro (hsame.coherent hs)
  | resetRecorder => exact iff_true_intro hs
  | playForward frames =>
      obtain ⟨hmappings, hupdate⟩ :=
        Recorder.playForwardLoop_mapping frames.toNat s.recorder s.machine
      rw [coherent_iff_selected hmappings]
      exact hupdate ▸ selected_mappingAt hs _
  | playReverse frames =>
      obtain ⟨hmappings, hupdate⟩ :=
        Recorder.playReverseLoop_mapping frames.toNat s.recorder s.machine
      rw [coherent_iff_selected hmappings]
      exact hupdate ▸ selected_mappingAt hs _
  | deserialize data hload =>
      obtain ⟨hmappings, hupdate⟩ := Recorder.deserialize_mapping hload
      rw [coherent_iff_selected hmappings, hupdate, SetsSelected]
      split
      · rename_i hversion
        exact ⟨fun h _ => h, fun h => h hversion⟩
      · rename_i hversion
        exact ⟨fun _ hv => absurd hv hversion, fun _ => hs⟩

/-- A freshly constructed recorder next to a machine with no RAM disk mapped. -/
def Fresh (s : MappingRun) : Prop :=
  (∃ n, s.recorder = .new n) ∧ ∃ m : Memory, s.machine.mem = m.initRamDiskMapping

/-- Operations in any order, each of which sets a selected mapping if it sets any. -/
def Reachable : MappingRun → Prop :=
  Runs.Reachable Fresh fun s t => ∃ op, s.SetsSelected op ∧ s.Step op t

theorem Reachable.coherent_and_bounds {s : MappingRun} (h : s.Reachable) :
    s.Coherent ∧ ∀ addr space,
      s.machine.mem.getGlobalAddr addr space < memoryGlobalLen ∧
        s.machine.mem.getGlobalAddr addr space % mem64K = addr.toNat := by
  refine ⟨?_, fun addr space => ⟨Update.getGlobalAddr_lt _ _ _, Update.getGlobalAddr_mod _ _ _⟩⟩
  refine @Runs.Reachable.invariant _ Fresh _ Coherent ?_ ?_ s h
  · rintro s ⟨-, m, hm⟩
    rw [Coherent, hm]
    exact Memory.coherent_initRamDiskMapping m
  · rintro s t hs ⟨op, hsets, hstep⟩
    exact (coherent_step_iff hs hstep).mpr hsets

def switched : MappingRun :=
  ⟨(Recorder.new 4).reset (Recorder.machineAt 0 fun _ => 0),
    { Recorder.machineAt 0 fun _ => 0 with
      mem := (Memory.ofRam fun _ => 0).setRamDiskMode ⟨0, by decide⟩ 0x20 }⟩

theorem reachable_switched : switched.Reachable := by
  have hfresh : Reachable ⟨.new 4, Recorder.machineAt 0 fun _ => 0⟩ :=
    .start ⟨⟨4, rfl⟩, Memory.ofRam fun _ => 0, rfl⟩
  have hreset : Reachable _ := hfresh.step ⟨.resetRecorder, trivial, .resetRecorder⟩
  exact hreset.step ⟨.setRamDiskMode ⟨0, by decide⟩ 0x20, trivial, .setRamDiskMode _ _⟩

def mapped : MappingRun :=
  let m := { Recorder.machineAt 0 fun _ => 0 with
    mem := (Memory.ofRam fun _ => 0).setRamDiskMode ⟨0, by decide⟩ 0x20 }
  ⟨((Recorder.new 4).reset m).update (Recorder.storing m 1 1), Recorder.storing m 1 1⟩

theorem reachable_mapped : mapped.Reachable := by
  have hfresh : Reachable ⟨.new 4, Recorder.machineAt 0 fun _ => 0⟩ :=
    .start ⟨⟨4, rfl⟩, Memory.ofRam fun _ => 0, rfl⟩
  have hset : Reachable _ :=
    hfresh.step ⟨.setRamDiskMode ⟨0, by decide⟩ 0x20, trivial, .setRamDiskMode _ _⟩
  have hreset : Reachable _ := hset.step ⟨.resetRecorder, trivial, .resetRecorder⟩
  exact hreset.step ⟨.execute (Recorder.storing _ 1 1), trivial, .execute _ ⟨rfl, rfl, rfl⟩⟩

/-- A witness: two frames are rewound, to a state that was saved with the same mapping. -/
theorem coherent_and_bounds_mapped :
    let s : MappingRun := ⟨(mapped.recorder.playReverse 2 mapped.machine).1,
      (mapped.recorder.playReverse 2 mapped.machine).2⟩
    s.Coherent ∧ ∀ addr space,
      s.machine.mem.getGlobalAddr addr space < memoryGlobalLen ∧
        s.machine.mem.getGlobalAddr addr space % mem64K = addr.toNat := by
  intro s
  have hselected : mapped.SetsSelected (.playReverse 2) := by
    intro i hi
    have hslot : Recorder.reverseSlot 2 mapped.recorder = some 1 := by decide
    rw [Option.some.inj (hi.symm.trans hslot)]
    have hactive : Memory.activeDisk mapped.machine.mem.mappings = some ⟨0, by decide⟩ := by
      decide
    rw [Selected, hactive]
    exact ⟨rfl, rfl⟩
  have hreach : s.Reachable := reachable_mapped.step ⟨.playReverse 2, hselected, .playReverse 2⟩
  exact hreach.coherent_and_bounds

/-- Rewinding to that frame clears the active mapping, but not the register. -/
theorem playReverse_loses_mapping :
    switched.Reachable ∧ ∃ t : MappingRun, switched.Step (.playReverse 1) t ∧ ¬ t.Coherent := by
  refine ⟨reachable_switched, _, .playReverse 1, ?_⟩
  intro hcoherent
  have hactive : Memory.activeDisk switched.machine.mem.mappings = some ⟨0, by decide⟩ := by
    decide
  have hselected : switched.Selected
      (switched.recorder.playReverse 1 switched.machine).2.mem.update := hcoherent
  rw [Selected, hactive] at hselected
  exact absurd hselected.1 (by decide)

end MappingRun

end V6Emul
