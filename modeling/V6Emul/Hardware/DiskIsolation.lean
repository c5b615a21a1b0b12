import V6Emul.Hardware.Headless
import V6Emul.Hardware.Stores
import V6Emul.MappingCoherence

/-!
# RAM disks that are not mapped

The active mapping leads to main RAM and to one RAM disk, whose register is enabled.  While
the register of a disk is off no instruction stores to it, and a reset keeps it unless it
is told to clear the disks.
-/

namespace V6Emul

variable {δ : Type}

/-! ## The bytes of a disk -/

def diskAddr (disk : Fin ramDiskMax) (i : Fin memoryRamdiskLen) : Nat :=
  memoryMainLen + disk * memoryRamdiskLen + i

theorem diskAddr_lt (disk : Fin ramDiskMax) (i : Fin memoryRamdiskLen) :
    diskAddr disk i < memoryGlobalLen := by
  have hdisk := disk.isLt
  have hi := i.isLt
  simp only [diskAddr, memoryGlobalLen, memoryMainLen, memoryRamdiskLen, ramdiskPagesMax,
    mem64K, ramDiskMax] at *
  omega

def Ram.disk (ram : Ram) (disk : Fin ramDiskMax) (i : Fin memoryRamdiskLen) : Byte :=
  ram ⟨diskAddr disk i, diskAddr_lt disk i⟩

namespace Memory

theorem Coherent.getGlobalAddr_ne {m : Memory} (hm : m.Coherent) {disk : Fin ramDiskMax}
    (hoff : (m.mappings disk).enabled = false) (addr : Addr) (space : AddrSpace)
    (i : Fin memoryRamdiskLen) : m.getGlobalAddr addr space ≠ diskAddr disk i := by
  have haddr := addr.isLt
  have hi := i.isLt
  have hRam := m.update.mapping.pageRam_lt
  have hStack := m.update.mapping.pageStack_lt
  have hother : m.update.mapping.enabled = true → m.update.ramdiskIdx.toNat ≠ disk := by
    intro hon
    unfold Coherent Selects at hm
    cases hactive : activeDisk m.mappings with
    | none =>
        rw [hactive] at hm
        simp [hm, Mapping.enabled] at hon
    | some j =>
        simp only [hactive] at hm
        have hj : m.update.ramdiskIdx.toNat = j := by
          rw [hm.2, BitVec.toNat_ofNat]
          exact Nat.mod_eq_of_lt j.isLt
        intro hsame
        have hdisk : j = disk := Fin.ext (hj.symm.trans hsame)
        simp [hm.1, hdisk, hoff] at hon
  simp only [getGlobalAddr, Update.getGlobalAddr, diskAddr, memoryMainLen, memoryRamdiskLen,
    ramdiskPagesMax, ramDiskPageLen, mem64K] at *
  cases hon : m.update.mapping.enabled with
  | false => simp; omega
  | true =>
      have hne := hother hon
      simp only [Bool.not_true, Bool.false_eq_true, if_false]
      split_ifs <;> omega

theorem coherent_memAfterOut (port value : Byte) {m : Memory} (hm : m.Coherent) :
    (Bus.memAfterOut port value m).Coherent := by
  unfold Bus.memAfterOut
  split
  · exact coherent_setRamDiskMode m _ value
  · exact hm

end Memory

theorem Bus.coherent_tryToCommit (dev : Devices δ) (colorIdx : BitVec 4) {b : Bus δ}
    (hb : b.mem.Coherent) : (b.tryToCommit dev colorIdx).mem.Coherent := by
  simp only [tryToCommit, setIoState, countOut]
  split
  · split
    · simp only [portOutCommit, mem_portOutHandling]
      exact Memory.coherent_memAfterOut _ _ hb
    · exact hb
  · exact hb

namespace Sys

variable {σ : Type}

theorem update_enter (irq : Bool) (s : Sys σ) : (s.enter irq).mem.update = s.mem.update := by
  unfold enter beginInstruction
  split
  · split <;> rfl
  · rfl

theorem update_executeMachineCycle (ports : PortFuncs σ) (irq : Bool) (s : Sys σ) :
    (s.executeMachineCycle ports irq).mem.update = s.mem.update := by
  have hexec := (storesNext_exec ports (s.enter irq) (decode (s.enter irq).cpu.ir)).1
  rw [executeMachineCycle_eq]
  exact hexec.trans (update_enter irq s)

theorem exists_addr_of_mem_targets {op : Byte} {mc : Nat} {s : Sys σ} {a : Nat}
    (h : a ∈ s.targets op mc) : ∃ addr space, s.mem.getGlobalAddr addr space = a := by
  rw [targets] at h
  split at h
  · contradiction
  · obtain ⟨place, -, ha⟩ := List.mem_map.mp h
    exact ⟨place.1, place.2, ha⟩

end Sys

namespace Hardware

variable {dev : Devices δ} {h t : Hardware δ}

/-! ## One instruction -/

theorem coherent_machineCycle (dev : Devices δ) (hm : h.mem.Coherent) :
    (h.machineCycle dev).mem.Coherent := by
  have hdrawn : (h.rasterize dev).mem.Coherent :=
    Raster.rasterize_invariant (r := h.raster) (P := fun b => b.mem.Coherent)
      (fun _ _ hb => hb) (fun _ colorIdx hb => Bus.coherent_tryToCommit dev colorIdx hb) hm
  have hmappings : ((h.rasterize dev).executeMachineCycle dev).mem.mappings =
      (h.rasterize dev).mem.mappings :=
    congrArg Prod.fst (Sys.registers_executeMachineCycle (Io.ports dev) _ _)
  have hupdate : ((h.rasterize dev).executeMachineCycle dev).mem.update =
      (h.rasterize dev).mem.update := Sys.update_executeMachineCycle (Io.ports dev) _ _
  exact Memory.SameMapping.coherent ⟨hmappings, congrArg Update.mapping hupdate,
    congrArg Update.ramdiskIdx hupdate⟩ hdrawn

theorem coherent_executeCycles (hm : h.mem.Coherent) (hrun : h.executeCycles dev = some t) :
    t.mem.Coherent := by
  refine runCycles_rule (P := fun s => s.mem.Coherent) (Q := fun s => s.mem.Coherent) ?_
    (h := h.setMem h.mem.debugInit) hm hrun
  intro s hs
  have hnext := coherent_machineCycle dev hs
  split <;> exact hnext

theorem disk_executeCycles (hparked : h.Parked) (hm : h.mem.Coherent) {disk : Fin ramDiskMax}
    (hoff : (h.mem.mappings disk).enabled = false) (hrun : h.executeCycles dev = some t) :
    t.mem.ram.disk disk = h.mem.ram.disk disk := by
  obtain ⟨log, hstored⟩ := stored_executeCycles hparked hrun
  funext i
  have hspared : diskAddr disk i ∉ log.map UndoLog.Entry.addr := by
    rw [hstored.addrs]
    intro hmem
    obtain ⟨addr, space, haddr⟩ := Sys.exists_addr_of_mem_targets hmem
    refine hm.getGlobalAddr_ne hoff addr space i ?_
    rwa [Memory.getGlobalAddr, Sys.update_enter] at haddr
  have hread := UndoLog.Cells.read_redo_of_not_mem (c := Ram.cells)
    (fun m a b v hne => Ram.read_write_ne m v hne.symm) (m := h.mem.ram) hspared
  rw [hstored.redo] at hread
  simpa [Ram.cells, Ram.read, Ram.disk, diskAddr_lt] using hread

/-! ## Runs -/

/-- What the loops, the resets and the requests do. -/
inductive Act (δ : Type) where
  | executeInstruction
  /-- a turn of `RunHeadless` -/
  | headless
  | reset
  | restart
  | request (req : HostReq δ)

def act (dev : Devices δ) (h : Hardware δ) : Act δ → Option (Hardware δ)
  | .executeInstruction => (h.executeInstruction dev none).map Prod.snd
  | .headless => h.executeCycles dev
  | .reset => some (h.reset dev)
  | .restart => some (h.restart dev)
  | .request req => some (h.handle req)

/-- The register of the disk is off; nobody clears the disk or stores to it for the program. -/
def Spares (disk : Fin ramDiskMax) (h : Hardware δ) (a : Act δ) : Prop :=
  (h.mem.mappings disk).enabled = false ∧
    match a with
    | .reset => h.mem.ramDiskClearAfterRestart = false
    | .request (.setRam ram) => ram.disk disk = h.mem.ram.disk disk
    | _ => True

structure Undisturbed (disk : Fin ramDiskMax) (bytes : Fin memoryRamdiskLen → Byte)
    (h : Hardware δ) : Prop where
  parked : h.Parked
  coherent : h.mem.Coherent
  bytes : h.mem.ram.disk disk = bytes

variable {disk : Fin ramDiskMax} {bytes : Fin memoryRamdiskLen → Byte}

theorem Undisturbed.executeCycles (hdisk : h.Undisturbed disk bytes)
    (hoff : (h.mem.mappings disk).enabled = false) (hrun : h.executeCycles dev = some t) :
    t.Undisturbed disk bytes where
  parked := parked_executeCycles hdisk.parked hrun
  coherent := coherent_executeCycles hdisk.coherent hrun
  bytes := (disk_executeCycles hdisk.parked hdisk.coherent hoff hrun).trans hdisk.bytes

theorem Undisturbed.checkMapping (hdisk : h.Undisturbed disk bytes) :
    h.checkMapping.2.Undisturbed disk bytes := by
  refine ⟨parked_checkMapping hdisk.parked, ?_, ?_⟩ <;> unfold Hardware.checkMapping <;>
    dsimp only <;> split
  · exact Memory.coherent_initRamDiskMapping _
  · exact hdisk.coherent
  · exact hdisk.bytes
  · exact hdisk.bytes

theorem disk_init {m : Memory} (hkeep : m.ramDiskClearAfterRestart = false) :
    m.init.ram.disk disk = m.ram.disk disk := by
  funext i
  have hmain : ¬ diskAddr disk i < memoryMainLen := by
    simp only [diskAddr]
    omega
  simp [Memory.init, Memory.initRamDiskMapping, Ram.disk, hkeep, hmain]

theorem Undisturbed.act (hdisk : h.Undisturbed disk bytes) {a : Act δ}
    (hspares : h.Spares disk a) (hact : h.act dev a = some t) : t.Undisturbed disk bytes := by
  obtain ⟨hoff, hmore⟩ := hspares
  cases a with
  | executeInstruction =>
      simp only [Hardware.act, Hardware.executeInstruction, Option.map_map,
        Option.map_eq_some_iff] at hact
      obtain ⟨s, hrun, rfl⟩ := hact
      exact (hdisk.executeCycles hoff hrun).checkMapping
  | headless => exact hdisk.executeCycles hoff hact
  | reset =>
      cases hact
      exact ⟨parked_reset dev h, Memory.coherent_init h.mem, (disk_init hmore).trans hdisk.bytes⟩
  | restart =>
      cases hact
      exact ⟨parked_restart dev hdisk.parked, Memory.coherent_restart h.mem, hdisk.bytes⟩
  | request req =>
      cases hact
      refine ⟨parked_handle hdisk.parked req, ?_, ?_⟩
      · cases req <;> exact hdisk.coherent
      · cases req with
        | setRam ram => exact hmore.trans hdisk.bytes
        | _ => exact hdisk.bytes

/--
A RAM disk keeps its 256 KiB through every run in which its register is off before each
step, whatever the other registers and the programs do.
-/
theorem disk_kept {acts : List (Act δ)} (hparked : h.Parked) (hcoherent : h.mem.Coherent)
    (hspares : Runs.Along (act dev) (Spares disk) h acts)
    (hrun : Runs.exec (act dev) h acts = some t) : t.mem.ram.disk disk = h.mem.ram.disk disk := by
  have hstart : h.Undisturbed disk (h.mem.ram.disk disk) := ⟨hparked, hcoherent, rfl⟩
  have hend := Runs.Along.invariant_take (Undisturbed disk (h.mem.ram.disk disk))
    (fun _ _ hs hspared _ hact => hs.act hspared hact) hstart hspares acts.length
    (by rwa [List.take_length])
  exact hend.bytes

def storeProgram : Ram :=
  fun i => if i.val = 0 then 0x02 else if i.val < memoryMainLen then 0 else 0xAA

/-- A witness: the store behind a reset and a restart of a machine in which nothing is mapped. -/
theorem disk_kept_store :
    ∃ t, Runs.exec (act .silent) (ofRam storeProgram ())
        [.reset, .request (.setRam storeProgram), .restart, .executeInstruction] = some t ∧
      t.mem.ram.disk ⟨1, by decide⟩ = fun _ => (0xAA : Byte) := by
  have hspares : Runs.Along (act .silent) (Spares ⟨1, by decide⟩) (ofRam storeProgram ())
      [.reset, .request (.setRam storeProgram), .restart, .executeInstruction] := by
    refine ⟨⟨rfl, rfl⟩, ?_⟩
    rintro _ ⟨⟩
    refine ⟨⟨rfl, ?_⟩, ?_⟩
    · exact (disk_init (m := .ofRam storeProgram) rfl).symm
    rintro _ ⟨⟩
    refine ⟨⟨rfl, trivial⟩, ?_⟩
    rintro _ ⟨⟩
    exact ⟨⟨rfl, trivial⟩, fun _ _ => trivial⟩
  have htotal : (Runs.exec (act .silent) (ofRam storeProgram ())
      [.reset, .request (.setRam storeProgram), .restart, .executeInstruction]).isSome := by
    refine Runs.exec_isSome (fun s a => ?_) _ _
    cases a <;> simp [act, executeInstruction, executeCycles_isSome]
  obtain ⟨t, ht⟩ := Option.isSome_iff_exists.mp htotal
  refine ⟨t, ht, ?_⟩
  rw [disk_kept (parked_ofRam storeProgram ()) rfl hspares ht]
  funext i
  have hmain : ¬ diskAddr ⟨1, by decide⟩ i < memoryMainLen := by
    simp only [diskAddr]
    omega
  have hzero : diskAddr ⟨1, by decide⟩ i ≠ 0 := by
    simp only [diskAddr, memoryMainLen, mem64K]
    omega
  simp [ofRam, Sys.ofReset, Memory.ofRam, Ram.disk, storeProgram, hmain, hzero]

end Hardware

end V6Emul
