import V6Emul.Fdc.Safety

/-!
# What the disks keep

A call changes the contents of a disk in three ways only: a data write stores
through the pointer and marks the selected disk, a write command marks or formats
the selected disk, and mounting replaces the image.  The pointer and the selection
are two fields, so a data write marks the disk it stores to only while they agree;
and a data write does not ask whether the transfer is a read.
-/

namespace V6Emul

namespace Fdc1793

/-! ## Disks with the same contents -/

structure SameDisk (a b : FDisk) : Prop where
  data : b.data = a.data
  updated : b.updated = a.updated
  mounted : b.mounted = a.mounted
  writes : b.writes = a.writes

theorem SameDisk.refl (a : FDisk) : SameDisk a a := ⟨rfl, rfl, rfl, rfl⟩

theorem SameDisk.symm {a b : FDisk} (h : SameDisk a b) : SameDisk b a :=
  ⟨h.data.symm, h.updated.symm, h.mounted.symm, h.writes.symm⟩

theorem SameDisk.trans {a b c : FDisk} (h : SameDisk a b) (h' : SameDisk b c) : SameDisk a c :=
  ⟨h'.data.trans h.data, h'.updated.trans h.updated, h'.mounted.trans h.mounted,
    h'.writes.trans h.writes⟩

def SameDisks (s t : Fdc1793) : Prop := ∀ d, SameDisk (s.disks d) (t.disks d)

structure Leaves (s t : Fdc1793) : Prop where
  drive : t.drive = s.drive
  disk : t.disk = s.disk
  disks : SameDisks s t

theorem Leaves.refl (s : Fdc1793) : s.Leaves s := ⟨rfl, rfl, fun _ => .refl _⟩

theorem Leaves.trans {s t u : Fdc1793} (h : s.Leaves t) (h' : t.Leaves u) : s.Leaves u :=
  ⟨h'.drive.trans h.drive, h'.disk.trans h.disk, fun d => (h.disks d).trans (h'.disks d)⟩

theorem sameDisk_setDisk (s : Fdc1793) {drive : Fin drivesMax} {f : FDisk → FDisk}
    (hf : SameDisk (s.disks drive) (f (s.disks drive))) (d : Fin drivesMax) :
    SameDisk (s.disks d) ((s.setDisk drive f).disks d) := by
  by_cases hd : d = drive
  · subst hd
    simpa [setDisk] using hf
  · simpa [setDisk, hd] using SameDisk.refl _

theorem disks_setDisk_of_ne (s : Fdc1793) {drive d : Fin drivesMax} (hd : d ≠ drive)
    (f : FDisk → FDisk) : (s.setDisk drive f).disks d = s.disks d :=
  Function.update_of_ne hd _ _

theorem disks_setDisk_self (s : Fdc1793) (drive : Fin drivesMax) (f : FDisk → FDisk) :
    (s.setDisk drive f).disks drive = f (s.disks drive) :=
  Function.update_self _ _ _

theorem leaves_seek (s : Fdc1793) (sideId trackId sectorId : Nat) :
    s.Leaves (s.seek sideId trackId sectorId) := by
  rw [seek]
  split
  · exact ⟨rfl, rfl, fun _ => .refl _⟩
  · rename_i d _
    exact ⟨rfl, rfl, @sameDisk_setDisk s d (fun disk => disk.setHeader sideId trackId sectorId)
      ⟨rfl, rfl, rfl, rfl⟩⟩

theorem leaves_seekFirst (s : Fdc1793) (sectorIds : List Nat) :
    s.Leaves (s.seekFirst sectorIds) := by
  induction sectorIds generalizing s with
  | nil => exact .refl s
  | cons sectorId rest ih =>
      rw [seekFirst]
      split
      · exact (leaves_seek s _ _ _).trans (ih _)
      · exact leaves_seek s _ _ _

theorem leaves_countDown (s : Fdc1793) : s.Leaves s.countDown := by
  rw [countDown]
  split
  · exact ⟨rfl, rfl, fun _ => .refl _⟩
  · exact ⟨rfl, rfl, fun _ => .refl _⟩

theorem leaves_readSectors (s : Fdc1793) (val : Byte) : s.Leaves (s.readSectors val) := by
  have hseek := leaves_seek s (s.sideOf val) s.regs.track.toNat s.regs.sector.toNat
  rw [readSectors]
  split
  · exact hseek.trans ⟨rfl, rfl, fun _ => .refl _⟩
  · exact hseek.trans ⟨rfl, rfl, fun _ => .refl _⟩

theorem leaves_readAddress {s t : Fdc1793} (h : s.readAddress = some t) : s.Leaves t := by
  have hfound : s.Leaves (if s.disk.isNone then { s with ptr := .null }
      else s.seekFirst (List.range 256)) := by
    split
    · exact ⟨rfl, rfl, fun _ => .refl _⟩
    · exact leaves_seekFirst s _
  rw [readAddress] at h
  generalize (if s.disk.isNone then { s with ptr := .null }
    else s.seekFirst (List.range 256)) = found at h hfound
  split at h
  · exact hfound.trans (Option.some_inj.mp h ▸ ⟨rfl, rfl, fun _ => .refl _⟩)
  · obtain ⟨d, -, rfl⟩ := Option.map_eq_some_iff.mp h
    exact hfound.trans ⟨rfl, rfl, fun _ => .refl _⟩

/-! ## What a call can change -/

/-- `t` differs from `s` in the contents of one disk only, which is marked. -/
structure Marks (s : Fdc1793) (d : Fin drivesMax) (t : Fdc1793) : Prop where
  drive : t.drive = s.drive
  disk : t.disk = s.disk
  others : ∀ j, j ≠ d → SameDisk (s.disks j) (t.disks j)
  updated : (t.disks d).updated = true
  mounted : (t.disks d).mounted = (s.disks d).mounted

theorem Leaves.marks {s t u : Fdc1793} {d : Fin drivesMax} (h : s.Leaves t) (h' : t.Marks d u) :
    s.Marks d u :=
  ⟨h'.drive.trans h.drive, h'.disk.trans h.disk, fun j hj => (h.disks j).trans (h'.others j hj),
    h'.updated, h'.mounted.trans (h.disks d).mounted⟩

theorem Marks.trans {s t u : Fdc1793} {d : Fin drivesMax} (h : s.Marks d t) (h' : t.Marks d u) :
    s.Marks d u :=
  ⟨h'.drive.trans h.drive, h'.disk.trans h.disk,
    fun j hj => (h.others j hj).trans (h'.others j hj), h'.updated, h'.mounted.trans h.mounted⟩

theorem marks_setUpdated {s t : Fdc1793} (h : s.onDisk FDisk.setUpdated = some t) :
    ∃ d, s.disk = some d ∧ s.Marks d t := by
  obtain ⟨d, hd, rfl⟩ := Option.map_eq_some_iff.mp h
  refine ⟨d, hd, rfl, rfl, ?_, ?_, ?_⟩
  · intro j hj
    rw [disks_setDisk_of_ne s hj]
    exact .refl _
  · rw [disks_setDisk_self]
    rfl
  · rw [disks_setDisk_self]
    rfl

theorem marks_writeSectors {s t : Fdc1793} {val : Byte} (h : s.writeSectors val = some t) :
    s.Leaves t ∨ ∃ d, s.disk = some d ∧ s.Marks d t := by
  have hseek := leaves_seek s (s.sideOf val) s.regs.track.toNat s.regs.sector.toNat
  rw [writeSectors] at h
  split at h
  · exact .inl (hseek.trans (Option.some_inj.mp h ▸ ⟨rfl, rfl, fun _ => .refl _⟩))
  · obtain ⟨d, hd, hmarks⟩ := marks_setUpdated h
    have hstart : s.Leaves ((s.seekSectors val).startTransfer ((s.seekSectors val).transferLen val)) :=
      hseek.trans ⟨rfl, rfl, fun _ => .refl _⟩
    exact .inr ⟨d, hseek.disk ▸ hd, hstart.marks hmarks⟩

theorem Marks.leaves {s t u : Fdc1793} {d : Fin drivesMax} (h : s.Marks d t) (h' : t.Leaves u) :
    s.Marks d u :=
  ⟨h'.drive.trans h.drive, h'.disk.trans h.disk,
    fun j hj => (h.others j hj).trans (h'.disks j), (h'.disks d).updated.trans h.updated,
    (h'.disks d).mounted.trans h.mounted⟩

theorem drive_seek {s : Fdc1793} {sideId trackId sectorId : Nat} {k : Fin drivesMax}
    (h : (s.seek sideId trackId sectorId).ptr.drive = some k) : s.disk = some k := by
  rw [seek] at h
  split at h
  · exact absurd h.symm (Option.some_ne_none k)
  · rename_i d hd
    change ((s.getData d).add _).drive = some k at h
    rw [getData] at h
    split at h
    · exact hd.trans h
    · exact absurd h.symm (Option.some_ne_none k)

theorem marks_formatSide {s t : Fdc1793} {sideId : Nat} (h : s.formatSide sideId = some t) :
    s.Leaves t ∨ ∃ d, s.disk = some d ∧ s.Marks d t := by
  have hseek := leaves_seek s sideId s.regs.track.toNat 1
  rw [formatSide] at h
  split at h
  · exact .inl (Option.some_inj.mp h ▸ hseek)
  · obtain ⟨s₁, hfill, hupdate⟩ := Option.bind_eq_some_iff.mp h
    obtain ⟨d, hd, hmarks⟩ := marks_setUpdated hupdate
    refine .inr ⟨d, ?_⟩
    rw [fillTrack] at hfill
    split at hfill
    · rename_i k offset hptr
      split at hfill
      · have hdrive : s.disk = some k := drive_seek (congrArg DataPtr.drive hptr)
        rw [← Option.some_inj.mp hfill] at hd hmarks
        have hkd : k = d := Option.some_inj.mp (hdrive.symm.trans (hseek.disk.symm.trans hd))
        subst hkd
        refine ⟨hdrive, hseek.marks ⟨hmarks.drive, hmarks.disk, ?_, hmarks.updated, ?_⟩⟩
        · intro j hj
          have hother := hmarks.others j hj
          rw [disks_setDisk_of_ne _ hj] at hother
          exact hother
        · have hmounted := hmarks.mounted
          rw [disks_setDisk_self] at hmounted
          exact hmounted
      · exact absurd hfill.symm (Option.some_ne_none _)
    · exact absurd hfill.symm (Option.some_ne_none _)

theorem marks_writeTrack {s t : Fdc1793} (h : s.writeTrack = some t) :
    s.Leaves t ∨ ∃ d, s.disk = some d ∧ s.Marks d t := by
  obtain ⟨s₁, hfirst, hsecond⟩ := Option.bind_eq_some_iff.mp h
  rcases marks_formatSide hfirst with hleaves | ⟨d, hd, hmarks⟩
  · rcases marks_formatSide hsecond with hleaves' | ⟨d, hd, hmarks⟩
    · exact .inl (hleaves.trans hleaves')
    · exact .inr ⟨d, hleaves.disk ▸ hd, hleaves.marks hmarks⟩
  · refine .inr ⟨d, hd, ?_⟩
    rcases marks_formatSide hsecond with hleaves' | ⟨d', hd', hmarks'⟩
    · exact hmarks.leaves hleaves'
    · have hsame : d' = d := Option.some_inj.mp (hd'.symm.trans (hmarks.disk.trans hd))
      exact hmarks.trans (hsame ▸ hmarks')

structure Stores (s : Fdc1793) (k d : Fin drivesMax) (t : Fdc1793) : Prop where
  drive : t.drive = s.drive
  disk : t.disk = s.disk
  data : ∀ j, j ≠ k → (t.disks j).data = (s.disks j).data
  updated : (t.disks d).updated = true
  writes : (t.disks d).writes = (s.disks d).writes + 1
  others : ∀ j, j ≠ d →
    (t.disks j).updated = (s.disks j).updated ∧ (t.disks j).writes = (s.disks j).writes
  mounted : ∀ j, (t.disks j).mounted = (s.disks j).mounted

theorem store_cases {s t : Fdc1793} {val : Byte} (h : s.store val = some t) :
    ∃ k f, s.ptr.drive = some k ∧ t = s.setDisk k f ∧
      ∀ disk : FDisk, (f disk).updated = disk.updated ∧ (f disk).writes = disk.writes ∧
        (f disk).mounted = disk.mounted := by
  rw [store] at h
  split at h
  · exact absurd h.symm (Option.some_ne_none _)
  · rename_i k offset hptr
    split at h
    · exact ⟨k, _, congrArg DataPtr.drive hptr, (Option.some_inj.mp h).symm, fun _ => ⟨rfl, rfl, rfl⟩⟩
    · exact absurd h.symm (Option.some_ne_none _)
  · rename_i k offset hptr
    split at h
    · exact ⟨k, _, congrArg DataPtr.drive hptr, (Option.some_inj.mp h).symm, fun _ => ⟨rfl, rfl, rfl⟩⟩
    · exact absurd h.symm (Option.some_ne_none _)

theorem writeData_cases {s t : Fdc1793} {val : Byte} (h : s.writeData val = some t) :
    (s.rwLen = 0 ∧ s.Leaves t) ∨
      ∃ k d, s.rwLen ≠ 0 ∧ s.ptr.drive = some k ∧ s.disk = some d ∧ s.Stores k d t := by
  obtain ⟨s₁, hmove, hlast⟩ := Option.map_eq_some_iff.mp h
  have ht : s₁.Leaves t := hlast ▸ ⟨rfl, rfl, fun _ => .refl _⟩
  rw [storeData] at hmove
  split at hmove
  · rename_i hzero
    exact .inl ⟨hzero, Option.some_inj.mp hmove ▸ ht⟩
  · rename_i hpending
    obtain ⟨s₂, hstore, hmove⟩ := Option.bind_eq_some_iff.mp hmove
    obtain ⟨s₃, hcount, hdown⟩ := Option.bind_eq_some_iff.mp hmove
    obtain ⟨k, f, hk, rfl, hf⟩ := store_cases hstore
    obtain ⟨d, hd, rfl⟩ := Option.map_eq_some_iff.mp hcount
    rw [← Option.some_inj.mp hdown] at ht
    have hleaves := (leaves_countDown _).trans ht
    have hfirst : ∀ j, ((s.setDisk k f).disks j).updated = (s.disks j).updated ∧
        ((s.setDisk k f).disks j).writes = (s.disks j).writes ∧
        ((s.setDisk k f).disks j).mounted = (s.disks j).mounted := by
      intro j
      by_cases hj : j = k
      · rw [hj, disks_setDisk_self]
        exact hf _
      · rw [disks_setDisk_of_ne s hj]
        exact ⟨rfl, rfl, rfl⟩
    have hsecond : ∀ j, j ≠ d → SameDisk ((s.setDisk k f).disks j) (t.disks j) := by
      intro j hj
      have hj' := hleaves.disks j
      rw [disks_setDisk_of_ne _ hj] at hj'
      exact hj'
    have hself := hleaves.disks d
    rw [disks_setDisk_self] at hself
    refine .inr ⟨k, d, hpending, hk, hd, hleaves.drive, hleaves.disk, ?_, hself.updated, ?_, ?_, ?_⟩
    · intro j hj
      have hkept : ((s.setDisk k f).disks j).data = (s.disks j).data := by
        rw [disks_setDisk_of_ne s hj]
      by_cases hjd : j = d
      · subst hjd
        exact hself.data.trans hkept
      · exact (hsecond j hjd).data.trans hkept
    · exact hself.writes.trans (congrArg (· + 1) (hfirst d).2.1)
    · intro j hj
      exact ⟨(hsecond j hj).updated.trans (hfirst j).1, (hsecond j hj).writes.trans (hfirst j).2.1⟩
    · intro j
      by_cases hjd : j = d
      · subst hjd
        exact hself.mounted.trans (hfirst j).2.2
      · exact (hsecond j hjd).mounted.trans (hfirst j).2.2

theorem leaves_readData {s t : Fdc1793} {val : Byte} (h : s.readData = some (val, t)) :
    s.Leaves t := by
  rw [readData] at h
  split at h
  · rw [Option.some_inj, Prod.mk.injEq] at h
    exact h.2 ▸ .refl s
  · obtain ⟨loaded, -, h⟩ := Option.bind_eq_some_iff.mp h
    obtain ⟨s₁, hcount, h⟩ := Option.bind_eq_some_iff.mp h
    obtain ⟨d, hd, rfl⟩ := Option.map_eq_some_iff.mp hcount
    rw [Option.pure_def, Option.some_inj, Prod.mk.injEq] at h
    rw [← h.2]
    refine Leaves.trans ?_ (leaves_countDown _)
    exact ⟨rfl, rfl, sameDisk_setDisk _ ⟨rfl, rfl, rfl, rfl⟩⟩

theorem leaves_read {s t : Fdc1793} {port : FdcPort} (h : s.step (.read port) = some t) :
    s.Leaves t := by
  obtain ⟨⟨val, t'⟩, hread, heq⟩ := Option.map_eq_some_iff.mp h
  have heq' : t' = t := heq
  subst heq'
  cases port with
  | data => exact leaves_readData hread
  | track | sector | bad =>
      rw [read, Option.some_inj, Prod.mk.injEq] at hread
      exact hread.2 ▸ .refl s
  | command =>
      rw [read, Option.some_inj] at hread
      have ht : s.readStatus.2 = t' := congrArg Prod.snd hread
      exact ht ▸ ⟨rfl, rfl, fun _ => .refl _⟩
  | system =>
      rw [read, Option.some_inj] at hread
      have ht : s.readReady.2 = t' := congrArg Prod.snd hread
      rw [← ht, readReady]
      split
      · exact .refl s
      · split
        · exact ⟨rfl, rfl, fun _ => .refl _⟩
        · exact ⟨rfl, rfl, fun _ => .refl _⟩

def isWriteCommand (val : Byte) : Prop := command val = .writeSectors ∨ command val = .writeTrack

theorem execCommand_cases {s t : Fdc1793} {val : Byte} (h : s.execCommand val = some t) :
    s.Leaves t ∨ isWriteCommand val ∧ ∃ d, s.disk = some d ∧ s.Marks d t := by
  rw [execCommand] at h
  cases hcommand : command val with
  | restore | seekTrack | stepHead | forceIrq =>
      rw [hcommand] at h
      exact .inl (Option.some_inj.mp h ▸ ⟨rfl, rfl, fun _ => .refl _⟩)
  | readTrack =>
      rw [hcommand] at h
      exact .inl (Option.some_inj.mp h ▸ .refl s)
  | readSectors =>
      rw [hcommand] at h
      exact .inl (Option.some_inj.mp h ▸ leaves_readSectors s val)
  | readAddress =>
      rw [hcommand] at h
      exact .inl (leaves_readAddress h)
  | writeSectors =>
      rw [hcommand] at h
      exact (marks_writeSectors h).imp id fun hmarks => ⟨.inl hcommand, hmarks⟩
  | writeTrack =>
      rw [hcommand] at h
      exact (marks_writeTrack h).imp id fun hmarks => ⟨.inr hcommand, hmarks⟩

inductive PortEffect (s : Fdc1793) (op : FdcOp) (t : Fdc1793) : Prop where
  | leaves : s.Leaves t → PortEffect s op t
  | selects {val : Byte} : op = .write .system val → t = s.writeSystem val → PortEffect s op t
  | marks {val : Byte} {d : Fin drivesMax} : op = .write .command val → isWriteCommand val →
      s.busy = false → s.disk = some d → s.Marks d t → PortEffect s op t
  | stores {val : Byte} {k d : Fin drivesMax} : op = .write .data val → s.rwLen ≠ 0 →
      s.ptr.drive = some k → s.disk = some d → s.Stores k d t → PortEffect s op t

theorem portEffect_write {s t : Fdc1793} {port : FdcPort} {val : Byte}
    (h : s.step (.write port val) = some t) : s.PortEffect (.write port val) t := by
  obtain ⟨p, hwrite, rfl⟩ := Option.map_eq_some_iff.mp h
  obtain ⟨t, hport, rfl⟩ := Option.map_eq_some_iff.mp hwrite
  cases port with
  | bad => exact .leaves (Option.some_inj.mp hport ▸ .refl s)
  | system => exact .selects rfl (Option.some_inj.mp hport).symm
  | track | sector =>
      refine .leaves (Option.some_inj.mp hport ▸ ?_)
      split
      · exact .refl s
      · exact ⟨rfl, rfl, fun _ => .refl _⟩
  | data =>
      rcases writeData_cases hport with ⟨-, hleaves⟩ | ⟨k, d, hpending, hk, hd, hstores⟩
      · exact .leaves hleaves
      · exact .stores rfl hpending hk hd hstores
  | command =>
      change s.writeCommand val = some t at hport
      rw [writeCommand] at hport
      split at hport
      · exact .leaves (Option.some_inj.mp hport ▸ ⟨rfl, rfl, fun _ => .refl _⟩)
      · split at hport
        · exact .leaves (Option.some_inj.mp hport ▸ ⟨rfl, rfl, fun _ => .refl _⟩)
        · rename_i hbusy
          have hlatch : s.Leaves (s.latch val) := ⟨rfl, rfl, fun _ => .refl _⟩
          rcases execCommand_cases hport with hleaves | ⟨hcommand, d, hd, hmarks⟩
          · exact .leaves (hlatch.trans hleaves)
          · exact .marks rfl hcommand (Bool.eq_false_iff.mpr hbusy) hd (hlatch.marks hmarks)

/-! ## The dirty flag -/

structure Tracked where
  fdc : Fdc1793
  clean : Fin drivesMax → FddImage

namespace Tracked

def start : Tracked := ⟨new, fun d => (new.disks d).data⟩

def step (s : Tracked) (op : FdcOp) : Option Tracked :=
  (s.fdc.step op).map fun t =>
    { fdc := t
      clean :=
        match op with
        | .mount driveIdx data => Function.update s.clean (Fin.ofNat drivesMax driveIdx) data
        | .resetUpdate driveIdx => Function.update s.clean driveIdx (s.fdc.disks driveIdx).data
        | _ => s.clean }

def FlagsTruthful (s : Tracked) : Prop :=
  ∀ k, (s.fdc.disks k).data ≠ s.clean k → (s.fdc.disks k).updated = true

def storesTo (s : Fdc1793) : FdcOp → Option (Fin drivesMax)
  | .write .data _ => if s.rwLen = 0 then none else s.ptr.drive
  | .write .command val =>
      if s.busy = false ∧ command val = .writeTrack then s.disk else none
  | _ => none

/-- No other disk is marked, and no write to it counted, where a disk is stored to. -/
def MarksOwn (s : Tracked) (op : FdcOp) : Prop :=
  ∀ t, s.step op = some t → ∀ k ∈ storesTo s.fdc op, ∀ j, j ≠ k →
    (t.fdc.disks j).updated = (s.fdc.disks j).updated ∧
      (t.fdc.disks j).writes = (s.fdc.disks j).writes

/-- A data write to a pending transfer is made with the drive of the transfer selected. -/
def WritesSelected (s : Tracked) (op : FdcOp) : Prop :=
  ∀ t val, s.step op = some t → op = .write .data val → s.fdc.rwLen ≠ 0 →
    s.fdc.ptr.drive = some s.fdc.drive

def Selected (s : Fdc1793) : Prop := ∀ d, s.disk = some d → d = s.drive

theorem step_fdc {s t : Tracked} {op : FdcOp} (h : s.step op = some t) :
    s.fdc.step op = some t.fdc := by
  obtain ⟨u, hu, rfl⟩ := Option.map_eq_some_iff.mp h
  exact hu

theorem selected_step {s t : Fdc1793} {op : FdcOp} (hs : Selected s) (h : s.step op = some t) :
    Selected t := by
  have hkept : ∀ {t : Fdc1793}, t.drive = s.drive → t.disk = s.disk → Selected t := by
    intro t hdrive hdisk d hd
    rw [hdrive]
    exact hs d (hdisk ▸ hd)
  cases op with
  | read port => exact hkept (leaves_read h).drive (leaves_read h).disk
  | write port val =>
      cases portEffect_write h with
      | leaves hleaves => exact hkept hleaves.drive hleaves.disk
      | marks _ _ _ _ hmarks => exact hkept hmarks.drive hmarks.disk
      | stores _ _ _ _ hstores => exact hkept hstores.drive hstores.disk
      | @selects val _ heq =>
          intro d hd
          rw [heq] at hd ⊢
          change s.getDisk (selectedDrive val) = some d at hd
          rw [getDisk] at hd
          split at hd
          · exact (Option.some_inj.mp hd).symm
          · exact absurd hd.symm (Option.some_ne_none d)
  | mount driveIdx data =>
      rw [← Option.some_inj.mp h, mount]
      split
      · exact hkept rfl rfl
      · exact hkept rfl rfl
  | dismount driveIdx =>
      rw [← Option.some_inj.mp h, dismount]
      split
      · exact fun d hd => absurd hd.symm (Option.some_ne_none d)
      · exact hkept rfl rfl
  | resetUpdate driveIdx =>
      rw [← Option.some_inj.mp h]
      exact hkept rfl rfl

theorem flagsTruthful_of_same {s t : Tracked} (hs : s.FlagsTruthful) (hclean : t.clean = s.clean)
    (hsame : SameDisks s.fdc t.fdc) : t.FlagsTruthful := by
  intro k hk
  rw [hclean, (hsame k).data] at hk
  rw [(hsame k).updated]
  exact hs k hk

theorem flagsTruthful_of_reset {s t : Tracked} (hs : s.FlagsTruthful) {k : Fin drivesMax}
    (hk : t.clean k = (t.fdc.disks k).data) (hclean : ∀ j, j ≠ k → t.clean j = s.clean j)
    (hdisks : ∀ j, j ≠ k → t.fdc.disks j = s.fdc.disks j) : t.FlagsTruthful := by
  intro j hj
  by_cases hjk : j = k
  · subst hjk
    exact absurd hk.symm hj
  · rw [hclean j hjk, hdisks j hjk] at hj
    rw [hdisks j hjk]
    exact hs j hj

theorem flagsTruthful_write {s t : Tracked} (hs : s.FlagsTruthful) (hselected : Selected s.fdc)
    {port : FdcPort} {val : Byte} (hop : s.WritesSelected (.write port val))
    (h : s.step (.write port val) = some t) :
    t.FlagsTruthful ∧ ∀ k ∈ storesTo s.fdc (.write port val), ∀ j, j ≠ k →
      (t.fdc.disks j).updated = (s.fdc.disks j).updated ∧
        (t.fdc.disks j).writes = (s.fdc.disks j).writes := by
  have hclean : t.clean = s.clean := by
    obtain ⟨u, hu, rfl⟩ := Option.map_eq_some_iff.mp h
    rfl
  have hsame : SameDisks s.fdc t.fdc → t.FlagsTruthful ∧
      ∀ k ∈ storesTo s.fdc (.write port val), ∀ j, j ≠ k →
        (t.fdc.disks j).updated = (s.fdc.disks j).updated ∧
          (t.fdc.disks j).writes = (s.fdc.disks j).writes :=
    fun hdisks => ⟨flagsTruthful_of_same hs hclean hdisks,
      fun _ _ j _ => ⟨(hdisks j).updated, (hdisks j).writes⟩⟩
  cases portEffect_write (step_fdc h) with
  | leaves hleaves => exact hsame hleaves.disks
  | selects _ heq => exact hsame (heq ▸ fun _ => .refl _)
  | @marks _ d heq _ _ hd hmarks =>
      constructor
      · intro j hj
        by_cases hjd : j = d
        · exact hjd ▸ hmarks.updated
        · rw [(hmarks.others j hjd).updated]
          rw [hclean, (hmarks.others j hjd).data] at hj
          exact hs j hj
      · intro k hk j hj
        obtain ⟨rfl, rfl⟩ := FdcOp.write.inj heq
        rw [storesTo] at hk
        split at hk
        · have hkd : k = d := Option.some_inj.mp (hk.symm.trans hd)
          exact ⟨(hmarks.others j (hkd ▸ hj)).updated, (hmarks.others j (hkd ▸ hj)).writes⟩
        · exact absurd hk (Option.not_mem_none k)
  | @stores _ k d heq hpending hk hd hstores =>
      have hkd : k = d := by
        have hdrive := hop t _ h heq hpending
        have hkdrive : k = s.fdc.drive := Option.some_inj.mp (hk.symm.trans hdrive)
        exact hkdrive.trans (hselected d hd).symm
      subst hkd
      constructor
      · intro j hj
        by_cases hjd : j = k
        · exact hjd ▸ hstores.updated
        · rw [(hstores.others j hjd).1]
          rw [hclean, hstores.data j hjd] at hj
          exact hs j hj
      · intro i hi j hj
        obtain ⟨rfl, rfl⟩ := FdcOp.write.inj heq
        rw [storesTo, if_neg hpending] at hi
        have hik : i = k := Option.some_inj.mp (hi.symm.trans hk)
        exact hstores.others j (hik ▸ hj)

theorem step_of_writesSelected {s : Tracked} (hs : Selected s.fdc ∧ s.FlagsTruthful) {op : FdcOp}
    (hop : s.WritesSelected op) :
    s.MarksOwn op ∧ ∀ t, s.step op = some t → Selected t.fdc ∧ t.FlagsTruthful := by
  suffices h : ∀ t, s.step op = some t → t.FlagsTruthful ∧ ∀ k ∈ storesTo s.fdc op, ∀ j, j ≠ k →
      (t.fdc.disks j).updated = (s.fdc.disks j).updated ∧
        (t.fdc.disks j).writes = (s.fdc.disks j).writes from
    ⟨fun t ht => (h t ht).2, fun t ht => ⟨selected_step hs.1 (step_fdc ht), (h t ht).1⟩⟩
  intro t ht
  have hnone : ∀ k ∈ (none : Option (Fin drivesMax)), ∀ j, j ≠ k →
      (t.fdc.disks j).updated = (s.fdc.disks j).updated ∧
        (t.fdc.disks j).writes = (s.fdc.disks j).writes :=
    fun k hk => absurd hk (Option.not_mem_none k)
  cases op with
  | write port val => exact flagsTruthful_write hs.2 hs.1 hop ht
  | read port =>
      have hleaves := leaves_read (step_fdc ht)
      obtain ⟨u, hu, rfl⟩ := Option.map_eq_some_iff.mp ht
      exact ⟨flagsTruthful_of_same hs.2 rfl hleaves.disks, hnone⟩
  | mount driveIdx data =>
      obtain ⟨u, hu, rfl⟩ := Option.map_eq_some_iff.mp ht
      have hdisks : u.disks = (s.fdc.setDisk (Fin.ofNat drivesMax driveIdx)
          fun d => d.mount data).disks := by
        rw [← Option.some_inj.mp hu, mount]
        split <;> rfl
      refine ⟨flagsTruthful_of_reset hs.2 (k := Fin.ofNat drivesMax driveIdx) ?_ ?_ ?_, hnone⟩
      · simp only [hdisks, disks_setDisk_self, Function.update_self]
        rfl
      · exact fun j hj => Function.update_of_ne hj _ _
      · intro j hj
        simp only [hdisks, disks_setDisk_of_ne _ hj]
  | dismount driveIdx =>
      obtain ⟨u, hu, rfl⟩ := Option.map_eq_some_iff.mp ht
      have hdisks : u.disks = (s.fdc.setDisk driveIdx FDisk.dismount).disks := by
        rw [← Option.some_inj.mp hu, dismount]
        split <;> rfl
      refine ⟨?_, hnone⟩
      intro k hk
      by_cases hkd : k = driveIdx
      · subst hkd
        simp only [hdisks, disks_setDisk_self] at hk ⊢
        exact hs.2 k hk
      · simp only [hdisks, disks_setDisk_of_ne _ hkd] at hk ⊢
        exact hs.2 k hk
  | resetUpdate driveIdx =>
      obtain ⟨u, hu, rfl⟩ := Option.map_eq_some_iff.mp ht
      have hdisks : u.disks = (s.fdc.resetUpdate driveIdx).disks := by
        rw [← Option.some_inj.mp hu]
      refine ⟨flagsTruthful_of_reset hs.2 (k := driveIdx) ?_ ?_ ?_, hnone⟩
      · simp only [hdisks, resetUpdate, disks_setDisk_self, Function.update_self]
      · exact fun j hj => Function.update_of_ne hj _ _
      · intro j hj
        simp only [hdisks, resetUpdate, disks_setDisk_of_ne _ hj]

theorem writesSelected_of_marksOwn {s : Tracked} (hs : Selected s.fdc) {op : FdcOp}
    (hop : s.MarksOwn op) : s.WritesSelected op := by
  rintro t val ht rfl hpending
  obtain ⟨p, hwrite, hp⟩ := Option.map_eq_some_iff.mp (step_fdc ht)
  obtain ⟨u, hdata, rfl⟩ := Option.map_eq_some_iff.mp hwrite
  have hu : u = t.fdc := hp
  rcases writeData_cases hdata with ⟨hzero, -⟩ | ⟨k, d, -, hk, hd, hstores⟩
  · exact absurd hzero hpending
  · have hkd : k = d := by
      by_contra hne
      have hstored : k ∈ storesTo s.fdc (.write .data val) := by
        rw [storesTo, if_neg hpending]
        exact hk
      have hcount := (hop t ht k hstored d (Ne.symm hne)).2
      rw [← hu, hstores.writes] at hcount
      revert hcount
      generalize (s.fdc.disks d).writes = n
      intro hcount
      bv_omega
    rw [hk, hkd, hs d hd]

theorem dirty_flag_iff (ops : List FdcOp) :
    ((∀ n t, Runs.exec step start (ops.take n) = some t → t.FlagsTruthful) ∧
        Runs.Along step MarksOwn start ops) ↔ Runs.Along step WritesSelected start ops := by
  have hstart : Selected start.fdc := fun d hd => absurd hd.symm (Option.some_ne_none d)
  constructor
  · rintro ⟨-, hmarks⟩
    refine hmarks.invariant (fun s => Selected s.fdc) (fun s op hs hop => ?_) hstart
    exact ⟨writesSelected_of_marksOwn hs hop, fun t ht => selected_step hs (step_fdc ht)⟩
  · intro hselected
    have hinit : Selected start.fdc ∧ start.FlagsTruthful := ⟨hstart, fun k hk => absurd rfl hk⟩
    constructor
    · intro n t ht
      exact (hselected.invariant_take (fun s => Selected s.fdc ∧ s.FlagsTruthful)
        (fun s op hs hop => (step_of_writesSelected hs hop).2) hinit n ht).2
    · exact hselected.invariant _ (fun s op hs hop => step_of_writesSelected hs hop) hinit

def switchedWrite : List FdcOp :=
  [.mount 0 fun _ => 0, .mount 1 fun _ => 0, .write .system 4, .write .sector 1,
    .write .command 0xA0, .resetUpdate 0, .write .system 5, .write .data 1]

theorem switchedWrite_misses_disk :
    ¬ ((∀ n t, Runs.exec step start (switchedWrite.take n) = some t → t.FlagsTruthful) ∧
        Runs.Along step MarksOwn start switchedWrite) := by
  rintro ⟨htruthful, -⟩
  obtain ⟨t, ht, hstored, hclean, hflag⟩ : ∃ t,
      Runs.exec step start (switchedWrite.take 8) = some t ∧
        (t.fdc.disks 0).data ⟨0, by decide⟩ = 1 ∧ t.clean 0 ⟨0, by decide⟩ = 0 ∧
        (t.fdc.disks 0).updated = false :=
    ⟨_, rfl, by decide, by decide, by decide⟩
  have hset : (t.fdc.disks 0).updated = true := by
    apply htruthful 8 t ht 0
    intro hsame
    rw [hsame, hclean] at hstored
    exact absurd hstored (by decide)
  exact absurd (hflag.symm.trans hset) Bool.false_ne_true

end Tracked

/-! ## Read commands -/

/-- A port access that is no command to write. -/
def ReadsOnly : FdcOp → Prop
  | .read _ => True
  | .write .command val => ¬ isWriteCommand val
  | .write _ _ => True
  | _ => False

def KeepsDisks (s : Fdc1793) (op : FdcOp) : Prop := ∀ t, s.step op = some t → SameDisks s t

def DataIdle (s : Fdc1793) (op : FdcOp) : Prop :=
  ∀ t val, s.step op = some t → op = .write .data val → s.rwLen = 0

theorem keepsDisks_iff (s : Fdc1793) {op : FdcOp} (hop : ReadsOnly op) :
    s.KeepsDisks op ↔ s.DataIdle op := by
  constructor
  · rintro hkeeps t val ht rfl
    by_contra hpending
    obtain ⟨p, hwrite, hp⟩ := Option.map_eq_some_iff.mp ht
    obtain ⟨u, hdata, rfl⟩ := Option.map_eq_some_iff.mp hwrite
    have hu : u = t := hp
    rcases writeData_cases hdata with ⟨hzero, -⟩ | ⟨k, d, -, -, -, hstores⟩
    · exact hpending hzero
    · have hcount := (hkeeps t ht d).writes
      rw [← hu, hstores.writes] at hcount
      revert hcount
      generalize (s.disks d).writes = n
      intro hcount
      bv_omega
  · intro hidle t ht
    cases op with
    | read port => exact (leaves_read ht).disks
    | mount driveIdx data => exact hop.elim
    | dismount driveIdx => exact hop.elim
    | resetUpdate driveIdx => exact hop.elim
    | write port val =>
        cases portEffect_write ht with
        | leaves hleaves => exact hleaves.disks
        | selects _ heq => exact heq ▸ fun _ => .refl _
        | marks heq hcommand =>
            obtain ⟨rfl, rfl⟩ := FdcOp.write.inj heq
            exact absurd hcommand hop
        | stores heq hpending => exact absurd (hidle t _ ht heq) hpending

/-- From any state on, a read command leaves the disks alone exactly while no data is written. -/
theorem readCommand_keeps_disks_iff (s : Fdc1793) {val : Byte}
    (hval : command val = .readSectors ∨ command val = .readAddress) {ops : List FdcOp}
    (hops : ∀ op ∈ ops, ReadsOnly op) :
    (∀ n t, Runs.exec step s ((.write .command val :: ops).take n) = some t → SameDisks s t) ↔
      Runs.Along step DataIdle s (.write .command val :: ops) := by
  have hfirst : ReadsOnly (.write .command val) := by
    rintro (hwrite | hwrite)
    · rw [hwrite] at hval
      exact absurd hval (by decide)
    · rw [hwrite] at hval
      exact absurd hval (by decide)
  have hall : ∀ op ∈ FdcOp.write .command val :: ops, ReadsOnly op := by
    intro op hop
    rcases List.mem_cons.mp hop with rfl | hmem
    · exact hfirst
    · exact hops op hmem
  rw [Runs.forall_take_iff_along (fun _ _ => .refl _) (fun h d => (h d).symm)
    (fun h h' d => (h d).trans (h' d))]
  exact Runs.along_congr (fun op hop s => keepsDisks_iff s (hall op hop)) s

theorem readCommand_keeps_disks_iff_first :
    (∀ n t, Runs.exec step readingFirst
        ((.write .command 0xC0 :: [FdcOp.read .data]).take n) = some t → SameDisks readingFirst t) ↔
      Runs.Along step DataIdle readingFirst (.write .command 0xC0 :: [.read .data]) :=
  readCommand_keeps_disks_iff readingFirst (.inr (by decide)) (by
    intro op hop
    rw [List.mem_singleton] at hop
    exact hop ▸ trivial)

/-- A byte written to the data port behind `READ-SECTORS` lands in the image. -/
theorem readSectors_stores :
    ¬ ∀ n t, Runs.exec step selectedFirst
      ((.write .command 0x80 :: [FdcOp.write .data 1]).take n) = some t →
        SameDisks selectedFirst t := by
  intro hkeeps
  obtain ⟨t, ht, hstored⟩ : ∃ t,
      Runs.exec step selectedFirst ([.write .command 0x80, .write .data 1].take 2) = some t ∧
        (t.disks 0).data ⟨0, by decide⟩ = 1 :=
    ⟨_, rfl, by decide⟩
  rw [(hkeeps 2 t ht 0).data] at hstored
  exact absurd hstored (by decide)

end Fdc1793

end V6Emul
