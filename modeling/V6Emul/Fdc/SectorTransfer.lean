import V6Emul.Fdc.Safety
import V6Emul.Foundation.Blocks

/-!
# Writing sectors and reading them back

The guest issues a sector command and then moves the bytes one by one through the
data port, polling the other registers in between.  A write transfer leaves the
bytes in the image from the sector's position on and nothing else changed; a read
transfer yields what the image holds there.
-/

namespace V6Emul

open Blocks

namespace Fdc1793

/-! ## Between two bytes -/

/-- Reads of registers other than the data register, with fewer than 255 polls of `READY`. -/
structure Polls (gap : List FdcPort) : Prop where
  no_data : ∀ port ∈ gap, port ≠ .data
  ready_lt : gap.count .system < 255

structure Paused (s s' : Fdc1793) : Prop where
  disks : s'.disks = s.disks
  disk : s'.disk = s.disk
  ptr : s'.ptr = s.ptr
  rwLen : s'.rwLen = s.rwLen
  sector : s'.regs.sector = s.regs.sector

theorem Paused.trans {s t u : Fdc1793} (h : s.Paused t) (h' : t.Paused u) : s.Paused u :=
  ⟨h'.disks.trans h.disks, h'.disk.trans h.disk, h'.ptr.trans h.ptr, h'.rwLen.trans h.rwLen,
    h'.sector.trans h.sector⟩

theorem paused_read {s : Fdc1793} {port : FdcPort} (hdata : port ≠ .data)
    (hwait : port = .system → 1 < s.wait.toNat) :
    ∃ s', s.step (.read port) = some s' ∧ s.Paused s' ∧
      s'.wait.toNat + [port].count .system = s.wait.toNat := by
  cases port with
  | data => exact absurd rfl hdata
  | command => exact ⟨s.readStatus.2, rfl, ⟨rfl, rfl, rfl, rfl, rfl⟩, rfl⟩
  | track => exact ⟨s, rfl, ⟨rfl, rfl, rfl, rfl, rfl⟩, rfl⟩
  | sector => exact ⟨s, rfl, ⟨rfl, rfl, rfl, rfl, rfl⟩, rfl⟩
  | bad => exact ⟨s, rfl, ⟨rfl, rfl, rfl, rfl, rfl⟩, rfl⟩
  | system =>
      have hmore := hwait rfl
      have hsub : (s.wait - 1).toNat = s.wait.toNat - 1 := by
        have hlt := s.wait.isLt
        rw [BitVec.toNat_sub_of_le]
        · rfl
        · rw [BitVec.le_def]
          change 1 ≤ _
          omega
      have hwait₀ : s.wait ≠ 0 := by
        intro hzero
        rw [hzero] at hmore
        exact absurd hmore (by decide)
      have hwait₁ : s.wait - 1 ≠ 0 := by
        intro hzero
        rw [hzero] at hsub
        change 0 = _ at hsub
        omega
      have hready : s.readReady.2 = { s with wait := s.wait - 1 } := by
        rw [readReady, if_neg hwait₀, if_neg hwait₁]
      refine ⟨{ s with wait := s.wait - 1 }, congrArg some hready, ⟨rfl, rfl, rfl, rfl, rfl⟩, ?_⟩
      change (s.wait - 1).toNat + 1 = s.wait.toNat
      omega

theorem paused_exec {s : Fdc1793} {gap : List FdcPort} (hdata : ∀ port ∈ gap, port ≠ .data)
    (hwait : gap.count .system < s.wait.toNat) :
    ∃ s', Runs.exec step s (gap.map .read) = some s' ∧ s.Paused s' := by
  induction gap generalizing s with
  | nil => exact ⟨s, rfl, rfl, rfl, rfl, rfl, rfl⟩
  | cons port gap ih =>
      rw [← List.singleton_append, List.count_append] at hwait
      obtain ⟨s₁, hstep, hpaused, hleft⟩ := @paused_read s port (hdata port List.mem_cons_self) (by
        rintro rfl
        change 1 + _ < _ at hwait
        omega)
      obtain ⟨s', hexec, hpaused'⟩ := @ih s₁
        (fun port' hport' => hdata port' (List.mem_cons_of_mem port hport')) (by omega)
      refine ⟨s', ?_, hpaused.trans hpaused'⟩
      rw [List.map_cons, Runs.exec, hstep]
      exact hexec

/-! ## One byte -/

structure Pending (s : Fdc1793) (d : Fin drivesMax) (off len : Nat) : Prop where
  disk : s.disk = some d
  ptr : s.ptr = .data d off
  rwLen : s.rwLen = len
  wait : s.wait = 255

structure Ended (s : Fdc1793) : Prop where
  busy : s.busy = false
  drq : s.regs.status &&& fDrq = 0
  irq : s.irq = wd1793Irq

def boundaries (len : Nat) : Byte := BitVec.ofNat 8 ((len - 1) / fddSectorLen)

structure Advanced (s s' : Fdc1793) (d : Fin drivesMax) (off len : Nat) : Prop where
  disk : s'.disk = some d
  pending : len ≠ 0 → s'.Pending d (off + 1) len
  ended : len = 0 → s'.Ended
  sector : s'.regs.sector + boundaries len = s.regs.sector + boundaries (len + 1)

theorem ended_countDown {s : Fdc1793} (h : s.rwLen = 1) : s.countDown.Ended := by
  have hdown : s.countDown = { s with
      rwLen := s.rwLen - 1
      regs := { s.regs with status := s.regs.status &&& ~~~(fDrq ||| fBusy) }
      irq := wd1793Irq } := by
    rw [countDown, if_neg (not_not.mpr (by omega))]
  have hdrq : ∀ b : Byte, (b &&& ~~~(fDrq ||| fBusy)) &&& fDrq = 0 := by
    decide
  rw [hdown]
  constructor
  · simp [busy_eq, fDrq, fBusy]
  · exact hdrq _
  · rfl

theorem sector_countDown {s : Fdc1793} {len : Nat} (h : s.rwLen = len + 1) :
    s.countDown.regs.sector + boundaries len = s.regs.sector + boundaries (len + 1) := by
  have hsub : s.rwLen - 1 = len := by
    omega
  rw [countDown, hsub, boundaries, boundaries, fddSectorLen]
  by_cases hzero : len = 0
  · subst hzero
    rfl
  · rw [if_pos (by omega)]
    change (if (len : Int) % 1024 = 0 then s.regs.sector + 1 else s.regs.sector) + _ = _
    by_cases hedge : len % 1024 = 0
    · have hquot : (len + 1 - 1) / 1024 = (len - 1) / 1024 + 1 := by
        omega
      rw [if_pos (by omega), hquot, BitVec.ofNat_add, BitVec.add_assoc, BitVec.add_comm 1]
      rfl
    · have hquot : (len + 1 - 1) / 1024 = (len - 1) / 1024 := by
        omega
      rw [if_neg (by omega), hquot]

theorem advanced_countDown {s : Fdc1793} {d : Fin drivesMax} {off len : Nat}
    (hdisk : s.disk = some d) (hptr : s.ptr = .data d (off + 1)) (hlen : s.rwLen = len + 1) :
    s.Advanced s.countDown d off len := by
  constructor
  · rw [countDown]
    split
    · exact hdisk
    · exact hdisk
  · intro hmore
    rw [countDown, if_pos (by omega)]
    refine ⟨hdisk, hptr, ?_, rfl⟩
    change s.rwLen - 1 = len
    omega
  · intro hzero
    apply ended_countDown
    omega
  · exact sector_countDown hlen

section Byte

variable {s : Fdc1793} {d : Fin drivesMax} {off len : Nat}

theorem step_writeByte (hdisk : s.disk = some d) (hptr : s.ptr = .data d off)
    (hlen : s.rwLen = len + 1) (hoff : off < fddSize) (val : Byte) :
    ∃ s', s.step (.write .data val) = some s' ∧ s.Advanced s' d off len ∧
      (s'.disks d).data = Function.update (s.disks d).data ⟨off, hoff⟩ val ∧
      ∀ j, j ≠ d → (s'.disks j).data = (s.disks j).data := by
  let s₁ : Fdc1793 := ({ s.setDisk d fun disk =>
      { disk with data := Function.update disk.data ⟨off, hoff⟩ val } with
    ptr := s.ptr.add 1 } : Fdc1793).setDisk d FDisk.countWrite
  have hpending : s.rwLen ≠ 0 := by
    omega
  have hstore : s.store val = some (s.setDisk d fun disk =>
      { disk with data := Function.update disk.data ⟨off, hoff⟩ val }) := by
    rw [store, hptr]
    exact dif_pos hoff
  have hdata : s.storeData val = some s₁.countDown := by
    rw [storeData, if_neg hpending, hstore]
    change (onDisk _ _).bind _ = _
    rw [onDisk_of_disk (by exact hdisk)]
    rfl
  have hdisk₁ : s₁.disk = some d := hdisk
  have hadvanced : s₁.Advanced s₁.countDown d off len := by
    apply advanced_countDown hdisk₁
    · change s.ptr.add 1 = _
      rw [hptr]
      rfl
    · exact hlen
  have hdisks : s₁.countDown.disks = s₁.disks := by
    rw [countDown]
    split <;> rfl
  refine ⟨{ s₁.countDown with regs := { s₁.countDown.regs with data := val } }, ?_, ?_, ?_, ?_⟩
  · rw [step, write, writePort, writeData, hdata]
    rfl
  · refine ⟨hadvanced.disk, fun hmore => ?_, fun hzero => ?_, hadvanced.sector⟩
    · obtain ⟨h₁, h₂, h₃, h₄⟩ := hadvanced.pending hmore
      exact ⟨h₁, h₂, h₃, h₄⟩
    · obtain ⟨h₁, h₂, h₃⟩ := hadvanced.ended hzero
      exact ⟨h₁, h₂, h₃⟩
  · change (s₁.countDown.disks d).data = _
    rw [hdisks]
    simp [s₁, setDisk, FDisk.countWrite]
  · intro j hj
    change (s₁.countDown.disks j).data = _
    rw [hdisks]
    simp [s₁, setDisk, hj]

theorem step_readByte (hdisk : s.disk = some d) (hptr : s.ptr = .data d off)
    (hlen : s.rwLen = len + 1) (hoff : off < fddSize) :
    ∃ s', s.read .data = some ((s.disks d).data ⟨off, hoff⟩, s') ∧ s.Advanced s' d off len ∧
      ∀ j, (s'.disks j).data = (s.disks j).data := by
  let s₁ : Fdc1793 := ({ s with
    regs := { s.regs with data := (s.disks d).data ⟨off, hoff⟩ }
    ptr := s.ptr.add 1 } : Fdc1793).setDisk d FDisk.countRead
  have hpending : s.rwLen ≠ 0 := by
    omega
  have hload : s.load = some ((s.disks d).data ⟨off, hoff⟩) := by
    rw [load, hptr]
    exact dif_pos hoff
  have hread : s.readData = some ((s.disks d).data ⟨off, hoff⟩, s₁.countDown) := by
    rw [readData, if_neg hpending, hload]
    change (onDisk _ _).bind _ = _
    rw [onDisk_of_disk (by exact hdisk)]
    rfl
  have hdisk₁ : s₁.disk = some d := hdisk
  have hadvanced : s₁.Advanced s₁.countDown d off len := by
    apply advanced_countDown hdisk₁
    · change s.ptr.add 1 = _
      rw [hptr]
      rfl
    · exact hlen
  have hdisks : s₁.countDown.disks = s₁.disks := by
    rw [countDown]
    split <;> rfl
  refine ⟨s₁.countDown, hread, ?_, ?_⟩
  · exact ⟨hadvanced.disk, hadvanced.pending, hadvanced.ended, hadvanced.sector⟩
  · intro j
    rw [hdisks]
    by_cases hj : j = d
    · subst hj
      simp [s₁, setDisk, FDisk.countRead]
    · simp [s₁, setDisk, hj]

end Byte

/-! ## Whole transfers -/

def writeBytes (s : Fdc1793) : List (List FdcPort × Byte) → Option Fdc1793
  | [] => some s
  | (gap, val) :: rest =>
      (Runs.exec step s (gap.map .read)).bind fun s =>
        (s.step (.write .data val)).bind fun s => s.writeBytes rest

def readBytes (s : Fdc1793) : List (List FdcPort) → Option (List Byte × Fdc1793)
  | [] => some ([], s)
  | gap :: rest =>
      (Runs.exec step s (gap.map .read)).bind fun s =>
        (s.read .data).bind fun (val, s) =>
          (s.readBytes rest).map fun (vals, s) => (val :: vals, s)

theorem paused_pending {s : Fdc1793} {d : Fin drivesMax} {off len : Nat} (h : s.Pending d off len)
    {gap : List FdcPort} (hgap : Polls gap) :
    ∃ s', Runs.exec step s (gap.map .read) = some s' ∧ s.Paused s' ∧ s'.disk = some d ∧
      s'.ptr = .data d off ∧ s'.rwLen = len := by
  have hwait : gap.count .system < s.wait.toNat := by
    rw [h.wait]
    exact hgap.ready_lt
  obtain ⟨s', hexec, hpaused⟩ := paused_exec hgap.no_data hwait
  exact ⟨s', hexec, hpaused, hpaused.disk.trans h.disk, hpaused.ptr.trans h.ptr,
    hpaused.rwLen.trans h.rwLen⟩

theorem writeBytes_eq {s : Fdc1793} {d : Fin drivesMax} {off : Nat}
    {supply : List (List FdcPort × Byte)} (h : s.Pending d off supply.length)
    (hne : supply ≠ []) (hfits : off + supply.length ≤ fddSize)
    (hpolls : ∀ p ∈ supply, Polls p.1) :
    ∃ t, s.writeBytes supply = some t ∧ t.disk = some d ∧ t.Ended ∧
      t.regs.sector = s.regs.sector + boundaries supply.length ∧
      (t.disks d).data = writeAt (s.disks d).data off (supply.map Prod.snd) ∧
      ∀ j, j ≠ d → (t.disks j).data = (s.disks j).data := by
  induction supply generalizing s off with
  | nil => exact absurd rfl hne
  | cons p rest ih =>
      obtain ⟨gap, val⟩ := p
      rw [List.length_cons] at h hfits
      obtain ⟨s₁, hexec, hpaused, hdisk, hptr, hlen⟩ :=
        paused_pending h (hpolls _ List.mem_cons_self)
      have hoff : off < fddSize := by
        omega
      have hleft : s₁.rwLen = rest.length + 1 := by
        omega
      obtain ⟨s₂, hstep, hadvanced, hdata, hothers⟩ := step_writeByte hdisk hptr hleft hoff val
      rw [hpaused.disks] at hdata hothers
      have hsector := hadvanced.sector
      rw [hpaused.sector] at hsector
      rw [writeBytes, hexec, Option.bind_some, hstep, Option.bind_some, List.map_cons,
        writeAt_cons _ hoff, ← hdata, List.length_cons, ← hsector]
      by_cases hlast : rest = []
      · subst hlast
        refine ⟨s₂, rfl, hadvanced.disk, hadvanced.ended rfl, ?_, ?_, hothers⟩
        · exact (BitVec.add_zero _).symm
        · rw [List.map_nil, writeAt_nil]
      · have hpos : rest.length ≠ 0 := fun hzero => hlast (List.length_eq_zero_iff.mp hzero)
        obtain ⟨t, hrest, htdisk, hended, htsector, htdata, htothers⟩ :=
          ih (hadvanced.pending hpos) hlast (by omega) fun p hp =>
            hpolls p (List.mem_cons_of_mem _ hp)
        exact ⟨t, hrest, htdisk, hended, htsector, htdata,
          fun j hj => (htothers j hj).trans (hothers j hj)⟩

theorem readBytes_eq {s : Fdc1793} {d : Fin drivesMax} {off : Nat} {gaps : List (List FdcPort)}
    (h : s.Pending d off gaps.length) (hne : gaps ≠ []) (hfits : off + gaps.length ≤ fddSize)
    (hpolls : ∀ gap ∈ gaps, Polls gap) :
    ∃ t, s.readBytes gaps = some (readAt (s.disks d).data off gaps.length hfits, t) ∧ t.Ended ∧
      t.regs.sector = s.regs.sector + boundaries gaps.length ∧
      ∀ j, (t.disks j).data = (s.disks j).data := by
  induction gaps generalizing s off with
  | nil => exact absurd rfl hne
  | cons gap rest ih =>
      rw [List.length_cons] at h
      have hfits' : off + (rest.length + 1) ≤ fddSize := hfits
      obtain ⟨s₁, hexec, hpaused, hdisk, hptr, hlen⟩ :=
        paused_pending h (hpolls _ List.mem_cons_self)
      have hoff : off < fddSize := by
        omega
      have hleft : s₁.rwLen = rest.length + 1 := by
        omega
      obtain ⟨s₂, hread, hadvanced, hdata⟩ := step_readByte hdisk hptr hleft hoff
      rw [hpaused.disks] at hread hdata
      have hsector := hadvanced.sector
      rw [hpaused.sector] at hsector
      rw [readBytes, hexec, Option.bind_some, hread, Option.bind_some]
      simp only [List.length_cons]
      rw [readAt_succ _ hfits', ← hsector]
      by_cases hlast : rest = []
      · subst hlast
        refine ⟨s₂, rfl, hadvanced.ended rfl, ?_, hdata⟩
        exact (BitVec.add_zero _).symm
      · have hpos : rest.length ≠ 0 := fun hzero => hlast (List.length_eq_zero_iff.mp hzero)
        obtain ⟨t, hrest, hended, htsector, htdata⟩ :=
          ih (hadvanced.pending hpos) hlast (by omega) fun gap' hgap' =>
            hpolls gap' (List.mem_cons_of_mem _ hgap')
        rw [hdata] at hrest
        rw [hrest]
        exact ⟨t, rfl, hended, htsector, fun j => (htdata j).trans (hdata j)⟩

/-! ## Sector commands -/

/-- The bytes of one sector, or of all sectors from this one to the end of the track. -/
def sectorBytes (val : Byte) (sector : Nat) : Nat :=
  if val &&& 0x10 ≠ 0 then fddSectorLen * (fddSectorsPerTrack + 1 - sector) else fddSectorLen

theorem transferLen_eq {s : Fdc1793} (val : Byte)
    (hsector : s.regs.sector.toNat ≤ fddSectorsPerTrack) :
    s.transferLen val = sectorBytes val s.regs.sector.toNat := by
  rw [fddSectorsPerTrack] at hsector
  rw [transferLen, sectorBytes, fddSectorLen, fddSectorsPerTrack]
  split
  · omega
  · rfl

theorem sideOf_lt (s : Fdc1793) (val : Byte) : s.sideOf val < fddSides := by
  rw [sideOf]
  split
  · split <;> decide
  · exact s.side.isLt

/-- The place that a sector command asks for. -/
def place (s : Fdc1793) (val : Byte) : Nat :=
  position (s.sideOf val) s.regs.track.toNat s.regs.sector.toNat

/-- A disk is selected, and the registers address one of its sectors. -/
structure Addresses (s : Fdc1793) (d : Fin drivesMax) : Prop where
  busy : s.busy = false
  disk : s.disk = some d
  mounted : (s.disks d).mounted = true
  track_lt : s.regs.track.toNat < fddTracksPerSide
  sector_pos : 1 ≤ s.regs.sector.toNat
  sector_le : s.regs.sector.toNat ≤ fddSectorsPerTrack

theorem place_add_le {s : Fdc1793} {d : Fin drivesMax} (h : s.Addresses d) (val : Byte) :
    s.place val + sectorBytes val s.regs.sector.toNat ≤ fddSize := by
  have hside := s.sideOf_lt val
  have htrack := h.track_lt
  have hpos := h.sector_pos
  have hle := h.sector_le
  change s.sideOf val < 2 at hside
  change s.regs.track.toNat < 82 at htrack
  change s.regs.sector.toNat ≤ 5 at hle
  rw [sectorBytes]
  change (5 * (s.regs.track.toNat * 2 + s.sideOf val) + (s.regs.sector.toNat - 1)) * 1024 + _ ≤ 839680
  split
  · change _ + 1024 * (5 + 1 - s.regs.sector.toNat) ≤ _
    omega
  · change _ + 1024 ≤ _
    omega

theorem sectorBytes_pos {val : Byte} {sector : Nat} (h : sector ≤ fddSectorsPerTrack) :
    0 < sectorBytes val sector := by
  rw [fddSectorsPerTrack] at h
  rw [sectorBytes, fddSectorLen, fddSectorsPerTrack]
  split
  · omega
  · omega

theorem pending_sectors {s : Fdc1793} {d : Fin drivesMax} (h : s.Addresses d) {val : Byte}
    (hval : command val = .readSectors ∨ command val = .writeSectors) :
    ∃ s', s.step (.write .command val) = some s' ∧
      s'.Pending d (s.place val) (sectorBytes val s.regs.sector.toNat) ∧
      s'.regs.sector = s.regs.sector ∧ ∀ j, (s'.disks j).data = (s.disks j).data := by
  let s₁ : Fdc1793 :=
    ({ (s.latch val).setDisk d fun disk =>
        disk.setHeader (s.sideOf val) s.regs.track.toNat s.regs.sector.toNat with
      ptr := .data d (s.place val) } : Fdc1793).startTransfer (s.transferLen val)
  have hseek : (s.latch val).seekSectors val =
      { (s.latch val).setDisk d fun disk =>
          disk.setHeader (s.sideOf val) s.regs.track.toNat s.regs.sector.toNat with
        ptr := .data d (s.place val) } :=
    @seek_of_mounted (s.latch val) d h.disk h.mounted _ _ _
  have hptr : DataPtr.data d (s.place val) ≠ .null := fun hnull => nomatch hnull
  have hpending : s₁.Pending d (s.place val) (sectorBytes val s.regs.sector.toNat) :=
    ⟨h.disk, rfl, transferLen_eq val h.sector_le, rfl⟩
  have hdata : ∀ j, (s₁.disks j).data = (s.disks j).data := by
    intro j
    by_cases hj : j = d
    · subst hj
      simp [s₁, startTransfer, setDisk, FDisk.setHeader, latch]
    · simp [s₁, startTransfer, setDisk, latch, hj]
  have hforce : command val ≠ .forceIrq := by
    rcases hval with hread | hwrite
    · rw [hread]
      decide
    · rw [hwrite]
      decide
  have hcommand : s.writeCommand val = (s.latch val).execCommand val := by
    rw [writeCommand, if_neg hforce, h.busy]
    exact if_neg Bool.false_ne_true
  rcases hval with hread | hwrite
  · have hexec : (s.latch val).execCommand val = some s₁ := by
      rw [execCommand, hread]
      simp only
      rw [readSectors, hseek, if_neg hptr]
      rfl
    refine ⟨s₁, ?_, hpending, rfl, hdata⟩
    rw [step, write, writePort, hcommand, hexec]
    rfl
  · have hexec : (s.latch val).execCommand val = some (s₁.setDisk d FDisk.setUpdated) := by
      rw [execCommand, hwrite]
      simp only
      rw [writeSectors, hseek, if_neg hptr]
      exact @onDisk_of_disk s₁ d h.disk _
    refine ⟨s₁.setDisk d FDisk.setUpdated, ?_, ⟨hpending.disk, hpending.ptr, hpending.rwLen, rfl⟩,
      rfl, ?_⟩
    · rw [step, write, writePort, hcommand, hexec]
      rfl
    · intro j
      rw [← hdata j]
      by_cases hj : j = d
      · subst hj
        simp [setDisk, FDisk.setUpdated]
      · simp [setDisk, hj]

/-! ## Sectors do not overlap -/

structure SectorAddr where
  side : Fin fddSides
  track : Fin fddTracksPerSide
  sector : Fin fddSectorsPerTrack
  deriving DecidableEq

def SectorAddr.position (a : SectorAddr) : Nat :=
  Fdc1793.position a.side a.track (a.sector + 1)

theorem SectorAddr.position_add_le (a : SectorAddr) : a.position + fddSectorLen ≤ fddSize := by
  have hside : a.side.val < 2 := a.side.isLt
  have htrack : a.track.val < 82 := a.track.isLt
  have hsector : a.sector.val < 5 := a.sector.isLt
  change (5 * (a.track.val * 2 + a.side.val) + (a.sector.val + 1 - 1)) * 1024 + 1024 ≤ 839680
  omega

theorem SectorAddr.disjoint {a b : SectorAddr} (h : a ≠ b) :
    a.position + fddSectorLen ≤ b.position ∨ b.position + fddSectorLen ≤ a.position := by
  have hsideA : a.side.val < 2 := a.side.isLt
  have hsideB : b.side.val < 2 := b.side.isLt
  have hsectorA : a.sector.val < 5 := a.sector.isLt
  have hsectorB : b.sector.val < 5 := b.sector.isLt
  have hne : ¬ (a.side.val = b.side.val ∧ a.track.val = b.track.val ∧
      a.sector.val = b.sector.val) := by
    rintro ⟨hside, htrack, hsector⟩
    apply h
    cases a
    cases b
    simp only [SectorAddr.mk.injEq]
    exact ⟨Fin.ext hside, Fin.ext htrack, Fin.ext hsector⟩
  change (5 * (a.track.val * 2 + a.side.val) + (a.sector.val + 1 - 1)) * 1024 + 1024 ≤
      (5 * (b.track.val * 2 + b.side.val) + (b.sector.val + 1 - 1)) * 1024 ∨
    (5 * (b.track.val * 2 + b.side.val) + (b.sector.val + 1 - 1)) * 1024 + 1024 ≤
      (5 * (a.track.val * 2 + a.side.val) + (a.sector.val + 1 - 1)) * 1024
  omega

/-! ## The round trip -/

structure Done (s t : Fdc1793) (len : Nat) : Prop extends Ended t where
  sector : t.regs.sector = s.regs.sector + boundaries len

/--
Writing the bytes of `supply` changes the addressed sectors of drive `d` alone.  A
later read of the same place, if nothing has been written there since, yields them.
-/
def RoundTrips (s : Fdc1793) (d : Fin drivesMax) (val : Byte)
    (supply : List (List FdcPort × Byte)) : Prop :=
  ∃ t, ((s.step (.write .command val)).bind fun s => s.writeBytes supply) = some t ∧
    s.Done t supply.length ∧
    (∀ j (i : Fin fddSize),
      (j = d → i.val < s.place val ∨ s.place val + supply.length ≤ i.val) →
        (t.disks j).data i = (s.disks j).data i) ∧
    ∀ (u : Fdc1793) (rval : Byte) (gaps : List (List FdcPort)), u.Addresses d →
      command rval = .readSectors → u.place rval = s.place val →
      sectorBytes rval u.regs.sector.toNat = supply.length →
      (∀ i : Fin fddSize, s.place val ≤ i.val → i.val < s.place val + supply.length →
        (u.disks d).data i = (t.disks d).data i) →
      gaps.length = supply.length → (∀ gap ∈ gaps, Polls gap) →
      ∃ v, ((u.step (.write .command rval)).bind fun s => s.readBytes gaps) =
          some (supply.map Prod.snd, v) ∧
        u.Done v supply.length ∧ ∀ j, (v.disks j).data = (u.disks j).data

theorem sector_round_trip {s : Fdc1793} {d : Fin drivesMax} (hs : s.Addresses d) {val : Byte}
    (hval : command val = .writeSectors) {supply : List (List FdcPort × Byte)}
    (hlen : supply.length = sectorBytes val s.regs.sector.toNat)
    (hpolls : ∀ p ∈ supply, Polls p.1) :
    s.RoundTrips d val supply ∧
      ∀ a b : SectorAddr, a.position + fddSectorLen ≤ fddSize ∧
        (a ≠ b → a.position + fddSectorLen ≤ b.position ∨
          b.position + fddSectorLen ≤ a.position) := by
  refine ⟨?_, fun a b => ⟨a.position_add_le, SectorAddr.disjoint⟩⟩
  have hfits := place_add_le hs val
  have hpos := @sectorBytes_pos val _ hs.sector_le
  rw [← hlen] at hfits hpos
  obtain ⟨s₁, hcommand, hpending, hsector, hdata⟩ := pending_sectors hs (.inr hval)
  rw [← hlen] at hpending
  obtain ⟨t, hwrite, -, hended, htsector, htdata, htothers⟩ :=
    writeBytes_eq hpending (List.length_pos_iff.mp hpos) hfits hpolls
  rw [hdata] at htdata
  refine ⟨t, by rw [hcommand, Option.bind_some, hwrite], ⟨hended, hsector ▸ htsector⟩, ?_, ?_⟩
  · intro j i hi
    by_cases hj : j = d
    · rw [hj, htdata]
      rcases hi hj with hlt | hge
      · exact writeAt_of_lt _ _ hlt
      · exact writeAt_of_ge _ (by rwa [List.length_map])
    · rw [htothers j hj, hdata]
  · intro u rval gaps hu hrval hplace hsame hkept hgaps hgpolls
    obtain ⟨u₁, hucommand, hupending, husector, hudata⟩ := pending_sectors hu (.inl hrval)
    rw [hplace, hsame, ← hgaps] at hupending
    have hgne : gaps ≠ [] := by
      rw [← List.length_pos_iff, hgaps]
      exact hpos
    have hgfits : s.place val + gaps.length ≤ fddSize := by
      rw [hgaps]
      exact hfits
    obtain ⟨v, hread, hvended, hvsector, hvdata⟩ := readBytes_eq hupending hgne hgfits hgpolls
    have hbytes : readAt (u₁.disks d).data (s.place val) gaps.length hgfits =
        supply.map Prod.snd := by
      have hheld : ∀ i : Fin fddSize, s.place val ≤ i.val → i.val < s.place val + gaps.length →
          (u₁.disks d).data i = writeAt (s.disks d).data (s.place val) (supply.map Prod.snd) i := by
        intro i hle hlt
        rw [hudata, hkept i hle (hgaps ▸ hlt), htdata]
      rw [readAt_congr hgfits hheld]
      exact readAt_writeAt _ (by rw [hgaps, List.length_map]) hgfits
    refine ⟨v, ?_, ⟨hvended, ?_⟩, fun j => (hvdata j).trans (hudata j)⟩
    · rw [hucommand, Option.bind_some, hread, hbytes]
    · rw [hvsector, husector, hgaps]

theorem sector_round_trip_first :
    let s : Fdc1793 := { selectedFirst with regs := { selectedFirst.regs with sector := 1 } }
    s.RoundTrips 0 0xA0 (List.replicate 1024 ([], 0x55)) ∧
      ∀ a b : SectorAddr, a.position + fddSectorLen ≤ fddSize ∧
        (a ≠ b → a.position + fddSectorLen ≤ b.position ∨
          b.position + fddSectorLen ≤ a.position) := by
  intro s
  have hs : s.Addresses 0 := ⟨by decide, rfl, rfl, by decide, by decide, by decide⟩
  apply sector_round_trip hs (by decide)
  · rw [List.length_replicate]
    rfl
  · intro p hp
    rw [List.eq_of_mem_replicate hp]
    exact ⟨fun port hport => absurd hport List.not_mem_nil, by decide⟩

end Fdc1793

end V6Emul
