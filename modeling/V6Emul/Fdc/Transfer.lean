import V6Emul.Fdc.Model
import V6Emul.Foundation.Runs

/-!
# Transfers

What a data command sets up is a transfer: so many bytes from an offset on of an
image or a header.  Here a transfer lies inside its area by construction, and
the controller either has none pending or carries one of these.  The controller
itself only gets there if every command asks for sectors of the image and the
drive stays selected.
-/

namespace V6Emul

/-! ## Transfers inside an area -/

inductive Area where
  | image
  | header
  deriving DecidableEq

namespace Area

def size : Area → Nat
  | .image => fddSize
  | .header => 6

def ptr : Area → Fin drivesMax → Nat → DataPtr
  | .image, drive, offset => .data drive offset
  | .header, drive, offset => .header drive offset

theorem drive_ptr (a : Area) (drive : Fin drivesMax) (offset : Nat) :
    (a.ptr drive offset).drive = some drive := by
  cases a <;> rfl

end Area

structure Transfer where
  area : Area
  drive : Fin drivesMax
  offset : Nat
  len : Nat
  len_pos : 0 < len
  fits : offset + len ≤ area.size

namespace Transfer

def next (t : Transfer) : Option Transfer :=
  if h : t.len = 1 then none
  else some
    { area := t.area
      drive := t.drive
      offset := t.offset + 1
      len := t.len - 1
      len_pos := by
        have hpos := t.len_pos
        omega
      fits := by
        have hpos := t.len_pos
        have hfits := t.fits
        omega }

theorem next_of_last {t : Transfer} (h : t.len = 1) : t.next = none := dif_pos h

theorem next_of_more {t : Transfer} (h : t.len ≠ 1) :
    ∃ t', t.next = some t' ∧ t'.area = t.area ∧ t'.drive = t.drive ∧ t'.offset = t.offset + 1 ∧
      t'.len + 1 = t.len := by
  have hpos := t.len_pos
  refine ⟨_, dif_neg h, rfl, rfl, rfl, ?_⟩
  change t.len - 1 + 1 = t.len
  omega

end Transfer

namespace Fdc1793

/-! ## The controller carries a transfer -/

def Wf (s : Fdc1793) : Prop :=
  ∀ d, s.disk = some d → d = s.drive ∧ (s.disks d).mounted = true

/-- The disk of the transfer need not be the selected one, but both are there. -/
structure Moving (s : Fdc1793) (t : Transfer) : Prop where
  rwLen : s.rwLen = t.len
  ptr : s.ptr = t.area.ptr t.drive t.offset
  mounted : (s.disks t.drive).mounted = true
  disk : s.disk = some s.drive
  busy : s.busy = true
  cmd : t.area = .header → command s.cmd = .readAddress

theorem Moving.pending {s : Fdc1793} {t : Transfer} (h : s.Moving t) : s.rwLen ≠ 0 := by
  have hpos := t.len_pos
  rw [h.rwLen]
  omega

inductive Carries (s : Fdc1793) : Option Transfer → Prop where
  | quiet : s.rwLen = 0 → Carries s none
  | moving {t : Transfer} : s.Moving t → Carries s (some t)

structure Keeps (s s' : Fdc1793) : Prop where
  drive : s'.drive = s.drive
  disk : s'.disk = s.disk
  rwLen : s'.rwLen = s.rwLen
  ptr : s'.ptr = s.ptr
  busy : s'.busy = s.busy
  cmd : s'.cmd = s.cmd
  mounted : ∀ d, (s.disks d).mounted = true → (s'.disks d).mounted = true

namespace Keeps

variable {s s' : Fdc1793}

theorem wf (h : s.Keeps s') (hs : s.Wf) : s'.Wf := by
  intro d hd
  obtain ⟨rfl, hmounted⟩ := hs d (h.disk ▸ hd)
  exact ⟨h.drive.symm, h.mounted _ hmounted⟩

theorem moving (h : s.Keeps s') {t : Transfer} (ht : s.Moving t) : s'.Moving t where
  rwLen := h.rwLen.trans ht.rwLen
  ptr := h.ptr.trans ht.ptr
  mounted := h.mounted _ ht.mounted
  disk := by rw [h.disk, h.drive, ht.disk]
  busy := h.busy.trans ht.busy
  cmd := by rw [h.cmd]; exact ht.cmd

theorem carries (h : s.Keeps s') {t : Option Transfer} (ht : s.Carries t) : s'.Carries t := by
  cases ht with
  | quiet hzero => exact .quiet (h.rwLen.trans hzero)
  | moving hmoving => exact .moving (h.moving hmoving)

end Keeps

theorem mounted_setDisk {s : Fdc1793} {drive : Fin drivesMax} {f : FDisk → FDisk}
    (hf : (f (s.disks drive)).mounted = (s.disks drive).mounted) (d : Fin drivesMax) :
    ((s.setDisk drive f).disks d).mounted = (s.disks d).mounted := by
  by_cases hd : d = drive
  · subst hd
    simpa [setDisk] using hf
  · simp [setDisk, hd]

theorem mounted_setHeader (s : Fdc1793) (drive d : Fin drivesMax) (sideId trackId sectorId : Nat) :
    ((s.setDisk drive fun disk => disk.setHeader sideId trackId sectorId).disks d).mounted =
      (s.disks d).mounted :=
  @mounted_setDisk s drive (fun disk => disk.setHeader sideId trackId sectorId) rfl d

/-! ## The status register -/

theorem busy_eq (s : Fdc1793) : s.busy = s.regs.status.getLsbD 0 := by
  have hbit : ∀ b : Byte, (b &&& fBusy != 0) = b.getLsbD 0 := by
    decide
  exact hbit _

theorem busy_readStatus (s : Fdc1793) : s.readStatus.2.busy = s.busy := by
  simp only [busy_eq, readStatus]
  split <;> simp [fIndex, fBusy, fNotReady, fReadonly, fTrack0, fDrq]

theorem busy_startTransfer (s : Fdc1793) (len : Int) : (s.startTransfer len).busy = true := by
  simp [busy_eq, startTransfer, fBusy]

theorem busy_forceIrq (s : Fdc1793) (val : Byte) : (s.forceIrq val).busy = false := by
  rw [busy_eq, forceIrq]
  cases hbusy : s.busy with
  | true => simp [fBusy]
  | false =>
      rw [if_neg Bool.false_ne_true, track0]
      split <;> simp [fTrack0, fIndex]

theorem busy_latch (s : Fdc1793) (val : Byte) : (s.latch val).busy = false := by
  simp [busy_eq, latch]

theorem not_busy_readReady (s : Fdc1793) (hwait : s.wait - 1 = 0) (hpos : s.wait ≠ 0) :
    s.readReady.2.busy = false ∧ s.readReady.2.rwLen = 0 := by
  rw [readReady, if_neg hpos, if_pos hwait]
  constructor
  · simp [busy_eq, fDrq, fBusy, fLostData]
  · rfl

/-! ## Data accesses -/

section Access

variable {s : Fdc1793} {t : Transfer}

theorem load_isSome (h : s.Moving t) : ∃ val, s.load = some val := by
  have hlen := t.len_pos
  have hfits := t.fits
  rw [load, h.ptr]
  cases harea : t.area with
  | image =>
      rw [harea, Area.size] at hfits
      exact ⟨_, dif_pos (by omega)⟩
  | header =>
      rw [harea, Area.size] at hfits
      exact ⟨_, dif_pos (by omega)⟩

theorem store_isSome (h : s.Moving t) (val : Byte) :
    ∃ f : FDisk → FDisk, s.store val = some (s.setDisk t.drive f) ∧
      ∀ d, (f d).mounted = d.mounted := by
  have hlen := t.len_pos
  have hfits := t.fits
  rw [store, h.ptr]
  cases harea : t.area with
  | image =>
      rw [harea, Area.size] at hfits
      exact ⟨_, dif_pos (by omega), fun _ => rfl⟩
  | header =>
      rw [harea, Area.size] at hfits
      exact ⟨_, dif_pos (by omega), fun _ => rfl⟩

structure Moved (s : Fdc1793) (t : Transfer) : Prop where
  rwLen : s.rwLen = t.len
  ptr : s.ptr = t.area.ptr t.drive (t.offset + 1)
  mounted : (s.disks t.drive).mounted = true
  disk : s.disk = some s.drive
  busy : s.busy = true
  cmd : t.area = .header → command s.cmd = .readAddress

theorem carries_countDown (h : s.Moved t) :
    s.countDown.Carries t.next ∧ s.countDown.busy = t.next.isSome := by
  have hrwLen := h.rwLen
  by_cases hlast : t.len = 1
  · rw [Transfer.next_of_last hlast]
    have hzero : s.rwLen - 1 = 0 := by
      omega
    rw [countDown, if_neg (not_not.mpr hzero)]
    constructor
    · exact .quiet hzero
    · simp [busy_eq, fDrq, fBusy]
  · obtain ⟨t', hnext, harea, hdrive, hoffset, hlen⟩ := Transfer.next_of_more hlast
    have hmore : s.rwLen - 1 ≠ 0 := by
      omega
    rw [hnext, countDown, if_pos hmore]
    constructor
    · apply Carries.moving
      constructor
      · change s.rwLen - 1 = t'.len
        omega
      · change s.ptr = t'.area.ptr t'.drive t'.offset
        rw [h.ptr, harea, hdrive, hoffset]
      · rw [hdrive]
        exact h.mounted
      · exact h.disk
      · exact h.busy
      · rw [harea]
        exact h.cmd
    · exact h.busy

theorem wf_countDown (hs : s.Wf) : s.countDown.Wf := by
  rw [countDown]
  split
  · exact hs
  · exact hs

theorem ptr_add (h : s.Moving t) : s.ptr.add 1 = t.area.ptr t.drive (t.offset + 1) := by
  rw [h.ptr]
  cases t.area <;> rfl

theorem readData_moving (h : s.Moving t) (hs : s.Wf) :
    ∃ val s', s.readData = some (val, s') ∧ s'.Wf ∧ s'.Carries t.next ∧
      s'.busy = t.next.isSome := by
  obtain ⟨val, hload⟩ := load_isSome h
  have hpending := h.pending
  let s₁ := ({ s with regs := { s.regs with data := val }, ptr := s.ptr.add 1 } : Fdc1793).setDisk
    s.drive FDisk.countRead
  have hmoved : s₁.Moved t :=
    ⟨h.rwLen, ptr_add h, (mounted_setDisk rfl _).trans h.mounted, h.disk, h.busy, h.cmd⟩
  have hread : s.readData = some (val, s₁.countDown) := by
    simp [readData, hpending, hload, onDisk, h.disk, s₁]
  have hwf : s₁.Wf := by
    intro d hd
    rw [mounted_setDisk rfl]
    exact hs d hd
  exact ⟨val, s₁.countDown, hread, wf_countDown hwf, carries_countDown hmoved⟩

theorem writeData_moving (h : s.Moving t) (hs : s.Wf) (val : Byte) :
    ∃ s', s.writeData val = some s' ∧ s'.Wf ∧ s'.Carries t.next ∧ s'.busy = t.next.isSome := by
  obtain ⟨f, hstore, hf⟩ := store_isSome h val
  have hpending := h.pending
  let s₁ := ({ s.setDisk t.drive f with ptr := s.ptr.add 1 } : Fdc1793).setDisk s.drive
    FDisk.countWrite
  have hmounted : ∀ d, (s₁.disks d).mounted = (s.disks d).mounted := by
    intro d
    rw [mounted_setDisk rfl]
    exact mounted_setDisk (hf _) d
  have hmoved : s₁.Moved t :=
    ⟨h.rwLen, ptr_add h, (hmounted _).trans h.mounted, h.disk, h.busy, h.cmd⟩
  have hwrite : s.writeData val =
      some { s₁.countDown with regs := { s₁.countDown.regs with data := val } } := by
    simp [writeData, storeData, hpending, hstore, onDisk, setDisk, h.disk, s₁]
  have hkeeps : s₁.countDown.Keeps
      { s₁.countDown with regs := { s₁.countDown.regs with data := val } } :=
    ⟨rfl, rfl, rfl, rfl, rfl, rfl, fun _ => id⟩
  have hwf : s₁.Wf := fun d hd => ⟨(hs d hd).1, (hmounted d).trans (hs d hd).2⟩
  obtain ⟨hcarries, hbusy⟩ := carries_countDown hmoved
  exact ⟨_, hwrite, hkeeps.wf (wf_countDown hwf), hkeeps.carries hcarries, hbusy⟩

end Access

/-! ## Commands -/

section Commands

variable {s : Fdc1793}

theorem seek_of_none (h : s.disk = none) (sideId trackId sectorId : Nat) :
    s.seek sideId trackId sectorId = { s with ptr := .null } := by
  rw [seek, h]

theorem seek_of_mounted {d : Fin drivesMax} (h : s.disk = some d)
    (hmounted : (s.disks d).mounted = true) (sideId trackId sectorId : Nat) :
    s.seek sideId trackId sectorId =
      { s.setDisk d fun disk => disk.setHeader sideId trackId sectorId with
        ptr := .data d (position sideId trackId sectorId) } := by
  simp only [seek, h, getData, hmounted, if_true, DataPtr.add, Nat.zero_add]

theorem seek_of_disk (hs : s.Wf) {d : Fin drivesMax} (h : s.disk = some d)
    (sideId trackId sectorId : Nat) :
    s.seek sideId trackId sectorId =
      { s.setDisk d fun disk => disk.setHeader sideId trackId sectorId with
        ptr := .data d (position sideId trackId sectorId) } :=
  seek_of_mounted h (hs d h).2 sideId trackId sectorId

theorem seekFirst_of_disk (hs : s.Wf) {d : Fin drivesMax} (h : s.disk = some d) (n : Nat) :
    s.seekFirst (List.range (n + 1)) = s.seek s.side s.track.toNat 0 := by
  rw [List.range_succ_eq_map, seekFirst, seek_of_disk hs h, if_neg (by simp [DataPtr.null])]

def SectorsFit (s : Fdc1793) (val : Byte) : Prop :=
  s.transferLen val = 0 ∨ 0 < s.transferLen val ∧
    position (s.sideOf val) s.regs.track.toNat s.regs.sector.toNat + s.transferLen val ≤ fddSize

theorem carries_startTransfer (hs : s.Wf) {d : Fin drivesMax} (h : s.disk = some d) (val : Byte)
    (hfit : s.SectorsFit val) :
    ∃ t, ((s.seekSectors val).startTransfer (s.transferLen val)).Carries t ∧
      (t = none ↔ s.transferLen val = 0) := by
  have hdrive := (hs d h).1
  rw [seekSectors, seek_of_disk hs h]
  rcases hfit with hzero | ⟨hpos, hle⟩
  · exact ⟨none, .quiet hzero, iff_of_true rfl hzero⟩
  · let t : Transfer :=
      { area := .image
        drive := d
        offset := position (s.sideOf val) s.regs.track.toNat s.regs.sector.toNat
        len := (s.transferLen val).toNat
        len_pos := by omega
        fits := by
          rw [Area.size]
          omega }
    refine ⟨some t, .moving ?_, iff_of_false (Option.some_ne_none _) (ne_of_gt hpos)⟩
    constructor
    · exact (Int.toNat_of_nonneg hpos.le).symm
    · rfl
    · exact (mounted_setHeader s d d _ _ _).trans (hs d h).2
    · exact h.trans (congrArg some hdrive)
    · exact busy_startTransfer _ _
    · exact fun harea => nomatch (harea : Area.image = Area.header)

theorem wf_seek (hs : s.Wf) (sideId trackId sectorId : Nat) :
    (s.seek sideId trackId sectorId).Wf := by
  cases h : s.disk with
  | none =>
      rw [seek_of_none h]
      exact hs
  | some d =>
      rw [seek_of_disk hs h]
      intro k hk
      exact ⟨(hs k hk).1, (mounted_setHeader s d k _ _ _).trans (hs k hk).2⟩

theorem position_side_le {sideId trackId : Nat} (hside : sideId < fddSides)
    (htrack : trackId < fddTracksPerSide) :
    position sideId trackId 1 + trackLen ≤ fddSize := by
  change sideId < 2 at hside
  change trackId < 82 at htrack
  change (5 * (trackId * 2 + sideId) + 0) * 1024 + 5120 ≤ 839680
  omega

theorem formatSide_of_disk (hs : s.Wf) {d : Fin drivesMax} (h : s.disk = some d) {sideId : Nat}
    (hside : sideId < fddSides) (htrack : s.regs.track.toNat < fddTracksPerSide) :
    ∃ f : FDisk → FDisk, (∀ disk, (f disk).mounted = disk.mounted) ∧
      s.formatSide sideId = some { s.setDisk d f with
        ptr := .data d (position sideId s.regs.track.toNat 1) } := by
  have hfits := position_side_le hside htrack
  refine ⟨fun disk =>
    { disk.setHeader sideId s.regs.track.toNat 1 with
      data := fun i =>
        if position sideId s.regs.track.toNat 1 ≤ i.val ∧
            i.val < position sideId s.regs.track.toNat 1 + trackLen then 0xE5
        else disk.data i
      updated := true }, fun _ => rfl, ?_⟩
  rw [formatSide, seek_of_disk hs h]
  simp [DataPtr.null, fillTrack, hfits, onDisk, h, setDisk, FDisk.setUpdated, FDisk.setHeader]

theorem formatSide_of_none (h : s.disk = none) (sideId : Nat) :
    s.formatSide sideId = some { s with ptr := .null } := by
  rw [formatSide, seek_of_none h]
  exact if_pos rfl

theorem writeTrack_quiet (hs : s.Wf) (hfit : s.disk ≠ none →
    s.regs.track.toNat < fddTracksPerSide) :
    ∃ s', s.writeTrack = some s' ∧ s'.Wf ∧ s'.rwLen = s.rwLen ∧ s'.busy = s.busy := by
  cases h : s.disk with
  | none =>
      have hfirst := formatSide_of_none h 0
      have hsecond : ({ s with ptr := .null } : Fdc1793).formatSide 1 = some { s with ptr := .null } :=
        formatSide_of_none h 1
      exact ⟨{ s with ptr := .null }, by simp [writeTrack, hfirst, hsecond], hs, rfl, rfl⟩
  | some d =>
      have htrack := hfit (h ▸ Option.some_ne_none d)
      obtain ⟨f, hf, hfirst⟩ := formatSide_of_disk hs h (show 0 < fddSides by decide) htrack
      let s₁ : Fdc1793 :=
        { s.setDisk d f with ptr := .data d (position 0 s.regs.track.toNat 1) }
      have hs₁ : s₁.Wf := by
        intro k hk
        exact ⟨(hs k hk).1, (@mounted_setDisk s d f (hf _) k).trans (hs k hk).2⟩
      obtain ⟨g, hg, hsecond⟩ :=
        @formatSide_of_disk s₁ hs₁ d h 1 (by decide) htrack
      have hformat : s.writeTrack = s₁.formatSide 1 := by
        rw [writeTrack, hfirst]
        rfl
      refine ⟨_, hformat.trans hsecond, ?_, rfl, rfl⟩
      intro k hk
      exact ⟨(hs₁ k hk).1, (@mounted_setDisk s₁ d g (hg _) k).trans (hs₁ k hk).2⟩

/-- The sectors and the track that a command asks for lie in the image. -/
def CommandFits (s : Fdc1793) (val : Byte) : Prop :=
  s.disk ≠ none →
    match command val with
    | .readSectors | .writeSectors => s.SectorsFit val
    | .writeTrack => s.regs.track.toNat < fddTracksPerSide
    | _ => True

def CommandMoves (s : Fdc1793) (val : Byte) : Prop :=
  s.disk ≠ none →
    match command val with
    | .readSectors | .writeSectors => s.transferLen val ≠ 0
    | _ => True

theorem carries_sectorNotFound (hzero : s.rwLen = 0) (hbusy : s.busy = false) :
    s.sectorNotFound.Carries none ∧ s.sectorNotFound.busy = false := by
  refine ⟨.quiet hzero, ?_⟩
  rw [busy_eq] at hbusy
  rw [busy_eq, sectorNotFound, BitVec.getLsbD_or, BitVec.getLsbD_and, hbusy]
  decide

theorem track0_bit (s : Fdc1793) : s.track0.getLsbD 0 = false := by
  rw [track0]
  split <;> decide

theorem headLoad_bit (val : Byte) : (headLoad val).getLsbD 0 = false := by
  rw [headLoad]
  split <;> decide

theorem seekSectors_carries (hs : s.Wf) (hzero : s.rwLen = 0) (hbusy : s.busy = false) {val : Byte}
    (hfit : s.disk ≠ none → s.SectorsFit val) :
    ∃ t, (s.readSectors val).Wf ∧ (s.readSectors val).Carries t ∧
      ((s.disk ≠ none → s.transferLen val ≠ 0) → (s.readSectors val).busy = t.isSome) := by
  cases h : s.disk with
  | none =>
      have hread : s.readSectors val = ({ s with ptr := .null } : Fdc1793).sectorNotFound := by
        rw [readSectors, seekSectors, seek_of_none h]
        exact if_pos rfl
      obtain ⟨hcarries, hidle⟩ := @carries_sectorNotFound { s with ptr := .null } hzero hbusy
      rw [hread]
      exact ⟨none, hs, hcarries, fun _ => hidle⟩
  | some d =>
      have hdisk : s.disk ≠ none := h ▸ Option.some_ne_none d
      obtain ⟨t, hcarries, hnone⟩ := carries_startTransfer hs h val (hfit hdisk)
      have hread : s.readSectors val = (s.seekSectors val).startTransfer (s.transferLen val) := by
        have hlen : (s.seekSectors val).transferLen val = s.transferLen val := by
          rw [seekSectors, seek_of_disk hs h]
          rfl
        rw [← hlen, readSectors, if_neg]
        rw [seekSectors, seek_of_disk hs h]
        exact fun hnull => nomatch (hnull : DataPtr.data d _ = .abs 0)
      rw [hread]
      refine ⟨t, wf_seek hs _ _ _, hcarries, ?_⟩
      intro hmoves
      rw [busy_startTransfer]
      cases t with
      | none => exact absurd (hnone.mp rfl) (hmoves (Option.some_ne_none d))
      | some t => rfl

theorem readAddress_of_none (h : s.disk = none) :
    s.readAddress = some ({ s with ptr := .null } : Fdc1793).addressNotFound := by
  rw [readAddress, h]
  rfl

theorem readAddress_of_disk (hs : s.Wf) {d : Fin drivesMax} (h : s.disk = some d) :
    s.readAddress =
      some (({ s.setDisk d fun disk => disk.setHeader s.side s.track.toNat 0 with
        ptr := .header d 0 } : Fdc1793).startTransfer 6) := by
  have hptr : ∀ n, DataPtr.data d n ≠ .null := fun n hnull => nomatch hnull
  rw [readAddress, h, Option.isNone_some, if_neg Bool.false_ne_true, seekFirst_of_disk hs h,
    seek_of_disk hs h, if_neg (hptr _)]
  simp only [setDisk, h, Option.map_some]

theorem readAddress_carries (hs : s.Wf) (hzero : s.rwLen = 0) (hbusy : s.busy = false)
    (hcmd : command s.cmd = .readAddress) :
    ∃ s' t', s.readAddress = some s' ∧ s'.Wf ∧ s'.Carries t' ∧ s'.busy = t'.isSome := by
  cases h : s.disk with
  | none =>
      refine ⟨_, none, readAddress_of_none h, hs, .quiet hzero, ?_⟩
      rw [busy_eq] at hbusy
      rw [busy_eq, addressNotFound, BitVec.getLsbD_or, hbusy]
      decide
  | some d =>
      have hdrive := (hs d h).1
      let t : Transfer :=
        { area := .header
          drive := d
          offset := 0
          len := 6
          len_pos := by decide
          fits := by decide }
      refine ⟨_, some t, readAddress_of_disk hs h, ?_, .moving ?_, busy_startTransfer _ _⟩
      · intro k hk
        exact ⟨(hs k hk).1, (mounted_setHeader s d k _ _ _).trans (hs k hk).2⟩
      · constructor
        · rfl
        · rfl
        · exact (mounted_setHeader s d d _ _ _).trans (hs d h).2
        · exact h.trans (congrArg some hdrive)
        · exact busy_startTransfer _ _
        · exact fun _ => hcmd

theorem writeSectors_of_none (h : s.disk = none) (val : Byte) :
    s.writeSectors val = some (s.readSectors val) := by
  rw [writeSectors, readSectors, seekSectors, seek_of_none h]
  rfl

theorem writeSectors_of_disk (hs : s.Wf) {d : Fin drivesMax} (h : s.disk = some d) (val : Byte) :
    s.writeSectors val = some ((s.readSectors val).setDisk d FDisk.setUpdated) := by
  have hptr : ∀ n, DataPtr.data d n ≠ .null := fun n hnull => nomatch hnull
  rw [writeSectors, readSectors, seekSectors, seek_of_disk hs h, if_neg (hptr _), if_neg (hptr _),
    onDisk, startTransfer]
  simp only [setDisk, h, Option.map_some]

theorem execCommand_carries (hs : s.Wf) (hzero : s.rwLen = 0) (hbusy : s.busy = false) {val : Byte}
    (hcmd : s.cmd = val) (hfit : s.CommandFits val) :
    ∃ s' t', s.execCommand val = some s' ∧ s'.Wf ∧ s'.Carries t' ∧
      (s.CommandMoves val → s'.busy = t'.isSome) := by
  unfold CommandFits at hfit
  unfold CommandMoves execCommand
  cases hcommand : command val with
  | restore =>
      refine ⟨_, none, rfl, hs, .quiet hzero, fun _ => ?_⟩
      rw [busy_eq, restore, BitVec.getLsbD_or, headLoad_bit]
      decide
  | seekTrack =>
      refine ⟨_, none, rfl, hs, .quiet rfl, fun _ => ?_⟩
      rw [busy_eq, seekTrack, BitVec.getLsbD_or, BitVec.getLsbD_or, headLoad_bit, track0_bit]
      decide
  | stepHead =>
      refine ⟨_, none, rfl, hs, .quiet hzero, fun _ => ?_⟩
      rw [busy_eq, stepHead, BitVec.getLsbD_or, track0_bit]
      decide
  | readTrack => exact ⟨s, none, rfl, hs, .quiet hzero, fun _ => hbusy⟩
  | forceIrq => exact ⟨_, none, rfl, hs, .quiet rfl, fun _ => busy_forceIrq s val⟩
  | writeTrack =>
      rw [hcommand] at hfit
      obtain ⟨s', hexec, hwf, hlen, hsame⟩ := writeTrack_quiet hs hfit
      exact ⟨s', none, hexec, hwf, .quiet (hlen.trans hzero), fun _ => hsame.trans hbusy⟩
  | readSectors =>
      rw [hcommand] at hfit
      obtain ⟨t, hwf, hcarries, hmoves⟩ := seekSectors_carries hs hzero hbusy hfit
      exact ⟨_, t, rfl, hwf, hcarries, hmoves⟩
  | writeSectors =>
      rw [hcommand] at hfit
      obtain ⟨t, hwf, hcarries, hmoves⟩ := seekSectors_carries hs hzero hbusy hfit
      cases h : s.disk with
      | none => exact ⟨_, t, writeSectors_of_none h val, hwf, hcarries, h ▸ hmoves⟩
      | some d =>
          have hkeeps : (s.readSectors val).Keeps ((s.readSectors val).setDisk d FDisk.setUpdated) :=
            ⟨rfl, rfl, rfl, rfl, rfl, rfl, fun _ hm => (mounted_setDisk rfl _).trans hm⟩
          exact ⟨_, t, writeSectors_of_disk hs h val, hkeeps.wf hwf, hkeeps.carries hcarries,
            h ▸ hmoves⟩
  | readAddress =>
      obtain ⟨s', t', hexec, hwf, hcarries, hsame⟩ :=
        readAddress_carries hs hzero hbusy (hcmd ▸ hcommand)
      exact ⟨s', t', hexec, hwf, hcarries, fun _ => hsame⟩

end Commands

/-! ## Every call -/

/--
A command asks for bytes of the image.  During a transfer only drives with a disk
are selected, and its disk is not taken out while another drive is selected.
-/
def Admits (s : Fdc1793) : FdcOp → Prop
  | .write .command val => s.busy = false → s.CommandFits val
  | .write .system val => s.rwLen ≠ 0 → (s.disks (selectedDrive val)).mounted = true
  | .dismount driveIdx => driveIdx ≠ s.drive → s.rwLen ≠ 0 → s.ptr.drive ≠ some driveIdx
  | _ => True

/-- No command transfers nothing, and no disk is taken out during its transfer. -/
def Finishes (s : Fdc1793) : FdcOp → Prop
  | .write .command val => s.busy = false → s.CommandMoves val
  | .dismount driveIdx => driveIdx = s.drive → s.busy = false
  | _ => True

section Step

variable {s : Fdc1793} {t : Option Transfer}

structure Continues (s : Fdc1793) (t : Option Transfer) (op : FdcOp) (s' : Fdc1793)
    (t' : Option Transfer) : Prop where
  step : s.step op = some s'
  wf : s'.Wf
  carries : s'.Carries t'
  busy : s.Finishes op → s.busy = t.isSome → s'.busy = t'.isSome

theorem Keeps.continues {s' : Fdc1793} (h : s.Keeps s') (hs : s.Wf) (ht : s.Carries t) {op : FdcOp}
    (hstep : s.step op = some s') : s.Continues t op s' t :=
  ⟨hstep, h.wf hs, h.carries ht, fun _ hbusy => h.busy.trans hbusy⟩

theorem keeps_refl : s.Keeps s := ⟨rfl, rfl, rfl, rfl, rfl, rfl, fun _ => id⟩

theorem continues_read (hs : s.Wf) (ht : s.Carries t) (port : FdcPort) :
    ∃ s' t', s.Continues t (.read port) s' t' := by
  cases port with
  | command =>
      have hkeeps : s.Keeps s.readStatus.2 := ⟨rfl, rfl, rfl, rfl, busy_readStatus s, rfl, fun _ => id⟩
      exact ⟨_, t, hkeeps.continues hs ht rfl⟩
  | track => exact ⟨s, t, keeps_refl.continues hs ht rfl⟩
  | sector => exact ⟨s, t, keeps_refl.continues hs ht rfl⟩
  | bad => exact ⟨s, t, keeps_refl.continues hs ht rfl⟩
  | data =>
      cases ht with
      | quiet hzero =>
          have hread : s.readData = some (s.regs.data, s) := if_pos hzero
          refine ⟨s, none, keeps_refl.continues hs (.quiet hzero) ?_⟩
          rw [step, read, hread]
          rfl
      | moving hmoving =>
          obtain ⟨val, s', hread, hwf, hcarries, hbusy⟩ := readData_moving hmoving hs
          refine ⟨s', _, ?_, hwf, hcarries, fun _ _ => hbusy⟩
          rw [step, read, hread]
          rfl
  | system =>
      by_cases hzero : s.wait = 0
      · have hsame : s.readReady.2 = s := by
          rw [readReady, if_pos hzero]
        exact ⟨s, t, keeps_refl.continues hs ht (congrArg some hsame)⟩
      · by_cases hlast : s.wait - 1 = 0
        · obtain ⟨hbusy, hlen⟩ := not_busy_readReady s hlast hzero
          refine ⟨s.readReady.2, none, rfl, ?_, .quiet hlen, fun _ _ => hbusy⟩
          rw [readReady, if_neg hzero, if_pos hlast]
          exact hs
        · have hkeeps : s.Keeps s.readReady.2 := by
            rw [readReady, if_neg hzero, if_neg hlast]
            exact ⟨rfl, rfl, rfl, rfl, rfl, rfl, fun _ => id⟩
          exact ⟨_, t, hkeeps.continues hs ht rfl⟩

theorem continues_command (hs : s.Wf) (ht : s.Carries t) {val : Byte}
    (hop : s.Admits (.write .command val)) :
    ∃ s' t', s.Continues t (.write .command val) s' t' := by
  by_cases hforce : command val = .forceIrq
  · have hwrite : s.writeCommand val = some (({ s with irq := 0 } : Fdc1793).forceIrq val) :=
      if_pos hforce
    refine ⟨({ s with irq := 0 } : Fdc1793).forceIrq val, none, ?_, hs, .quiet rfl,
      fun _ _ => busy_forceIrq _ val⟩
    rw [step, write, writePort, hwrite]
    rfl
  · cases hbusy : s.busy with
    | true =>
        have hwrite : s.writeCommand val = some { s with irq := 0 } := by
          rw [writeCommand, if_neg hforce, hbusy]
          rfl
        have hkeeps : s.Keeps { s with irq := 0 } := ⟨rfl, rfl, rfl, rfl, rfl, rfl, fun _ => id⟩
        refine ⟨_, t, hkeeps.continues hs ht ?_⟩
        rw [step, write, writePort, hwrite]
        rfl
    | false =>
        have hwrite : s.writeCommand val = (s.latch val).execCommand val := by
          rw [writeCommand, if_neg hforce, hbusy]
          exact if_neg Bool.false_ne_true
        have hzero : s.rwLen = 0 := by
          cases ht with
          | quiet hzero => exact hzero
          | moving hmoving => exact absurd (hbusy.symm.trans hmoving.busy) Bool.false_ne_true
        obtain ⟨s', t', hexec, hwf, hcarries, hmoves⟩ :=
          @execCommand_carries (s.latch val) hs hzero (busy_latch s val) val rfl (hop hbusy)
        refine ⟨s', t', ?_, hwf, hcarries, fun hfinish _ => hmoves (hfinish hbusy)⟩
        rw [step, write, writePort, hwrite, hexec]
        rfl

theorem continues_system (ht : s.Carries t) {val : Byte}
    (hop : s.Admits (.write .system val)) :
    ∃ s' t', s.Continues t (.write .system val) s' t' := by
  have hwf : (s.writeSystem val).Wf := by
    intro d hd
    change s.getDisk (selectedDrive val) = some d at hd
    rw [getDisk] at hd
    split at hd
    · rename_i hmounted
      have heq : selectedDrive val = d := Option.some_inj.mp hd
      exact ⟨heq.symm, heq ▸ hmounted⟩
    · exact absurd hd.symm (Option.some_ne_none d)
  cases ht with
  | quiet hzero => exact ⟨s.writeSystem val, none, rfl, hwf, .quiet hzero, fun _ hbusy => hbusy⟩
  | @moving t hmoving =>
      have hmounted := hop hmoving.pending
      refine ⟨s.writeSystem val, some t, rfl, hwf, .moving ?_, fun _ hbusy => hbusy⟩
      constructor
      · exact hmoving.rwLen
      · exact hmoving.ptr
      · exact hmoving.mounted
      · change s.getDisk (selectedDrive val) = some (selectedDrive val)
        rw [getDisk, hmounted]
        rfl
      · exact hmoving.busy
      · exact hmoving.cmd

theorem continues_mount (hs : s.Wf) (ht : s.Carries t) (driveIdx : Nat) (data : FddImage) :
    ∃ s' t', s.Continues t (.mount driveIdx data) s' t' := by
  let s₁ := s.setDisk (Fin.ofNat drivesMax driveIdx) fun d => d.mount data
  have hkeeps : s.Keeps s₁ := by
    refine ⟨rfl, rfl, rfl, rfl, rfl, rfl, ?_⟩
    intro d hmounted
    change (Function.update s.disks _ _ d).mounted = true
    by_cases hd : d = Fin.ofNat drivesMax driveIdx
    · rw [hd, Function.update_self]
      rfl
    · rw [Function.update_of_ne hd]
      exact hmounted
  by_cases hdrive : driveIdx = s.drive
  · have hmount : s.mount driveIdx data = s₁.reset := if_pos hdrive
    refine ⟨s₁.reset, none, congrArg some hmount, hkeeps.wf hs, .quiet rfl, fun _ _ => ?_⟩
    simp [busy_eq, reset]
  · have hmount : s.mount driveIdx data = s₁ := if_neg hdrive
    exact ⟨s₁, t, hkeeps.continues hs ht (congrArg some hmount)⟩

theorem continues_dismount (hs : s.Wf) (ht : s.Carries t) {driveIdx : Fin drivesMax}
    (hop : s.Admits (.dismount driveIdx)) :
    ∃ s' t', s.Continues t (.dismount driveIdx) s' t' := by
  by_cases hdrive : driveIdx = s.drive
  · have hdismount : s.dismount driveIdx =
        { s.setDisk driveIdx FDisk.dismount with disk := none, ptr := .null, rwLen := 0 } :=
      if_pos hdrive
    refine ⟨_, none, congrArg some hdismount, ?_, .quiet rfl, fun hfinish _ => hfinish hdrive⟩
    exact fun d hd => absurd hd.symm (Option.some_ne_none d)
  · have hdismount : s.dismount driveIdx = s.setDisk driveIdx FDisk.dismount := if_neg hdrive
    have hother : ∀ d, d ≠ driveIdx → ((s.setDisk driveIdx FDisk.dismount).disks d) = s.disks d :=
      fun d hd => Function.update_of_ne hd _ _
    have hwf : (s.setDisk driveIdx FDisk.dismount).Wf := by
      intro d hd
      obtain ⟨heq, hmounted⟩ := hs d hd
      refine ⟨heq, ?_⟩
      rw [hother d (heq ▸ Ne.symm hdrive)]
      exact hmounted
    refine ⟨_, t, congrArg some hdismount, hwf, ?_, fun _ hbusy => hbusy⟩
    cases ht with
    | quiet hzero => exact .quiet hzero
    | @moving t hmoving =>
        have hkept : t.drive ≠ driveIdx := by
          intro heq
          apply hop hdrive hmoving.pending
          rw [hmoving.ptr, heq]
          exact t.area.drive_ptr _ _
        refine .moving ⟨hmoving.rwLen, hmoving.ptr, ?_, hmoving.disk, hmoving.busy, hmoving.cmd⟩
        rw [hother _ hkept]
        exact hmoving.mounted

theorem continues (hs : s.Wf) (ht : s.Carries t) {op : FdcOp} (hop : s.Admits op) :
    ∃ s' t', s.Continues t op s' t' := by
  cases op with
  | read port => exact continues_read hs ht port
  | mount driveIdx data => exact continues_mount hs ht driveIdx data
  | dismount driveIdx => exact continues_dismount hs ht hop
  | resetUpdate driveIdx =>
      have hkeeps : s.Keeps (s.resetUpdate driveIdx) :=
        ⟨rfl, rfl, rfl, rfl, rfl, rfl, fun _ hm => (mounted_setDisk rfl _).trans hm⟩
      exact ⟨_, t, hkeeps.continues hs ht rfl⟩
  | write port val =>
      cases port with
      | command => exact continues_command hs ht hop
      | system => exact continues_system ht hop
      | bad => exact ⟨s, t, keeps_refl.continues hs ht rfl⟩
      | track =>
          refine ⟨_, t, Keeps.continues ?_ hs ht rfl⟩
          split
          · exact keeps_refl
          · exact ⟨rfl, rfl, rfl, rfl, rfl, rfl, fun _ => id⟩
      | sector =>
          refine ⟨_, t, Keeps.continues ?_ hs ht rfl⟩
          split
          · exact keeps_refl
          · exact ⟨rfl, rfl, rfl, rfl, rfl, rfl, fun _ => id⟩
      | data =>
          cases ht with
          | quiet hzero =>
              have hwrite : s.writeData val = some { s with regs := { s.regs with data := val } } := by
                rw [writeData, storeData, if_pos hzero]
                rfl
              have hkeeps : s.Keeps { s with regs := { s.regs with data := val } } :=
                ⟨rfl, rfl, rfl, rfl, rfl, rfl, fun _ => id⟩
              refine ⟨_, none, hkeeps.continues hs (.quiet hzero) ?_⟩
              rw [step, write, writePort, hwrite]
              rfl
          | moving hmoving =>
              obtain ⟨s', hwrite, hwf, hcarries, hbusy⟩ := writeData_moving hmoving hs val
              refine ⟨s', _, ?_, hwf, hcarries, fun _ _ => hbusy⟩
              rw [step, write, writePort, hwrite]
              rfl

end Step

end Fdc1793

end V6Emul
