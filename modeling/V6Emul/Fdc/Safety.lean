import V6Emul.Fdc.Transfer

/-!
# Accesses and the busy bit

Along runs whose calls are admitted, every access through the data pointer lies
in the image of a mounted disk, or in its header during `READ-ADDRESS`.  If
besides no command transfers nothing and no disk is taken out during its
transfer, the busy bit says whether a transfer is pending.
-/

namespace V6Emul

namespace Fdc1793

/-! ## Accesses through the data pointer -/

/-- The bytes that a call reads or writes through `m_ptr`. -/
def accesses (s : Fdc1793) : FdcOp → List DataPtr
  | .read .data => if s.rwLen = 0 then [] else [s.ptr]
  | .write .data _ => if s.rwLen = 0 then [] else [s.ptr]
  | .write .command val =>
      if s.busy = false ∧ command val = .writeTrack ∧ s.disk ≠ none then
        [0, 1].flatMap fun sideId => (List.range trackLen).map
          (s.seek sideId s.regs.track.toNat 1).ptr.add
      else []
  | _ => []

def Inside (s : Fdc1793) : DataPtr → Prop
  | .abs _ => False
  | .data d offset => (s.disks d).mounted = true ∧ offset < fddSize
  | .header d offset =>
      (s.disks d).mounted = true ∧ offset < 6 ∧ command s.cmd = .readAddress

theorem inside_of_moving {s : Fdc1793} {t : Transfer} (h : s.Moving t) : s.Inside s.ptr := by
  have hlen := t.len_pos
  have hfits := t.fits
  have hcmd := h.cmd
  rw [h.ptr]
  cases harea : t.area with
  | image =>
      rw [harea, Area.size] at hfits
      exact ⟨h.mounted, by omega⟩
  | header =>
      rw [harea, Area.size] at hfits
      exact ⟨h.mounted, by omega, hcmd harea⟩

theorem inside_of_carries {s : Fdc1793} {t : Option Transfer} (h : s.Carries t) :
    ∀ p ∈ (if s.rwLen = 0 then [] else [s.ptr]), s.Inside p := by
  intro p hp
  cases h with
  | quiet hzero =>
      rw [if_pos hzero] at hp
      exact absurd hp List.not_mem_nil
  | moving hmoving =>
      rw [if_neg hmoving.pending, List.mem_singleton] at hp
      exact hp ▸ inside_of_moving hmoving

theorem inside_writeTrack {s : Fdc1793} (hs : s.Wf) {d : Fin drivesMax} (h : s.disk = some d)
    (htrack : s.regs.track.toNat < fddTracksPerSide) {sideId : Nat} (hside : sideId < fddSides)
    {i : Nat} (hi : i < trackLen) : s.Inside ((s.seek sideId s.regs.track.toNat 1).ptr.add i) := by
  have hle := position_side_le hside htrack
  rw [seek_of_disk hs h]
  exact ⟨(hs d h).2, by omega⟩

theorem inside_of_accesses {s : Fdc1793} (hs : s.Wf) {t : Option Transfer} (ht : s.Carries t)
    {op : FdcOp} (hop : s.Admits op) : ∀ p ∈ s.accesses op, s.Inside p := by
  intro p hp
  cases op with
  | mount driveIdx data => exact absurd hp List.not_mem_nil
  | dismount driveIdx => exact absurd hp List.not_mem_nil
  | resetUpdate driveIdx => exact absurd hp List.not_mem_nil
  | read port =>
      cases port with
      | data => exact inside_of_carries ht p hp
      | command | track | sector | system | bad => exact absurd hp List.not_mem_nil
  | write port val =>
      cases port with
      | data => exact inside_of_carries ht p hp
      | track | sector | system | bad => exact absurd hp List.not_mem_nil
      | command =>
          rw [accesses] at hp
          split at hp
          · rename_i hformat
            obtain ⟨hbusy, hcommand, hdisk⟩ := hformat
            have htrack := hop hbusy hdisk
            rw [hcommand] at htrack
            obtain ⟨d, hd⟩ := Option.ne_none_iff_exists'.mp hdisk
            obtain ⟨sideId, hside, hp⟩ := List.mem_flatMap.mp hp
            obtain ⟨i, hi, rfl⟩ := List.mem_map.mp hp
            apply inside_writeTrack hs hd htrack _ (List.mem_range.mp hi)
            simp only [List.mem_cons, List.not_mem_nil, or_false] at hside
            change sideId < 2
            omega
          · exact absurd hp List.not_mem_nil

/-! ## Admitted runs -/

/-- Calls that are admitted, in any order, from a freshly constructed controller on. -/
def Reachable : Fdc1793 → Prop :=
  Runs.Reachable (fun s => s = new) fun s s' => ∃ op, s.Admits op ∧ s.step op = some s'

theorem wf_new : new.Wf := fun d hd => absurd hd.symm (Option.some_ne_none d)

theorem Reachable.carries {s : Fdc1793} (h : s.Reachable) : s.Wf ∧ ∃ t, s.Carries t := by
  refine @Runs.Reachable.invariant _ _ _ (fun s => s.Wf ∧ ∃ t, s.Carries t) ?_ ?_ s h
  · rintro s rfl
    exact ⟨wf_new, none, .quiet rfl⟩
  · rintro s s' ⟨hs, t, ht⟩ ⟨op, hop, hstep⟩
    obtain ⟨next, t', hcontinues⟩ := continues hs ht hop
    have hnext : next = s' := Option.some_inj.mp (hcontinues.step.symm.trans hstep)
    exact hnext ▸ ⟨hcontinues.wf, t', hcontinues.carries⟩

/-- An admitted call is defined, and accesses the images and headers of mounted disks only. -/
theorem Reachable.accesses_inside {s : Fdc1793} (h : s.Reachable) {op : FdcOp}
    (hop : s.Admits op) : (∃ s', s.step op = some s') ∧ ∀ p ∈ s.accesses op, s.Inside p := by
  obtain ⟨hs, t, ht⟩ := h.carries
  obtain ⟨s', t', hcontinues⟩ := continues hs ht hop
  exact ⟨⟨s', hcontinues.step⟩, inside_of_accesses hs ht hop⟩

def selectedFirst : Fdc1793 := (new.mount 0 fun _ => 0).writeSystem 4

def readingFirst : Fdc1793 :=
  ({ selectedFirst with
    regs := { selectedFirst.regs with sector := 1 } }.latch 0x80).readSectors 0x80

theorem reachable_readingFirst : readingFirst.Reachable := by
  have hmount : Reachable (new.mount 0 fun _ => 0) :=
    .step (.start rfl) ⟨.mount 0 fun _ => 0, trivial, rfl⟩
  have hselect : Reachable selectedFirst :=
    hmount.step ⟨.write .system 4, fun hpending => absurd rfl hpending, rfl⟩
  have hsector : Reachable _ := hselect.step ⟨.write .sector 1, trivial, rfl⟩
  exact hsector.step ⟨.write .command 0x80, fun _ _ => .inr (by decide), rfl⟩

theorem accesses_inside_readingFirst :
    (∃ s', readingFirst.step (.read .data) = some s') ∧
      ∀ p ∈ readingFirst.accesses (.read .data), readingFirst.Inside p :=
  reachable_readingFirst.accesses_inside trivial

/-- Sector 6 of the last track lies behind the image. -/
theorem readSectors_leaves_image :
    ∃ s, Runs.exec step new [.mount 0 fun _ => 0, .write .system 4, .write .track 81,
        .write .sector 6, .write .command 0x8A] = some s ∧
      s.step (.read .data) = none :=
  ⟨_, rfl, by decide⟩

/-! ## The busy bit -/

inductive DataAccess where
  | read
  | write (val : Byte)

def DataAccess.op : DataAccess → FdcOp
  | .read => .read .data
  | .write val => .write .data val

def PtrMounted (s : Fdc1793) : Prop :=
  ∃ d, s.ptr.drive = some d ∧ (s.disks d).mounted = true

/-- The busy bit stands for a pending transfer, which so many accesses finish. -/
structure BusyConsistent (s : Fdc1793) : Prop where
  busy_iff : s.busy = true ↔ 0 < s.rwLen ∧ s.PtrMounted
  finishes : s.busy = true → ∀ accs : List DataAccess, accs.length ≤ s.rwLen →
    ∃ s', Runs.exec step s (accs.map DataAccess.op) = some s' ∧
      (s'.busy = true ↔ accs.length < s.rwLen)
  accepts : s.busy = false → ∀ val s', s.writeCommand val = some s' →
    s'.cmd = if command val = .forceIrq then 0xD0 else val

def remaining : Option Transfer → Nat
  | none => 0
  | some t => t.len

theorem remaining_next (t : Transfer) : remaining t.next + 1 = t.len := by
  by_cases hlast : t.len = 1
  · rw [Transfer.next_of_last hlast, remaining, hlast]
  · obtain ⟨t', hnext, -, -, -, hlen⟩ := Transfer.next_of_more hlast
    rw [hnext]
    exact hlen

theorem step_dataAccess {s : Fdc1793} {t : Transfer} (hs : s.Wf) (h : s.Moving t)
    (acc : DataAccess) :
    ∃ s', s.step acc.op = some s' ∧ s'.Wf ∧ s'.Carries t.next ∧ s'.busy = t.next.isSome := by
  cases acc with
  | read =>
      obtain ⟨val, s', hread, hspec⟩ := readData_moving h hs
      refine ⟨s', ?_, hspec⟩
      rw [DataAccess.op, step, read, hread]
      rfl
  | write val =>
      obtain ⟨s', hwrite, hspec⟩ := writeData_moving h hs val
      refine ⟨s', ?_, hspec⟩
      rw [DataAccess.op, step, write, writePort, hwrite]
      rfl

theorem exec_dataAccess {s : Fdc1793} {t : Option Transfer} (hs : s.Wf) (ht : s.Carries t)
    (hbusy : s.busy = t.isSome) (accs : List DataAccess) (hlen : accs.length ≤ remaining t) :
    ∃ s' t', Runs.exec step s (accs.map DataAccess.op) = some s' ∧ s'.busy = t'.isSome ∧
      remaining t' + accs.length = remaining t := by
  induction accs generalizing s t with
  | nil => exact ⟨s, t, rfl, hbusy, rfl⟩
  | cons acc accs ih =>
      cases ht with
      | quiet hzero => exact absurd hlen (Nat.not_succ_le_zero _)
      | @moving t hmoving =>
          obtain ⟨s₁, hstep, hwf, hcarries, hbusy₁⟩ := step_dataAccess hs hmoving acc
          have hnext := remaining_next t
          rw [remaining, List.length_cons] at hlen
          obtain ⟨s', t', hexec, hbusy', hleft⟩ := ih hwf hcarries hbusy₁ (by omega)
          refine ⟨s', t', ?_, hbusy', ?_⟩
          · rw [List.map_cons, Runs.exec, hstep]
            exact hexec
          · rw [remaining, List.length_cons]
            omega

/-! ### The latched command -/

theorem cmd_seek (s : Fdc1793) (sideId trackId sectorId : Nat) :
    (s.seek sideId trackId sectorId).cmd = s.cmd := by
  rw [seek]
  split
  · rfl
  · rfl

theorem cmd_onDisk {s s' : Fdc1793} {f : FDisk → FDisk} (h : s.onDisk f = some s') :
    s'.cmd = s.cmd := by
  obtain ⟨d, -, rfl⟩ := Option.map_eq_some_iff.mp h
  rfl

theorem cmd_formatSide {s s' : Fdc1793} {sideId : Nat} (h : s.formatSide sideId = some s') :
    s'.cmd = s.cmd := by
  have hseek := cmd_seek s sideId s.regs.track.toNat 1
  rw [formatSide] at h
  split at h
  · exact Option.some_inj.mp h ▸ hseek
  · obtain ⟨s₁, hfill, hupdate⟩ := Option.bind_eq_some_iff.mp h
    have hcmd : s₁.cmd = (s.seek sideId s.regs.track.toNat 1).cmd := by
      rw [fillTrack] at hfill
      split at hfill
      · split at hfill
        · exact Option.some_inj.mp hfill ▸ rfl
        · exact absurd hfill.symm (Option.some_ne_none _)
      · exact absurd hfill.symm (Option.some_ne_none _)
    exact (cmd_onDisk hupdate).trans (hcmd.trans hseek)

theorem cmd_seekFirst (s : Fdc1793) (sectorIds : List Nat) : (s.seekFirst sectorIds).cmd = s.cmd := by
  induction sectorIds generalizing s with
  | nil => rfl
  | cons sectorId rest ih =>
      rw [seekFirst]
      split
      · rw [ih, cmd_seek]
      · exact cmd_seek _ _ _ _

theorem cmd_execCommand {s s' : Fdc1793} {val : Byte} (hforce : command val ≠ .forceIrq)
    (h : s.execCommand val = some s') : s'.cmd = s.cmd := by
  have hseek := cmd_seek s (s.sideOf val) s.regs.track.toNat s.regs.sector.toNat
  rw [execCommand] at h
  cases hcommand : command val with
  | forceIrq => exact absurd hcommand hforce
  | restore | seekTrack | stepHead | readTrack =>
      rw [hcommand] at h
      exact Option.some_inj.mp h ▸ rfl
  | readSectors =>
      rw [hcommand] at h
      rw [← Option.some_inj.mp h, readSectors]
      split
      · exact hseek
      · exact hseek
  | writeSectors =>
      simp only [hcommand, writeSectors] at h
      split at h
      · exact Option.some_inj.mp h ▸ hseek
      · exact (cmd_onDisk h).trans hseek
  | readAddress =>
      simp only [hcommand, readAddress] at h
      have hcmd : (if s.disk.isNone then { s with ptr := .null }
          else s.seekFirst (List.range 256)).cmd = s.cmd := by
        split
        · rfl
        · exact cmd_seekFirst s _
      generalize (if s.disk.isNone then { s with ptr := .null }
        else s.seekFirst (List.range 256)) = found at h hcmd
      split at h
      · exact Option.some_inj.mp h ▸ hcmd
      · obtain ⟨d, -, rfl⟩ := Option.map_eq_some_iff.mp h
        exact hcmd
  | writeTrack =>
      simp only [hcommand] at h
      obtain ⟨s₁, hfirst, hsecond⟩ := Option.bind_eq_some_iff.mp h
      exact (cmd_formatSide hsecond).trans (cmd_formatSide hfirst)

theorem cmd_writeCommand {s s' : Fdc1793} {val : Byte} (hbusy : s.busy = false)
    (h : s.writeCommand val = some s') :
    s'.cmd = if command val = .forceIrq then 0xD0 else val := by
  rw [writeCommand] at h
  by_cases hforce : command val = .forceIrq
  · rw [if_pos hforce] at h ⊢
    exact Option.some_inj.mp h ▸ rfl
  · rw [if_neg hforce, hbusy, if_neg Bool.false_ne_true] at h
    rw [if_neg hforce]
    exact cmd_execCommand hforce h

/-! ### Runs that finish their transfers -/

/-- Admitted calls that leave no transfer unfinished, in any order. -/
def Orderly : Fdc1793 → Prop :=
  Runs.Reachable (fun s => s = new) fun s s' =>
    ∃ op, (s.Admits op ∧ s.Finishes op) ∧ s.step op = some s'

theorem Orderly.carries {s : Fdc1793} (h : s.Orderly) :
    s.Wf ∧ ∃ t, s.Carries t ∧ s.busy = t.isSome := by
  refine @Runs.Reachable.invariant _ _ _
    (fun s => s.Wf ∧ ∃ t, s.Carries t ∧ s.busy = t.isSome) ?_ ?_ s h
  · rintro s rfl
    exact ⟨wf_new, none, .quiet rfl, by decide⟩
  · rintro s s' ⟨hs, t, ht, hbusy⟩ ⟨op, ⟨hop, hfinish⟩, hstep⟩
    obtain ⟨next, t', hcontinues⟩ := continues hs ht hop
    have hnext : next = s' := Option.some_inj.mp (hcontinues.step.symm.trans hstep)
    exact hnext ▸ ⟨hcontinues.wf, t', hcontinues.carries, hcontinues.busy hfinish hbusy⟩

theorem Orderly.busyConsistent {s : Fdc1793} (h : s.Orderly) : s.BusyConsistent := by
  obtain ⟨hs, t, ht, hbusy⟩ := h.carries
  constructor
  · rw [hbusy]
    cases ht with
    | quiet hzero =>
        constructor
        · exact fun hsome => absurd hsome Bool.false_ne_true
        · exact fun hpending => absurd hzero hpending.1.ne'
    | @moving t hmoving =>
        have hpos := t.len_pos
        refine iff_of_true rfl ⟨?_, t.drive, ?_, hmoving.mounted⟩
        · rw [hmoving.rwLen]
          omega
        · rw [hmoving.ptr]
          exact t.area.drive_ptr _ _
  · intro hset accs hlen
    have hleft : s.rwLen = remaining t := by
      cases ht with
      | quiet hzero => exact hzero
      | moving hmoving => exact hmoving.rwLen
    rw [hleft] at hlen ⊢
    obtain ⟨s', t', hexec, hbusy', hsum⟩ := exec_dataAccess hs ht hbusy accs (by omega)
    refine ⟨s', hexec, ?_⟩
    rw [hbusy']
    cases t' with
    | none =>
        rw [remaining] at hsum
        refine iff_of_false Bool.false_ne_true ?_
        omega
    | some t' =>
        have hpos := t'.len_pos
        rw [remaining] at hsum
        refine iff_of_true rfl ?_
        omega
  · intro hidle val s' hwrite
    exact cmd_writeCommand hidle hwrite

theorem orderly_readingFirst : readingFirst.Orderly := by
  have hmount : Orderly (new.mount 0 fun _ => 0) :=
    .step (.start rfl) ⟨.mount 0 fun _ => 0, ⟨trivial, trivial⟩, rfl⟩
  have hselect : Orderly selectedFirst :=
    hmount.step ⟨.write .system 4, ⟨fun hpending => absurd rfl hpending, trivial⟩, rfl⟩
  have hsector : Orderly _ := hselect.step ⟨.write .sector 1, ⟨trivial, trivial⟩, rfl⟩
  have hlen : transferLen { selectedFirst with
      regs := { selectedFirst.regs with sector := 1 } } 0x80 ≠ 0 := by decide
  exact hsector.step ⟨.write .command 0x80, ⟨fun _ _ => .inr (by decide), fun _ _ => hlen⟩, rfl⟩

/-- A witness: a sector is being read. -/
theorem busyConsistent_readingFirst :
    readingFirst.BusyConsistent ∧ readingFirst.busy = true ∧ readingFirst.rwLen = 1024 :=
  ⟨orderly_readingFirst.busyConsistent, by decide, by decide⟩

/-- All sectors from sector 6 on are none, and the controller stays busy with nothing to do. -/
theorem readSectors_stays_busy :
    ∃ s, Runs.exec step new [.mount 0 fun _ => 0, .write .system 4, .write .sector 6,
        .write .command 0x90] = some s ∧
      s.busy = true ∧ s.rwLen = 0 ∧ ¬ s.BusyConsistent := by
  refine ⟨_, rfl, by decide, by decide, ?_⟩
  intro hconsistent
  have hpending := (hconsistent.busy_iff.mp (by decide)).1
  exact absurd hpending (by decide)

end Fdc1793

end V6Emul
