import V6Emul.Fdc.Model
import V6Emul.Foundation.Runs

/-!
# The watchdog

`m_wait` counts the polls of `READY` down from the start of a data command, or from
a data access that leaves bytes to move, and ends the transfer at zero.  Nothing
that ends a transfer by another way stops the count.
-/

namespace V6Emul

namespace Fdc1793

/-! ## What moves the count -/

def found (s : Fdc1793) (val : Byte) : Bool :=
  match command val with
  | .readSectors | .writeSectors => (s.seekSectors val).ptr != .null
  | .readAddress => s.disk.isSome && (s.seekFirst (List.range 256)).ptr != .null
  | _ => false

def starts (s : Fdc1793) : FdcOp → Bool
  | .write .command val => !s.busy && (s.latch val).found val
  | _ => false

def accessesData : FdcOp → Bool
  | .read .data | .write .data _ => true
  | _ => false

def rearms (s : Fdc1793) (op : FdcOp) : Bool :=
  s.starts op || accessesData op && s.rwLen != 0 && s.rwLen != 1

/-- The last byte is moved, or the transfer given up by `FORCE-INTERRUPT` or `SEEK`. -/
def ends (s : Fdc1793) : FdcOp → Bool
  | .write .command val =>
      command val == .forceIrq || !s.busy && command val == .seekTrack
  | op => accessesData op && s.rwLen == 1

def resets (s : Fdc1793) : FdcOp → Bool
  | .mount driveIdx _ => driveIdx == s.drive
  | _ => false

/-- The test of `READY` after which it sets LOST DATA and raises IRQ. -/
def expires (s : Fdc1793) : Prop := s.wait ≠ 0 ∧ s.wait - 1 = 0

theorem readReady_of_not_expires {s : Fdc1793} (h : ¬ s.expires) :
    s.readReady.2.regs = s.regs ∧ s.readReady.2.irq = s.irq := by
  rw [readReady]
  split
  · exact ⟨rfl, rfl⟩
  · rename_i hwait
    rw [if_neg fun hlast => h ⟨hwait, hlast⟩]
    exact ⟨rfl, rfl⟩

/-- The count and the pending length are as they were, but for a length set to zero. -/
structure Unclocked (s t : Fdc1793) : Prop where
  wait : t.wait = s.wait
  rwLen : t.rwLen = s.rwLen ∨ t.rwLen = 0

theorem Unclocked.refl (s : Fdc1793) : s.Unclocked s := ⟨rfl, .inl rfl⟩

theorem Unclocked.trans {s t u : Fdc1793} (h : s.Unclocked t) (h' : t.Unclocked u) :
    s.Unclocked u where
  wait := h'.wait.trans h.wait
  rwLen := by
    have hfirst := h.rwLen
    have hsecond := h'.rwLen
    omega

theorem unclocked_seek (s : Fdc1793) (sideId trackId sectorId : Nat) :
    s.Unclocked (s.seek sideId trackId sectorId) := by
  rw [seek]
  split
  · exact ⟨rfl, .inl rfl⟩
  · exact ⟨rfl, .inl rfl⟩

theorem unclocked_seekFirst (s : Fdc1793) (sectorIds : List Nat) :
    s.Unclocked (s.seekFirst sectorIds) := by
  induction sectorIds generalizing s with
  | nil => exact .refl s
  | cons sectorId rest ih =>
      have hseek := unclocked_seek s s.side s.track.toNat sectorId
      simp only [seekFirst]
      split
      · exact hseek.trans (ih _)
      · exact hseek

theorem unclocked_onDisk {s t : Fdc1793} {f : FDisk → FDisk} (h : s.onDisk f = some t) :
    s.Unclocked t := by
  obtain ⟨d, -, rfl⟩ := Option.map_eq_some_iff.mp h
  exact ⟨rfl, .inl rfl⟩

theorem unclocked_fillTrack {s t : Fdc1793} (h : s.fillTrack = some t) : s.Unclocked t := by
  rw [fillTrack] at h
  split at h
  · split at h
    · exact Option.some_inj.mp h ▸ ⟨rfl, .inl rfl⟩
    · contradiction
  · contradiction

theorem unclocked_formatSide {s t : Fdc1793} {sideId : Nat} (h : s.formatSide sideId = some t) :
    s.Unclocked t := by
  have hseek := unclocked_seek s sideId s.regs.track.toNat 1
  simp only [formatSide] at h
  split at h
  · exact Option.some_inj.mp h ▸ hseek
  · obtain ⟨u, hfill, hmark⟩ := Option.bind_eq_some_iff.mp h
    exact hseek.trans ((unclocked_fillTrack hfill).trans (unclocked_onDisk hmark))

/-! ## What one call does to the count -/

inductive ClockEffect (s : Fdc1793) (op : FdcOp) (t : Fdc1793) : Prop where
  | leaves : s.rearms op = false → s.resets op = false → op ≠ .read .system → s.Unclocked t →
      (s.ends op = true → t.rwLen = 0) → ClockEffect s op t
  | arms : s.rearms op = true → s.ends op = false → (s.starts op = false → s.rwLen ≠ 0) →
      t.wait = 255 → ClockEffect s op t
  | polls : op = .read .system → t = s.readReady.2 → ClockEffect s op t
  | resets : s.resets op = true → s.rearms op = false → t.wait = 0 → t.rwLen = 0 →
      ClockEffect s op t

theorem clock_countDown {s u t : Fdc1793} {op : FdcOp} (hwait : t.wait = u.countDown.wait)
    (hkept : t.rwLen = u.countDown.rwLen) (hu : u.wait = s.wait) (hlen : u.rwLen = s.rwLen)
    (hpending : s.rwLen ≠ 0) (hop : accessesData op = true) (hstarts : s.starts op = false)
    (hends : s.ends op = (s.rwLen == 1)) (hresets : s.resets op = false)
    (hready : op ≠ .read .system) : s.ClockEffect op t := by
  by_cases hlast : s.rwLen = 1
  · have hzero : u.rwLen - 1 = 0 := by rw [hlen, hlast]; rfl
    simp only [countDown, hzero, ne_eq, not_true_eq_false, if_false] at hwait hkept
    refine .leaves ?_ hresets hready ⟨hwait.trans hu, .inr hkept⟩ fun _ => hkept
    simp [rearms, hstarts, hlast]
  · have hmore : u.rwLen - 1 ≠ 0 := by omega
    rw [countDown, if_pos hmore] at hwait
    refine .arms ?_ ?_ (fun _ => hpending) hwait
    · simp [rearms, hop, hpending, hlast]
    · simp [hends, hlast]

theorem clock_readData {s t : Fdc1793} (h : s.step (.read .data) = some t) :
    s.ClockEffect (.read .data) t := by
  obtain ⟨⟨val, t'⟩, hread, rfl⟩ := Option.map_eq_some_iff.mp h
  simp only [read, readData] at hread
  split at hread
  · rename_i hzero
    cases hread
    refine .leaves ?_ rfl (by simp) (.refl s) fun _ => hzero
    simp [rearms, starts, hzero]
  · rename_i hpending
    obtain ⟨loaded, -, hread⟩ := Option.bind_eq_some_iff.mp hread
    obtain ⟨u, hcount, hread⟩ := Option.bind_eq_some_iff.mp hread
    obtain ⟨d, -, rfl⟩ := Option.map_eq_some_iff.mp hcount
    cases hread
    exact clock_countDown rfl rfl rfl rfl hpending rfl rfl rfl rfl (by simp)

theorem clock_writeData {s t : Fdc1793} {val : Byte} (h : s.writeData val = some t) :
    s.ClockEffect (.write .data val) t := by
  obtain ⟨u, hmove, rfl⟩ := Option.map_eq_some_iff.mp h
  rw [storeData] at hmove
  split at hmove
  · rename_i hzero
    cases hmove
    refine .leaves ?_ rfl (by simp) ⟨rfl, .inl rfl⟩ fun _ => hzero
    simp [rearms, starts, hzero]
  · rename_i hpending
    obtain ⟨v, hstore, hmove⟩ := Option.bind_eq_some_iff.mp hmove
    obtain ⟨w, hcount, hmove⟩ := Option.bind_eq_some_iff.mp hmove
    obtain ⟨d, -, rfl⟩ := Option.map_eq_some_iff.mp hcount
    cases hmove
    have hv : v.wait = s.wait ∧ v.rwLen = s.rwLen := by
      rw [store] at hstore
      split at hstore
      · contradiction
      · split at hstore
        · cases hstore; exact ⟨rfl, rfl⟩
        · contradiction
      · split at hstore
        · cases hstore; exact ⟨rfl, rfl⟩
        · contradiction
    exact clock_countDown rfl rfl hv.1 hv.2 hpending rfl rfl rfl rfl (by simp)

theorem unclocked_execCommand {s t : Fdc1793} {val : Byte} (hfound : s.found val = false)
    (h : s.execCommand val = some t) :
    s.Unclocked t ∧ (command val = .seekTrack → t.rwLen = 0) := by
  rw [execCommand] at h
  rw [found] at hfound
  cases hcommand : command val with
  | restore | stepHead =>
      rw [hcommand] at h
      cases h
      exact ⟨⟨rfl, .inl rfl⟩, by simp⟩
  | seekTrack | forceIrq =>
      rw [hcommand] at h
      cases h
      exact ⟨⟨rfl, .inr rfl⟩, fun _ => rfl⟩
  | readTrack =>
      rw [hcommand] at h
      cases h
      exact ⟨.refl s, by simp⟩
  | readSectors =>
      simp only [hcommand, bne_eq_false_iff_eq] at h hfound
      simp only [readSectors, hfound, if_true, Option.some_inj] at h
      exact ⟨h ▸ (unclocked_seek s _ _ _).trans ⟨rfl, .inl rfl⟩, by simp⟩
  | writeSectors =>
      simp only [hcommand, bne_eq_false_iff_eq] at h hfound
      simp only [writeSectors, hfound, if_true, Option.some_inj] at h
      exact ⟨h ▸ (unclocked_seek s _ _ _).trans ⟨rfl, .inl rfl⟩, by simp⟩
  | readAddress =>
      simp only [hcommand] at h hfound
      refine ⟨?_, by simp⟩
      cases hdisk : s.disk with
      | none =>
          simp only [readAddress, hdisk, Option.isNone_none, if_true, Option.some_inj] at h
          exact h ▸ ⟨rfl, .inl rfl⟩
      | some d =>
          simp only [hdisk, Option.isSome_some, Bool.true_and, bne_eq_false_iff_eq] at hfound
          simp only [readAddress, hdisk, Option.isNone_some, Bool.false_eq_true, if_false, hfound,
            if_true, Option.some_inj] at h
          exact h ▸ (unclocked_seekFirst s _).trans ⟨rfl, .inl rfl⟩
  | writeTrack =>
      rw [hcommand] at h
      obtain ⟨u, hfirst, hsecond⟩ := Option.bind_eq_some_iff.mp h
      exact ⟨(unclocked_formatSide hfirst).trans (unclocked_formatSide hsecond), by simp⟩

theorem armed_execCommand {s t : Fdc1793} {val : Byte} (hfound : s.found val = true)
    (h : s.execCommand val = some t) :
    t.wait = 255 ∧ command val ≠ .forceIrq ∧ command val ≠ .seekTrack := by
  rw [execCommand] at h
  rw [found] at hfound
  cases hcommand : command val with
  | restore | stepHead | seekTrack | forceIrq | readTrack | writeTrack => simp [hcommand] at hfound
  | readSectors =>
      simp only [hcommand, bne_iff_ne, ne_eq] at h hfound
      simp only [readSectors, hfound, if_false, Option.some_inj] at h
      exact ⟨h ▸ rfl, by simp⟩
  | writeSectors =>
      simp only [hcommand, bne_iff_ne, ne_eq] at h hfound
      simp only [writeSectors, hfound, if_false] at h
      exact ⟨(unclocked_onDisk h).wait, by simp⟩
  | readAddress =>
      simp only [hcommand, Bool.and_eq_true, bne_iff_ne, ne_eq] at h hfound
      obtain ⟨d, hdisk⟩ := Option.isSome_iff_exists.mp hfound.1
      simp only [readAddress, hdisk, Option.isNone_some, Bool.false_eq_true, if_false, hfound.2] at h
      obtain ⟨k, -, rfl⟩ := Option.map_eq_some_iff.mp h
      exact ⟨rfl, by simp⟩

theorem clock_command {s t : Fdc1793} {val : Byte} (h : s.writeCommand val = some t) :
    s.ClockEffect (.write .command val) t := by
  have hlatch : s.Unclocked (s.latch val) := ⟨rfl, .inl rfl⟩
  rw [writeCommand] at h
  split at h
  · rename_i hforce
    cases h
    refine .leaves ?_ rfl (by simp) ⟨rfl, .inr rfl⟩ fun _ => rfl
    simp [rearms, starts, found, accessesData, hforce]
  · rename_i hforce
    cases hbusy : s.busy with
    | true =>
        rw [if_pos hbusy] at h
        cases h
        refine .leaves ?_ rfl (by simp) ⟨rfl, .inl rfl⟩ fun hends => ?_
        · simp [rearms, starts, accessesData, hbusy]
        · simp [ends, hbusy, hforce] at hends
    | false =>
        rw [if_neg (by simp [hbusy])] at h
        cases hfound : (s.latch val).found val with
        | true =>
            obtain ⟨hwait, -, hseek⟩ := armed_execCommand hfound h
            refine .arms ?_ ?_ ?_ hwait
            · simp [rearms, starts, hbusy, hfound]
            · simp [ends, hforce, hseek]
            · simp [starts, hbusy, hfound]
        | false =>
            obtain ⟨hclock, hseek⟩ := unclocked_execCommand hfound h
            refine .leaves ?_ rfl (by simp) (hlatch.trans hclock) fun hends => ?_
            · simp [rearms, starts, accessesData, hfound]
            · simp only [ends, Bool.or_eq_true, beq_iff_eq, hforce, Bool.and_eq_true] at hends
              exact hseek (hends.resolve_left id).2

theorem clockEffect {s t : Fdc1793} {op : FdcOp} (h : s.step op = some t) :
    s.ClockEffect op t := by
  cases op with
  | read port =>
      cases port with
      | data => exact clock_readData h
      | system => exact .polls rfl (Option.some_inj.mp h).symm
      | track | sector | bad =>
          cases h
          exact .leaves rfl rfl (by simp) (.refl s) (by simp [ends, accessesData])
      | command =>
          cases h
          exact .leaves rfl rfl (by simp) ⟨rfl, .inl rfl⟩ (by simp [ends, accessesData])
  | write port val =>
      obtain ⟨p, hwrite, rfl⟩ := Option.map_eq_some_iff.mp h
      obtain ⟨t, hport, rfl⟩ := Option.map_eq_some_iff.mp hwrite
      cases port with
      | command => exact clock_command hport
      | data => exact clock_writeData hport
      | bad =>
          cases hport
          exact .leaves rfl rfl (by simp) (.refl s) (by simp [ends, accessesData])
      | system =>
          cases hport
          exact .leaves rfl rfl (by simp) ⟨rfl, .inl rfl⟩ (by simp [ends, accessesData])
      | track | sector =>
          cases hport
          refine .leaves rfl rfl (by simp) ?_ (by simp [ends, accessesData])
          dsimp only
          split
          · exact .refl s
          · exact ⟨rfl, .inl rfl⟩
  | mount driveIdx data =>
      cases h
      by_cases hdrive : driveIdx = s.drive
      · refine .resets (by simp [resets, hdrive]) rfl ?_ ?_
        · rw [mount, if_pos hdrive]
          rfl
        · rw [mount, if_pos hdrive]
          rfl
      · refine .leaves rfl (by simp [resets, hdrive]) (by simp) ?_ (by simp [ends, accessesData])
        rw [mount, if_neg hdrive]
        exact ⟨rfl, .inl rfl⟩
  | dismount driveIdx =>
      cases h
      refine .leaves rfl rfl (by simp) ?_ (by simp [ends, accessesData])
      rw [dismount]
      split
      · exact ⟨rfl, .inr rfl⟩
      · exact ⟨rfl, .inl rfl⟩
  | resetUpdate driveIdx =>
      cases h
      exact .leaves rfl rfl (by simp) ⟨rfl, .inl rfl⟩ (by simp [ends, accessesData])

/-! ## The watchdog over a run -/

/-- The controller, the polls of `READY` since the count was last started (255 and
more for a count that is not running), and whether a transfer has ended with no data
command after it. -/
structure Watched where
  fdc : Fdc1793
  polls : Nat
  ended : Bool

namespace Watched

def start : Watched := ⟨new, 255, false⟩

def nextPolls (s : Watched) (op : FdcOp) : Nat :=
  if s.fdc.rearms op then 0
  else if s.fdc.resets op then 255
  else
    match op with
    | .read .system => s.polls + 1
    | _ => s.polls

def step (s : Watched) (op : FdcOp) : Option Watched :=
  (s.fdc.step op).map fun t =>
    { fdc := t
      polls := s.nextPolls op
      ended := !s.fdc.starts op && (s.ended || s.fdc.ends op) }

/-- A poll finds a pending transfer whenever it sets LOST DATA and raises IRQ, and
after the end of a transfer it changes neither the status nor the interrupt. -/
def Vigilant (s : Watched) (op : FdcOp) : Prop :=
  op = .read .system →
    (s.fdc.expires → 0 < s.fdc.rwLen) ∧
      (s.ended = true → ∀ t, s.fdc.step op = some t →
        t.regs.status = s.fdc.regs.status ∧ t.irq = s.fdc.irq)

/-- A transfer is pending at the 255th poll since the count was last started. -/
def LastPollPending (s : Watched) (op : FdcOp) : Prop :=
  op = .read .system → s.polls = 254 → 0 < s.fdc.rwLen

structure Counted (s : Watched) : Prop where
  wait : s.fdc.wait = BitVec.ofNat 8 (255 - s.polls)
  ended : s.ended = true → s.fdc.rwLen = 0

theorem counted_start : start.Counted := ⟨rfl, fun _ => rfl⟩

theorem Counted.expires_iff {s : Watched} (h : s.Counted) : s.fdc.expires ↔ s.polls = 254 := by
  rw [expires, h.wait]
  have hle : 255 - s.polls < 256 := by omega
  constructor
  · rintro ⟨hne, hlast⟩
    have hone : BitVec.ofNat 8 (255 - s.polls) = 1 := by bv_omega
    have hnat := congrArg BitVec.toNat hone
    rw [BitVec.toNat_ofNat, Nat.mod_eq_of_lt hle] at hnat
    have hnat' : 255 - s.polls = 1 := hnat
    omega
  · intro hpolls
    simp [hpolls]

theorem Counted.wait_readReady {s : Watched} (h : s.Counted) :
    s.fdc.readReady.2.wait = BitVec.ofNat 8 (255 - (s.polls + 1)) := by
  have hwait := h.wait
  rw [readReady]
  by_cases hspent : 255 ≤ s.polls
  · have hzero : s.fdc.wait = 0 := by rw [hwait, Nat.sub_eq_zero_of_le hspent]; rfl
    rw [if_pos hzero, hzero, Nat.sub_eq_zero_of_le (Nat.le_succ_of_le hspent)]
    rfl
  · have hrest : 255 - s.polls = 255 - (s.polls + 1) + 1 := by omega
    rw [hrest] at hwait
    generalize 255 - (s.polls + 1) = n at hwait hrest ⊢
    have hn : n < 255 := by omega
    have hne : s.fdc.wait ≠ 0 := by rw [hwait]; bv_omega
    have hpred : s.fdc.wait - 1 = BitVec.ofNat 8 n := by rw [hwait]; bv_omega
    rw [if_neg hne]
    split
    · rename_i hlast
      exact hlast.symm.trans hpred
    · exact hpred

theorem rwLen_readReady (s : Fdc1793) (h : s.rwLen = 0) : s.readReady.2.rwLen = 0 := by
  rw [readReady]
  split
  · exact h
  · split
    · rfl
    · exact h

theorem counted_step {s t : Watched} (hs : s.Counted) {op : FdcOp} (h : s.step op = some t) :
    t.Counted := by
  obtain ⟨u, hu, rfl⟩ := Option.map_eq_some_iff.mp h
  cases clockEffect hu with
  | leaves hrearms hresets hready hclock hends =>
      constructor
      · have hpolls : s.nextPolls op = s.polls := by
          simp only [nextPolls, hrearms, hresets, Bool.false_eq_true, if_false]
        simp only [hpolls, hclock.wait, hs.wait]
      · intro hended
        simp only [Bool.and_eq_true, Bool.or_eq_true] at hended
        rcases hended.2 with hbefore | hnow
        · have hzero := hs.ended hbefore
          exact hclock.rwLen.elim (fun hlen => hlen.trans hzero) id
        · exact hends hnow
  | arms hrearms hends hpending hwait =>
      constructor
      · simp only [nextPolls, hrearms, if_true, hwait]
        rfl
      · intro hended
        simp only [Bool.and_eq_true, Bool.or_eq_true, Bool.not_eq_true', hends,
          Bool.false_eq_true, or_false] at hended
        exact absurd (hs.ended hended.2) (hpending hended.1)
  | polls hop hnext =>
      subst hop hnext
      constructor
      · exact hs.wait_readReady
      · intro hended
        simp only [Bool.and_eq_true, Bool.or_eq_true] at hended
        exact rwLen_readReady _ (hs.ended (hended.2.resolve_right (by simp [ends, accessesData])))
  | resets hresets hrearms hwait hzero =>
      constructor
      · simp only [nextPolls, hrearms, hresets, hwait]
        rfl
      · exact fun _ => hzero

theorem vigilant_iff {s : Watched} (hs : s.Counted) (op : FdcOp) :
    s.Vigilant op ↔ s.LastPollPending op := by
  constructor
  · intro h hop hlast
    exact (h hop).1 (hs.expires_iff.mpr hlast)
  · intro h hop
    have hpending : s.fdc.expires → 0 < s.fdc.rwLen := fun hexpires =>
      h hop (hs.expires_iff.mp hexpires)
    refine ⟨hpending, fun hended t ht => ?_⟩
    have hidle : ¬ s.fdc.expires := by
      intro hexpires
      have hzero := hs.ended hended
      have hpos := hpending hexpires
      omega
    subst hop
    cases ht
    have hkept := readReady_of_not_expires hidle
    exact ⟨congrArg FdcRegs.status hkept.1, hkept.2⟩

theorem watchdog_vigilant_iff (ops : List FdcOp) :
    Runs.Along step Vigilant start ops ↔ Runs.Along step LastPollPending start ops := by
  constructor
  · intro h
    exact h.invariant Counted (fun s op hs hop => ⟨(vigilant_iff hs op).mp hop,
      fun t ht => counted_step hs ht⟩) counted_start
  · intro h
    exact h.invariant Counted (fun s op hs hop => ⟨(vigilant_iff hs op).mpr hop,
      fun t ht => counted_step hs ht⟩) counted_start

def givenUp : List FdcOp :=
  [.mount 0 fun _ => 0, .write .system 4, .write .sector 1, .write .command 0x80,
    .write .command 0xD0]

theorem givenUp_loses_data :
    ¬ Runs.Along step Vigilant start (givenUp ++ List.replicate 255 (.read .system)) := by
  intro h
  obtain ⟨t, ht, hwait, hlen⟩ : ∃ t,
      Runs.exec step start (givenUp ++ List.replicate 254 (.read .system)) = some t ∧
        t.fdc.wait = 1 ∧ t.fdc.rwLen = 0 := by
    have hrun : (Runs.exec step start (givenUp ++ List.replicate 254 (.read .system))).map
        (fun t => (t.fdc.wait, t.fdc.rwLen)) = some (1, 0) := by decide +kernel
    obtain ⟨t, ht, heq⟩ := Option.map_eq_some_iff.mp hrun
    exact ⟨t, ht, congrArg Prod.fst heq, congrArg Prod.snd heq⟩
  rw [List.replicate_succ', ← List.append_assoc] at h
  have hexpires : t.fdc.expires := by
    rw [expires, hwait]
    decide
  have hpending := ((h.append ht).1 rfl).1 hexpires
  omega

end Watched

end Fdc1793

end V6Emul
