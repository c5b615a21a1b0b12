import V6Emul.Display.Bisimulation
import V6Emul.Display.Slice

/-!
# Commits while a slice is drawn

A pending `OUT` is committed ahead of the first pixel of a slice, whichever
routine draws it: the border always counts the timers down, and the active area
does so while the timer of the `OUT` runs.
-/

namespace V6Emul

variable {δ : Type}

namespace Io

def Settled (s : Io δ) : Prop := s.state.outCommitTimer = 0

/-- The timer of an `OUT` is stopped or has one pixel to go. -/
def Armed (s : Io δ) : Prop := s.state.outCommitTimer = 0 ∨ s.state.outCommitTimer = 1

def due (s : Io δ) : List PortEvent :=
  if s.state.outCommitTimer = 0 then [] else [.commit s.state.outport s.state.outbyte]

theorem due_of_settled {s : Io δ} (h : s.Settled) : s.due = [] := if_pos h

theorem Settled.armed {s : Io δ} (h : s.Settled) : s.Armed := .inl h

end Io

/-! ## One commit -/

namespace Bus

structure HandsOver (b b' : Bus δ) : Prop where
  events : b'.io.events = b.io.events
  timer : b'.io.state.outCommitTimer = b.io.state.outCommitTimer

theorem portOutHandling_handsOver (dev : Devices δ) (port value : Byte) (b : Bus δ) :
    b.HandsOver (b.portOutHandling dev port value) := by
  unfold portOutHandling
  split
  case h_1 =>
    constructor
    · rfl
    · simp only [setIoState, Io.setState, IoState.writeControl]
      split <;> rfl
  all_goals exact ⟨rfl, rfl⟩

@[simp] theorem outCommitTimer_countPalette (colorIdx : BitVec 4) (s : IoState) :
    (countPalette colorIdx s).outCommitTimer = s.outCommitTimer := by
  simp only [countPalette]
  repeat' split
  all_goals rfl

@[simp] theorem outCommitTimer_countDisplayMode (s : IoState) :
    (countDisplayMode s).outCommitTimer = s.outCommitTimer := by
  simp only [countDisplayMode]
  repeat' split
  all_goals rfl

theorem countOut_of_settled (dev : Devices δ) {b : Bus δ} (h : b.io.Settled) :
    b.countOut dev = b := by
  have hstopped : running b.io.state.outCommitTimer = false := by
    rw [h]
    decide
  simp [countOut, hstopped]

def committing (b : Bus δ) : Bus δ :=
  let io := b.io.setState { b.io.state with outCommitTimer := 0 }
  { b with io := io.log (.commit b.io.state.outport b.io.state.outbyte) }

theorem countOut_of_due (dev : Devices δ) {b : Bus δ} (h : b.io.state.outCommitTimer = 1) :
    b.countOut dev =
      b.committing.portOutHandling dev b.io.state.outport b.io.state.outbyte := by
  simp [countOut, h, show running 1#8 = true by decide, portOutCommit, setIoState, committing,
    Io.setState]

theorem tryToCommit_spec (dev : Devices δ) (colorIdx : BitVec 4) {b : Bus δ} (h : b.io.Armed) :
    (b.tryToCommit dev colorIdx).io.events = b.io.events ++ b.io.due ∧
      (b.tryToCommit dev colorIdx).io.Settled := by
  simp only [tryToCommit, setIoState, Io.setState, Io.Settled, outCommitTimer_countDisplayMode,
    outCommitTimer_countPalette]
  rcases h with hstopped | hpending
  · rw [countOut_of_settled dev hstopped, Io.due_of_settled hstopped, List.append_nil]
    exact ⟨rfl, hstopped⟩
  · have hhands := portOutHandling_handsOver dev b.io.state.outport b.io.state.outbyte b.committing
    rw [countOut_of_due dev hpending, Io.due, if_neg (by rw [hpending]; decide), hhands.events,
      hhands.timer]
    exact ⟨rfl, rfl⟩

/-! ## The memory behind a commit -/

def diskOfPort (port : Byte) : Option (Fin 8) :=
  match port.toNat with
  | 0x10 => some 0
  | 0x11 => some 1
  | 0x20 => some 2
  | 0x21 => some 3
  | 0x40 => some 4
  | 0x41 => some 5
  | 0x80 => some 6
  | 0x81 => some 7
  | _ => none

def memAfterOut (port value : Byte) (m : Memory) : Memory :=
  match diskOfPort port with
  | some diskIdx => m.setRamDiskMode diskIdx value
  | none => m

theorem mem_portOutHandling (dev : Devices δ) (port value : Byte) (b : Bus δ) :
    (b.portOutHandling dev port value).mem = memAfterOut port value b.mem := by
  unfold portOutHandling memAfterOut diskOfPort
  generalize port.toNat = number
  split
  case h_33 => simp [*]
  all_goals rfl

theorem frame_setRamDiskModeLoop (m : Memory) (disks : List (Fin ramDiskMax)) :
    (m.setRamDiskModeLoop disks).ram = m.ram ∧ (m.setRamDiskModeLoop disks).debug = m.debug ∧
      (m.setRamDiskModeLoop disks).mappings = m.mappings := by
  induction disks generalizing m with
  | nil => exact ⟨rfl, rfl, rfl⟩
  | cons disk rest ih =>
      simp only [Memory.setRamDiskModeLoop, Memory.setRamDiskModeStep]
      split
      · rename_i hstep
        split at hstep
        · split at hstep <;> cases hstep
          exact ⟨rfl, rfl, rfl⟩
        · cases hstep
      · rename_i hstep
        split at hstep
        · split at hstep <;> cases hstep
          exact ih _
        · cases hstep
          exact ih _

theorem frame_memAfterOut (port value : Byte) (m : Memory) :
    (memAfterOut port value m).ram = m.ram ∧ (memAfterOut port value m).debug = m.debug := by
  unfold memAfterOut
  split
  · obtain ⟨hram, hdebug, -⟩ := frame_setRamDiskModeLoop _ _
    exact ⟨hram, hdebug⟩
  · exact ⟨rfl, rfl⟩

theorem frame_tryToCommit (dev : Devices δ) (colorIdx : BitVec 4) (b : Bus δ) :
    (b.tryToCommit dev colorIdx).mem.ram = b.mem.ram ∧
      (b.tryToCommit dev colorIdx).mem.debug = b.mem.debug := by
  simp only [tryToCommit, setIoState, countOut]
  split
  · split
    · simp only [portOutCommit, mem_portOutHandling]
      exact frame_memAfterOut _ _ _
    · exact ⟨rfl, rfl⟩
  · exact ⟨rfl, rfl⟩

def dueMem (b : Bus δ) : Memory :=
  if b.io.state.outCommitTimer = 0 then b.mem
  else memAfterOut b.io.state.outport b.io.state.outbyte b.mem

theorem dueMem_of_settled {b : Bus δ} (h : b.io.Settled) : b.dueMem = b.mem := if_pos h

theorem mem_tryToCommit (dev : Devices δ) (colorIdx : BitVec 4) {b : Bus δ} (h : b.io.Armed) :
    (b.tryToCommit dev colorIdx).mem = b.dueMem := by
  simp only [tryToCommit, setIoState]
  rcases h with hstopped | hpending
  · rw [countOut_of_settled dev hstopped, dueMem_of_settled hstopped]
  · rw [countOut_of_due dev hpending, mem_portOutHandling, dueMem, if_neg (by rw [hpending]; decide)]
    rfl

end Bus

namespace Bus

theorem io_portOutHandling (dev : Devices δ) (port value : Byte) {b b' : Bus δ} (h : b.io = b'.io) :
    (b.portOutHandling dev port value).io = (b'.portOutHandling dev port value).io := by
  obtain ⟨mem, io⟩ := b
  obtain ⟨mem', io'⟩ := b'
  cases h
  unfold portOutHandling
  generalize port.toNat = number
  split <;> rfl

theorem io_setIoState (f : IoState → IoState) {b b' : Bus δ} (h : b.io = b'.io) :
    (b.setIoState f).io = (b'.setIoState f).io := by
  simp only [setIoState, h]

theorem io_portOutCommit (dev : Devices δ) {b b' : Bus δ} (h : b.io = b'.io) :
    (b.portOutCommit dev).io = (b'.portOutCommit dev).io := by
  simp only [portOutCommit, h]
  exact io_portOutHandling dev _ _ rfl

theorem io_tryToCommit (dev : Devices δ) (colorIdx : BitVec 4) {b b' : Bus δ} (h : b.io = b'.io) :
    (b.tryToCommit dev colorIdx).io = (b'.tryToCommit dev colorIdx).io := by
  have hcount : (b.countOut dev).io = (b'.countOut dev).io := by
    simp only [countOut, h]
    split
    · split
      · exact io_portOutCommit dev (io_setIoState _ h)
      · exact io_setIoState _ h
    · exact h
  exact io_setIoState _ hcount

theorem bisimulation_io_ram (dev : Devices δ) :
    Bisimulation dev fun b b' => b.io = b'.io ∧ b.mem.ram = b'.mem.ram := by
  constructor
  · rintro b b' ⟨hio, -⟩
    rw [hio]
  · rintro b b' ⟨-, hram⟩
    exact hram
  · rintro b b' ⟨hio, hram⟩ event
    exact ⟨congrArg (Io.log event) hio, hram⟩
  · rintro b b' ⟨hio, hram⟩ colorIdx
    refine ⟨io_tryToCommit dev colorIdx hio, ?_⟩
    rw [(frame_tryToCommit dev colorIdx b).1, (frame_tryToCommit dev colorIdx b').1, hram]

end Bus

/-! ## Pieces -/

namespace Raster

structure Draws (n : Nat) (r r' : Raster δ) : Prop where
  events : r'.io.events = r.io.events ++ r.io.due ++ List.replicate n .pixel
  settled : r'.io.Settled

theorem Draws.trans {m n : Nat} {r s t : Raster δ} (h : Draws m r s) (h' : Draws n s t) :
    Draws (m + n) r t := by
  constructor
  · rw [h'.events, h.events, Io.due_of_settled h.settled, List.append_nil, List.append_assoc,
      List.replicate_append_replicate]
  · exact h'.settled

theorem Draws.setDisplay {n : Nat} {r s : Raster δ} (h : Draws n r s) (f : Display → Display) :
    Draws n r (s.setDisplay f) := ⟨h.events, h.settled⟩

theorem Draws.loop {S : Type} (view : S → Raster δ) {step : Nat → S → S} {ready : Raster δ → Prop}
    (hready : ∀ r, r.io.Settled → ready r)
    (hstep : ∀ i s, ready (view s) → Draws 1 (view s) (view (step i s)))
    {s : S} (hs : ready (view s)) {n : Nat} (hpos : 0 < n) :
    Draws n (view s) (view (Runs.after step id s n)) := by
  induction n with
  | zero => exact absurd hpos (Nat.lt_irrefl 0)
  | succ n ih =>
      cases n with
      | zero => exact hstep 0 s hs
      | succ n =>
          have hsofar := ih (Nat.succ_pos n)
          exact hsofar.trans (hstep (n + 1) _ (hready _ hsofar.settled))

theorem store_draws {r : Raster δ} (h : r.io.Settled) (color : Byte) : Draws 1 r (r.store color) := by
  constructor
  · rw [Io.due_of_settled h, List.append_nil]
    rfl
  · exact h

theorem tryToCommit_store_draws (dev : Devices δ) (colorIdx : BitVec 4) (color : IoState → Byte)
    {r r' : Raster δ} (h : r.io.Armed) (hio : r'.io = r.io) :
    Draws 1 r ((r'.tryToCommit dev colorIdx).store
      (color (r'.tryToCommit dev colorIdx).io.state)) := by
  obtain ⟨hevents, hsettled⟩ := Bus.tryToCommit_spec dev colorIdx (hio ▸ h : r'.io.Armed)
  constructor
  · have hstored := congrArg (· ++ [PortEvent.pixel]) hevents
    rw [← hio]
    exact hstored
  · exact hsettled

theorem fillBorderPortHandling_draws (dev : Devices δ) {n : Nat} (hpos : 0 < n) {r : Raster δ}
    (h : r.io.Armed) : Draws n r (r.fillBorderPortHandling dev n) :=
  Draws.loop id (fun _ => Io.Settled.armed)
    (fun _ s hs => by
      have hone := tryToCommit_store_draws dev s.io.state.brdColorIdx IoState.getBorderColor hs rfl
      exact hone.setDisplay Display.wrapFrame) h hpos

theorem fillActiveArea_draws (mode : PixelMode) {n : Nat} (hpos : 0 < n) {r : Raster δ}
    (h : r.io.Settled) : Draws n r (r.fillActiveArea mode n) :=
  Draws.loop Scan.raster (s := startScan mode r) (fun _ => id)
    (fun _ _ hs => by
      rw [activePixel, reload_raster]
      exact store_draws hs _) h hpos

theorem fillActiveAreaPortHandling_draws (dev : Devices δ) (mode : PixelMode) {n : Nat}
    (hpos : 0 < n) {r : Raster δ} (h : r.io.Armed) :
    Draws n r (r.fillActiveAreaPortHandling dev mode n) :=
  Draws.loop Scan.raster (s := startScan mode r) (fun _ => Io.Settled.armed)
    (fun _ s hs => by
      have hone := tryToCommit_store_draws dev
        (mode.colorIdx s.screenBytes (BitVec.ofInt 8 s.bitIdx))
        (fun io => io.getColor (mode.colorIdx s.screenBytes (BitVec.ofInt 8 s.bitIdx))) hs
        (latchScroll_io r.display.rasterLine s.raster)
      rw [activePixelPortHandling, reload_raster]
      exact hone) h hpos

theorem rasterizeActiveArea_draws (dev : Devices δ) {n : Nat} (hpos : 0 < n) {r : Raster δ}
    (h : r.io.Armed) : Draws n r (r.rasterizeActiveArea dev n) := by
  simp only [rasterizeActiveArea]
  split
  · split
    · exact fillActiveAreaPortHandling_draws dev mode256 hpos h
    · exact fillActiveAreaPortHandling_draws dev mode512 hpos h
  · rename_i hquiet
    have hsettled : r.io.Settled := by
      rcases h with hstopped | hpending
      · exact hstopped
      · refine absurd ?_ hquiet
        simp [hpending]
    split
    · exact fillActiveArea_draws mode256 hpos hsettled
    · exact fillActiveArea_draws mode512 hpos hsettled

theorem rasterizeBorder_draws (dev : Devices δ) {n : Nat} (hpos : 0 < n) {r : Raster δ}
    (h : r.io.Armed) : Draws n r (r.rasterizeBorder dev n) := by
  have htime : decide (0 ≤ r.io.state.outCommitTimer.toInt) = true := by
    rcases h with hstopped | hpending
    · simp [hstopped]
    · simp [hpending]
  simp only [rasterizeBorder, htime, Bool.true_or, if_true]
  exact fillBorderPortHandling_draws dev hpos h

/-! ## Slices -/

theorem Cut.draws (dev : Devices δ) {r t : Raster δ} (h : r.io.Armed)
    (hcut : Cut (rasterizeActiveArea dev) (rasterizeBorder dev) r t) : Draws 16 r t := by
  cases hcut with
  | active _ => exact rasterizeActiveArea_draws dev (n := 16) (by decide) h
  | border => exact rasterizeBorder_draws dev (n := 16) (by decide) h
  | activeBorder m n _ hm hn hsum =>
      have hfirst := rasterizeActiveArea_draws dev hm h
      exact hsum ▸ hfirst.trans (rasterizeBorder_draws dev hn hfirst.settled.armed)
  | borderActive m n _ hm hn hsum =>
      have hfirst := rasterizeBorder_draws dev hm h
      exact hsum ▸ hfirst.trans (rasterizeActiveArea_draws dev hn hfirst.settled.armed)

theorem rasterize_events (dev : Devices δ) {r : Raster δ} (h : r.io.Armed) :
    (r.rasterize dev).io.events =
        r.io.events ++ (.rasterize :: r.io.due ++ List.replicate 16 .pixel) ∧
      (r.rasterize dev).io.Settled := by
  have hdraws := Cut.draws dev (r := r.beginRasterize) h (drawSlice_cut _ _ _)
  constructor
  · have hdue : r.beginRasterize.io.due = r.io.due := rfl
    rw [rasterize, hdraws.events, hdue]
    simp [beginRasterize, Io.log]
  · exact hdraws.settled

theorem mem_rasterize (dev : Devices δ) {r : Raster δ} (h : r.io.Armed) :
    (r.rasterize dev).mem = r.toBus.dueMem := by
  have hinv : (r.rasterize dev).io.Armed ∧ (r.rasterize dev).toBus.dueMem = r.toBus.dueMem := by
    refine rasterize_invariant (P := fun b => b.io.Armed ∧ b.dueMem = r.toBus.dueMem)
      (fun _ _ hb => hb) ?_ ⟨h, rfl⟩
    rintro b colorIdx ⟨harmed, hdue⟩
    have hsettled := (Bus.tryToCommit_spec dev colorIdx harmed).2
    refine ⟨hsettled.armed, ?_⟩
    rw [Bus.dueMem_of_settled hsettled, Bus.mem_tryToCommit dev colorIdx harmed, hdue]
  have hsettled := (rasterize_events dev h).2
  rw [← hinv.2]
  exact (Bus.dueMem_of_settled hsettled).symm

end Raster

end V6Emul
