import V6Emul.Display.Model

/-!
# Rasters that draw alike

Drawing reads the ports, the RAM and the beam, and changes the bus through
`TryToCommit` only.  A relation between two rasters that the parts of a slice respect is
kept by a slice.  Where the displays are equal it is one between the buses; what holds of
one bus is kept in the same way.
-/

namespace V6Emul

variable {δ : Type}

structure Bus.Bisimulation (dev : Devices δ) (R : Bus δ → Bus δ → Prop) : Prop where
  state : ∀ {b b'}, R b b' → b.io.state = b'.io.state
  ram : ∀ {b b'}, R b b' → b.mem.ram = b'.mem.ram
  log : ∀ {b b'}, R b b' → ∀ event,
    R { b with io := b.io.log event } { b' with io := b'.io.log event }
  commit : ∀ {b b'}, R b b' → ∀ colorIdx,
    R (b.tryToCommit dev colorIdx) (b'.tryToCommit dev colorIdx)

namespace Raster

/-! ## What a slice looks at -/

structure LooksAlike (r r' : Raster δ) : Prop where
  framebufferIdx : r.display.update.framebufferIdx = r'.display.update.framebufferIdx
  scrollIdx : r.display.update.scrollIdx = r'.display.update.scrollIdx
  borderLeft : r.display.borderLeft = r'.display.borderLeft
  ram : r.mem.ram = r'.mem.ram
  palette : r.io.state.palette = r'.io.state.palette
  portA : r.io.state.ports.portA = r'.io.state.ports.portA
  brdColorIdx : r.io.state.brdColorIdx = r'.io.state.brdColorIdx
  displayMode : r.io.state.displayMode = r'.io.state.displayMode
  outCommitTimer : r.io.state.outCommitTimer = r'.io.state.outCommitTimer
  paletteCommitTimer : r.io.state.paletteCommitTimer = r'.io.state.paletteCommitTimer

namespace LooksAlike

variable {r r' : Raster δ} (h : LooksAlike r r')
include h

theorem idx : r.display.idx = r'.display.idx := congrArg BitVec.toInt h.framebufferIdx

theorem rasterLine : r.display.rasterLine = r'.display.rasterLine :=
  congrArg (fun idx : Int => idx.tdiv frameW) h.idx

theorem rasterPixel : r.display.rasterPixel = r'.display.rasterPixel :=
  congrArg (fun idx : Int => idx.tmod frameW) h.idx

theorem rasterLineScrolled : r.display.rasterLineScrolled = r'.display.rasterLineScrolled := by
  rw [Display.rasterLineScrolled, h.scrollIdx, h.rasterLine, Display.rasterLineScrolled]

theorem getScreenBytes (line pixel : Int) :
    r.getScreenBytes line pixel = r'.getScreenBytes line pixel := by
  simp only [Raster.getScreenBytes, Memory.getScreenBytes, Display.screenAddrOffset, h.borderLeft,
    h.ram]

theorem getColor (colorIdx : BitVec 4) :
    r.io.state.getColor colorIdx = r'.io.state.getColor colorIdx :=
  congrFun h.palette colorIdx.toFin

theorem getBorderColor : r.io.state.getBorderColor = r'.io.state.getBorderColor := by
  rw [IoState.getBorderColor, h.getColor, h.brdColorIdx, IoState.getBorderColor]

end LooksAlike

structure Bisimulation (dev : Devices δ) (R : Raster δ → Raster δ → Prop) : Prop where
  looks : ∀ {r r'}, R r r' → LooksAlike r r'
  beginRasterize : ∀ {r r'}, R r r' → R r.beginRasterize r'.beginRasterize
  store : ∀ {r r'}, R r r' → ∀ color, R (r.store color) (r'.store color)
  commit : ∀ {r r'}, R r r' → ∀ colorIdx,
    R (r.tryToCommit dev colorIdx) (r'.tryToCommit dev colorIdx)
  wrapFrame : ∀ {r r'}, R r r' →
    R (r.setDisplay Display.wrapFrame) (r'.setDisplay Display.wrapFrame)
  scroll : ∀ {r r'}, R r r' → ∀ portA,
    R (r.setDisplay fun d => { d with update := { d.update with scrollIdx := portA } })
      (r'.setDisplay fun d => { d with update := { d.update with scrollIdx := portA } })

theorem rel_ite {α : Type} {R : α → α → Prop} {c : Prop} [Decidable c] {a a' b b' : α} (ha : R a a')
    (hb : R b b') : R (if c then a else b) (if c then a' else b') := by
  split
  · exact ha
  · exact hb

structure Scan.Alike (R : Raster δ → Raster δ → Prop) (s s' : Scan δ) : Prop where
  screenBytes : s.screenBytes = s'.screenBytes
  bitIdx : s.bitIdx = s'.bitIdx
  raster : R s.raster s'.raster

namespace Bisimulation

variable {dev : Devices δ} {R : Raster δ → Raster δ → Prop} {r r' : Raster δ}
  (hR : Bisimulation dev R)
include hR

/-! ## Pixels -/

theorem borderPixel (h : R r r') : R (r.borderPixel dev) (r'.borderPixel dev) := by
  have hcommit := hR.commit h r.io.state.brdColorIdx
  have hstore := hR.store hcommit (r.tryToCommit dev r.io.state.brdColorIdx).io.state.getBorderColor
  simp only [Raster.borderPixel, ← (hR.looks h).brdColorIdx, ← (hR.looks hcommit).getBorderColor]
  exact hR.wrapFrame hstore

theorem latchScroll (h : R r r') (line : Int) : R (r.latchScroll line) (r'.latchScroll line) := by
  simp only [Raster.latchScroll, ← (hR.looks h).rasterPixel, ← (hR.looks h).portA]
  split
  · exact hR.scroll h r.io.state.ports.portA
  · exact h

theorem reload {s s' : Scan δ} (h : s.Alike R s') (mode : PixelMode) (lineScrolled pixel : Int) :
    Scan.Alike R (Raster.reload mode lineScrolled pixel s)
      (Raster.reload mode lineScrolled pixel s') := by
  simp only [Raster.reload, h.bitIdx]
  split
  · exact ⟨(hR.looks h.raster).getScreenBytes lineScrolled pixel, rfl, h.raster⟩
  · exact h

theorem activePixel {s s' : Scan δ} (h : s.Alike R s') (mode : PixelMode) (lineScrolled : Int)
    (i : Nat) :
    Scan.Alike R (Raster.activePixel mode lineScrolled i s)
      (Raster.activePixel mode lineScrolled i s') := by
  have hstore := hR.store h.raster
    (s.raster.io.state.getColor (mode.colorIdx s.screenBytes (BitVec.ofInt 8 s.bitIdx)))
  simp only [Raster.activePixel, ← (hR.looks h.raster).getColor, ← h.screenBytes, ← h.bitIdx,
    ← (hR.looks hstore).rasterPixel]
  refine hR.reload ?_ mode lineScrolled _
  exact ⟨rfl, rfl, hstore⟩

theorem activePixelPortHandling {s s' : Scan δ} (h : s.Alike R s') (mode : PixelMode)
    (line lineScrolled : Int) (i : Nat) :
    Scan.Alike R (Raster.activePixelPortHandling dev mode line lineScrolled i s)
      (Raster.activePixelPortHandling dev mode line lineScrolled i s') := by
  have hcommit := hR.commit (hR.latchScroll h.raster line)
    (mode.colorIdx s.screenBytes (BitVec.ofInt 8 s.bitIdx))
  simp only [Raster.activePixelPortHandling, ← h.screenBytes, ← h.bitIdx,
    ← (hR.looks hcommit).getColor, ← (hR.looks h.raster).rasterPixel]
  refine hR.reload ?_ mode lineScrolled _
  exact ⟨rfl, rfl, hR.store hcommit _⟩

/-! ## Slices -/

theorem fillBorder (h : R r r') (n : Int) : R (r.fillBorder n) (r'.fillBorder n) := by
  simp only [Raster.fillBorder, ← (hR.looks h).getBorderColor]
  exact Runs.after_related (R := R) (fun _ _ _ hs => hR.store hs _) h n.toNat

theorem fillBorderPortHandling (h : R r r') (n : Int) :
    R (r.fillBorderPortHandling dev n) (r'.fillBorderPortHandling dev n) :=
  Runs.after_related (R := R) (fun _ _ _ hs => hR.borderPixel hs) h n.toNat

theorem startScan (h : R r r') (mode : PixelMode) :
    Scan.Alike R (Raster.startScan mode r) (Raster.startScan mode r') := by
  have hlooks := hR.looks h
  constructor
  · simp only [Raster.startScan, ← hlooks.rasterLineScrolled, ← hlooks.rasterPixel]
    exact hlooks.getScreenBytes _ _
  · simp only [Raster.startScan, hlooks.idx, hlooks.borderLeft]
  · exact h

theorem fillActiveArea (h : R r r') (mode : PixelMode) (n : Int) :
    R (r.fillActiveArea mode n) (r'.fillActiveArea mode n) := by
  simp only [Raster.fillActiveArea, ← (hR.looks h).rasterLineScrolled]
  exact (Runs.after_related (R := Scan.Alike R) (fun i _ _ hs => hR.activePixel hs mode _ i)
    (hR.startScan h mode) n.toNat).raster

theorem fillActiveAreaPortHandling (h : R r r') (mode : PixelMode) (n : Int) :
    R (r.fillActiveAreaPortHandling dev mode n) (r'.fillActiveAreaPortHandling dev mode n) := by
  simp only [Raster.fillActiveAreaPortHandling, ← (hR.looks h).rasterLineScrolled,
    ← (hR.looks h).rasterLine]
  exact (Runs.after_related (R := Scan.Alike R)
    (fun i _ _ hs => hR.activePixelPortHandling hs mode _ _ i)
    (hR.startScan h mode) n.toNat).raster

theorem rasterizeActiveArea (h : R r r') (n : Int) :
    R (r.rasterizeActiveArea dev n) (r'.rasterizeActiveArea dev n) := by
  have hlooks := hR.looks h
  simp only [Raster.rasterizeActiveArea, ← hlooks.outCommitTimer, ← hlooks.paletteCommitTimer,
    ← hlooks.rasterLine, ← hlooks.rasterPixel, ← hlooks.borderLeft, ← hlooks.displayMode]
  repeat' split
  · exact hR.fillActiveAreaPortHandling h mode256 n
  · exact hR.fillActiveAreaPortHandling h mode512 n
  · exact hR.fillActiveArea h mode256 n
  · exact hR.fillActiveArea h mode512 n

theorem rasterizeBorder (h : R r r') (n : Int) :
    R (r.rasterizeBorder dev n) (r'.rasterizeBorder dev n) := by
  have hlooks := hR.looks h
  simp only [Raster.rasterizeBorder, ← hlooks.outCommitTimer, ← hlooks.paletteCommitTimer,
    ← hlooks.rasterLine]
  split
  · exact hR.fillBorderPortHandling h n
  · exact hR.fillBorder h n

theorem drawSlice {active border : Int → Raster δ → Raster δ}
    (hactive : ∀ n s s', R s s' → R (active n s) (active n s'))
    (hborder : ∀ n s s', R s s' → R (border n s) (border n s')) (h : R r r') :
    R (Raster.drawSlice active border r) (Raster.drawSlice active border r') := by
  have hlooks := hR.looks h
  simp only [Raster.drawSlice, Display.activeAreaRight, ← hlooks.rasterLine, ← hlooks.rasterPixel,
    ← hlooks.borderLeft]
  refine rel_ite ?_ ?_
  · exact rel_ite (hborder _ _ _ (hactive _ _ _ h)) (hactive _ _ _ h)
  · exact rel_ite (hactive _ _ _ (hborder _ _ _ h)) (hborder _ _ _ h)

theorem rasterize (h : R r r') : R (r.rasterize dev) (r'.rasterize dev) :=
  hR.drawSlice (fun n _ _ hs => hR.rasterizeActiveArea hs n)
    (fun n _ _ hs => hR.rasterizeBorder hs n) (hR.beginRasterize h)

end Bisimulation

/-! ## Equal displays -/

variable {dev : Devices δ} {R : Bus δ → Bus δ → Prop}

structure Alike (R : Bus δ → Bus δ → Prop) (r r' : Raster δ) : Prop where
  bus : R r.toBus r'.toBus
  display : r.display = r'.display

theorem Alike.looks (hR : Bus.Bisimulation dev R) {r r' : Raster δ} (h : Alike R r r') :
    LooksAlike r r' := by
  have hstate := hR.state h.bus
  constructor
  · rw [h.display]
  · rw [h.display]
  · rw [h.display]
  · exact hR.ram h.bus
  all_goals rw [hstate]

theorem Alike.setDisplay {r r' : Raster δ} (h : Alike R r r') (f : Display → Display) :
    Alike R (r.setDisplay f) (r'.setDisplay f) :=
  ⟨h.bus, congrArg f h.display⟩

theorem alike_bisimulation (hR : Bus.Bisimulation dev R) : Bisimulation dev (Alike R) := by
  constructor
  · exact fun h => h.looks hR
  · intro r r' h
    exact ⟨hR.log h.bus .rasterize, congrArg (fun d : Display =>
      { d with update := { d.update with irq := false } }) h.display⟩
  · exact fun h color =>
      ⟨hR.log h.bus .pixel, congrArg (Display.store (vectorColorToArgb color)) h.display⟩
  · exact fun h colorIdx => ⟨hR.commit h.bus colorIdx, h.display⟩
  · exact fun h => h.setDisplay _
  · exact fun h portA => h.setDisplay _

theorem Alike.rasterize {r r' : Raster δ} (hR : Bus.Bisimulation dev R) (h : Alike R r r') :
    Alike R (r.rasterize dev) (r'.rasterize dev) :=
  (alike_bisimulation hR).rasterize h

theorem rasterize_invariant {P : Bus δ → Prop}
    (hlog : ∀ b event, P b → P { b with io := b.io.log event })
    (hcommit : ∀ b colorIdx, P b → P (b.tryToCommit dev colorIdx)) {r : Raster δ} (h : P r.toBus) :
    P (r.rasterize dev).toBus := by
  have hsame : Bus.Bisimulation dev fun b b' => b = b' ∧ P b := by
    constructor
    · rintro b b' ⟨rfl, -⟩
      rfl
    · rintro b b' ⟨rfl, -⟩
      rfl
    · rintro b b' ⟨rfl, hb⟩ event
      exact ⟨rfl, hlog b event hb⟩
    · rintro b b' ⟨rfl, hb⟩ colorIdx
      exact ⟨rfl, hcommit b colorIdx hb⟩
  have hrefl : Alike (fun b b' => b = b' ∧ P b) r r := ⟨⟨rfl, h⟩, rfl⟩
  exact (hrefl.rasterize hsame).bus.2

end Raster

end V6Emul
