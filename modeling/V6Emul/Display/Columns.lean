import V6Emul.Display.Picture

/-!
# Byte columns in the active area

A byte of each screen buffer covers sixteen pixels of a line.  The routines for the
active area read the bytes once and again where the bits run out.  With nothing to
commit all of them store a colour for each pixel, and differ in the column that the
bytes behind a seam come from.
-/

namespace V6Emul

variable {δ : Type}

namespace Raster

/-! ## Rows of colours -/

/-- Stores the first `n` of the given colours. -/
def drawn (color : Nat → Byte) (r : Raster δ) (n : Nat) : Raster δ :=
  Runs.after (fun i (s : Raster δ) => s.store (color i)) id r n

section Drawn

variable {color color' : Nat → Byte} {r : Raster δ} {k n : Nat}

theorem drawn_succ : r.drawn color (n + 1) = (r.drawn color n).store (color n) := rfl

theorem drawn_scene : (r.drawn color n).scene = r.scene := by
  induction n with
  | zero => rfl
  | succ n ih => exact ih

theorem drawn_idx (color : Nat → Byte) (hidx : r.display.idx = k) (hn : k + n ≤ frameLen) :
    (r.drawn color n).display.idx = (k + n : Nat) := by
  induction n with
  | zero => exact hidx
  | succ n ih =>
      change ((r.drawn color n).display.store _).idx = _
      rw [Display.store, ih (by omega)]
      exact Display.idx_setIdx _ (k := k + n + 1) hn

theorem drawn_congr (h : ∀ i < n, color i = color' i) : r.drawn color n = r.drawn color' n := by
  induction n with
  | zero => rfl
  | succ n ih =>
      rw [drawn_succ, drawn_succ, ih fun i hi => h i (Nat.lt_succ_of_lt hi),
        h n (Nat.lt_succ_self n)]

theorem drawn_frameBuffer (color : Nat → Byte) (hidx : r.display.idx = k) (hn : k + n ≤ frameLen)
    {i : Nat} (hi : i < n) :
    (r.drawn color n).display.frameBuffer ⟨k + i, by omega⟩ = vectorColorToArgb (color i) := by
  induction n with
  | zero => exact absurd hi (Nat.not_lt_zero i)
  | succ n ih =>
      have hplace := drawn_idx color hidx (Nat.le_of_succ_le hn)
      have hstored : (r.drawn color (n + 1)).display.frameBuffer ⟨k + i, by omega⟩ =
          if ((k + i : Nat) : Int) = (r.drawn color n).display.idx then vectorColorToArgb (color n)
          else (r.drawn color n).display.frameBuffer ⟨k + i, by omega⟩ := rfl
      rw [hstored, hplace]
      rcases Nat.lt_or_eq_of_le (Nat.le_of_lt_succ hi) with hlt | heq
      · rw [if_neg (by omega)]
        exact ih (Nat.le_of_succ_le hn) hlt
      · rw [if_pos (by omega), heq]

def vectorColor (color : Color) : Byte :=
  ((color >>> 5 &&& 7#32) ||| (color >>> 13 &&& 7#32) <<< 3 |||
    (color >>> 22 &&& 3#32) <<< 6).setWidth 8

theorem vectorColor_toArgb : ∀ vColor : Byte, vectorColor (vectorColorToArgb vColor) = vColor := by
  decide +kernel

theorem vectorColorToArgb_injective : Function.Injective vectorColorToArgb :=
  Function.LeftInverse.injective vectorColor_toArgb

theorem drawn_eq_iff (hidx : r.display.idx = k) (hn : k + n ≤ frameLen) :
    r.drawn color n = r.drawn color' n ↔ ∀ i < n, color i = color' i := by
  constructor
  · intro h i hi
    have hleft := drawn_frameBuffer color hidx hn hi
    have hright := drawn_frameBuffer color' hidx hn hi
    rw [h] at hleft
    exact vectorColorToArgb_injective (hleft.symm.trans hright)
  · exact drawn_congr

end Drawn

end Raster

/-! ## Bits in order -/

structure PixelMode.Walk (mode : PixelMode) (o b : Nat) : Prop where
  near : b ≤ o ∧ o ≤ b + 1
  column : o / 16 = b / 16
  start : ∀ offset : Int, 0 ≤ offset → offset % 16 = (o % 16 : Nat) →
    mode.start offset = mode.start (b : Nat)
  wraps : ∀ i, (b + i + 1) % 16 = 0 →
    mode.next i (mode.start (b + i : Nat)) < 0 ∧ mode.top = mode.start (b + i + 1 : Nat)
  stays : ∀ i, (b + i + 1) % 16 ≠ 0 →
    mode.next i (mode.start (b + i : Nat)) = mode.start (b + i + 1 : Nat) ∧
      0 ≤ mode.start (b + i + 1 : Nat)

theorem mode256_start_eq {offset : Int} (hpos : 0 ≤ offset) :
    mode256.start offset = 7 - offset % 16 / 2 := by
  simp only [mode256, rasterizedPxlsMax, Int.tmod_eq_emod_of_nonneg hpos,
    Int.shiftRight_eq_div_pow]
  rfl

theorem mode512_start_eq {offset : Int} (hpos : 0 ≤ offset) :
    mode512.start offset = 15 - offset % 16 := by
  simp only [mode512, rasterizedPxlsMax, Int.tmod_eq_emod_of_nonneg hpos]

theorem mode512_walk (o : Nat) : mode512.Walk o o := by
  refine ⟨by omega, rfl, ?_, ?_, ?_⟩
  · intro offset hpos hsame
    rw [mode512_start_eq hpos, mode512_start_eq (Int.natCast_nonneg o)]
    omega
  · intro i hwrap
    rw [mode512_start_eq (Int.natCast_nonneg _), mode512_start_eq (Int.natCast_nonneg _)]
    simp only [mode512]
    omega
  · intro i hstay
    rw [mode512_start_eq (Int.natCast_nonneg _), mode512_start_eq (Int.natCast_nonneg _)]
    simp only [mode512]
    omega

/-- Two pixels share a bit, and the loop counts them from its start: from an odd offset it
takes every bit one pixel late. -/
theorem mode256_walk (o : Nat) : mode256.Walk o (o / 2 * 2) := by
  refine ⟨by omega, by omega, ?_, ?_, ?_⟩
  · intro offset hpos hsame
    rw [mode256_start_eq hpos, mode256_start_eq (Int.natCast_nonneg _)]
    omega
  · intro i hwrap
    rw [mode256_start_eq (Int.natCast_nonneg _), mode256_start_eq (Int.natCast_nonneg _)]
    simp only [mode256]
    omega
  · intro i hstay
    rw [mode256_start_eq (Int.natCast_nonneg _), mode256_start_eq (Int.natCast_nonneg _)]
    simp only [mode256]
    omega

namespace Raster

/-! ## The two loops -/

/-- The beam stands in the active area, `n` pixels or more before its right edge. -/
structure InActiveArea (n : Nat) (r : Raster δ) : Prop where
  top : scanActiveAreaTop ≤ r.display.rasterLine
  bottom : r.display.rasterLine < scanActiveAreaTop + activeAreaH
  left : r.display.borderLeft ≤ r.display.rasterPixel
  right : r.display.rasterPixel + n ≤ r.display.activeAreaRight

/-- The offset of the beam in the active area. -/
def activeOffset (r : Raster δ) : Nat := (r.display.rasterPixel - r.display.borderLeft).toNat

def columnBytes (r : Raster δ) (column : Nat) : BitVec 32 :=
  r.getScreenBytes r.display.rasterLineScrolled (r.display.borderLeft + 16 * column)

/-- The palette colour that the bit for offset `x` has in column `column`. -/
def shade (mode : PixelMode) (r : Raster δ) (column x : Nat) : Byte :=
  r.io.state.getColor (mode.colorIdx (r.columnBytes column) (BitVec.ofInt 8 (mode.start x)))

theorem getScreenBytes_column (r : Raster δ) {pixel : Int} {x : Nat}
    (h : pixel = r.display.borderLeft + x) :
    r.getScreenBytes r.display.rasterLineScrolled pixel = r.columnBytes (x / 16) := by
  have hcolumn : (pixel - r.display.borderLeft).tdiv rasterizedPxlsMax =
      (r.display.borderLeft + 16 * (x / 16 : Nat) - r.display.borderLeft).tdiv
        rasterizedPxlsMax := by
    rw [Int.tdiv_eq_ediv_of_nonneg (by omega), Int.tdiv_eq_ediv_of_nonneg (by omega)]
    simp only [rasterizedPxlsMax]
    omega
  simp only [columnBytes, getScreenBytes, Display.screenAddrOffset, screenOffset, hcolumn]

section Loops

variable {mode : PixelMode} {r : Raster δ} {column : Nat → Nat} {b i n : Nat}

structure Walked (mode : PixelMode) (r : Raster δ) (column : Nat → Nat) (b n i : Nat)
    (s : Scan δ) : Prop where
  raster : s.raster = r.drawn (fun k => r.shade mode (column k) (b + k)) i
  bits : i < n → s.screenBytes = r.columnBytes (column i) ∧ s.bitIdx = mode.start (b + i : Nat)

theorem getScreenBytes_drawn {color : Nat → Byte} (line pixel : Int) :
    (r.drawn color n).getScreenBytes line pixel = r.getScreenBytes line pixel := by
  have hscene : (r.drawn color n).scene = r.scene := drawn_scene
  have hmem : (r.drawn color n).mem = r.mem := congrArg Scene.mem hscene
  have hborder : (r.drawn color n).display.borderLeft = r.display.borderLeft :=
    congrArg Scene.borderLeft hscene
  simp only [getScreenBytes, Display.screenAddrOffset, hmem, hborder]

theorem Walked.turn {o : Nat} (hwalk : mode.Walk o b) {s : Scan δ} (h : Walked mode r column b n i s)
    (hi : i < n) {pixel : Int}
    (hwraps : (b + i + 1) % 16 = 0 → i + 1 < n →
      ∃ x : Nat, pixel = r.display.borderLeft + x ∧ x / 16 = column (i + 1))
    (hstays : (b + i + 1) % 16 ≠ 0 → column (i + 1) = column i) :
    Walked mode r column b n (i + 1) (reload mode r.display.rasterLineScrolled pixel
      { s with
        bitIdx := mode.next i s.bitIdx
        raster := s.raster.store (s.raster.io.state.getColor
          (mode.colorIdx s.screenBytes (BitVec.ofInt 8 s.bitIdx))) }) := by
  obtain ⟨hbytes, hbit⟩ := h.bits hi
  have hio : s.raster.io.state = r.io.state := by
    rw [h.raster]
    exact congrArg Scene.io drawn_scene
  have hstored : s.raster.store (s.raster.io.state.getColor
      (mode.colorIdx s.screenBytes (BitVec.ofInt 8 s.bitIdx))) =
      r.drawn (fun k => r.shade mode (column k) (b + k)) (i + 1) := by
    rw [drawn_succ, ← h.raster, hio, hbytes, hbit]
    rfl
  rw [hstored, hbit]
  constructor
  · rw [reload_raster]
  · intro hnext
    rcases Decidable.em ((b + i + 1) % 16 = 0) with hwrap | hstay
    · obtain ⟨x, hpixel, hx⟩ := hwraps hwrap hnext
      obtain ⟨hneg, htop⟩ := hwalk.wraps i hwrap
      rw [reload, if_pos hneg, getScreenBytes_drawn, getScreenBytes_column r hpixel, hx]
      exact ⟨rfl, htop⟩
    · obtain ⟨hbitNext, hnonneg⟩ := hwalk.stays i hstay
      rw [reload, hbitNext, if_neg (Int.not_lt.mpr hnonneg), hstays hstay]
      exact ⟨hbytes, rfl⟩

end Loops

section Agreement

variable {mode : PixelMode} {r : Raster δ} {b k n : Nat}

theorem InActiveArea.place (h : r.InActiveArea n)
    (hborder : r.display.borderLeft ≤ frameW - activeAreaW) :
    ∃ k : Nat, r.display.idx = k ∧ k / frameW < 296 ∧ k % frameW + n ≤ frameW ∧
      r.display.rasterLine = (k / frameW : Nat) ∧ r.display.rasterPixel = (k % frameW : Nat) := by
  have hright := h.right
  obtain ⟨k, hk, -, hbottom, hline, hpixel⟩ := ActiveLine.place ⟨h.top, h.bottom⟩
  simp only [hpixel, Display.activeAreaRight, activeAreaW, frameW] at hright hborder ⊢
  exact ⟨k, hk, hbottom, by omega, hline, rfl⟩

/-- `n` pixels from the beam on, one is the pixel that the scroll register is read on. -/
def ReachesScrollCommit (n : Nat) (r : Raster δ) : Prop :=
  r.display.rasterLine = scanActiveAreaTop ∧ r.display.rasterPixel ≤ scrollCommitPxl ∧
    scrollCommitPxl < r.display.rasterPixel + n

theorem drawn_rasterPixel (color : Nat → Byte) (hidx : r.display.idx = k)
    (hline : k % frameW + n < frameW) (hn : k + n ≤ frameLen) :
    (r.drawn color n).display.rasterPixel = (k % frameW + n : Nat) := by
  have hmod : (k + n) % frameW = k % frameW + n := by
    simp only [frameW] at *
    omega
  rw [Display.rasterPixel, drawn_idx _ hidx hn, ← hmod]
  exact Int.ofNat_tmod _ _

theorem startScan_walked (hwalk : mode.Walk r.activeOffset b) (h : r.InActiveArea n)
    (hborder : r.display.borderLeft ≤ frameW - activeAreaW) {column : Nat → Nat}
    (hcolumn : column 0 = b / 16) : Walked mode r column b n 0 (startScan mode r) := by
  obtain ⟨k, hidx, -, -, -, hpixel⟩ := h.place hborder
  have hleft := h.left
  have hoffset : r.display.rasterPixel = r.display.borderLeft + r.activeOffset := by
    rw [activeOffset]
    omega
  refine ⟨rfl, fun _ => ⟨?_, ?_⟩⟩
  · rw [hcolumn, ← hwalk.column]
    exact getScreenBytes_column r hoffset
  · simp only [frameW] at hpixel
    exact hwalk.start _ (by omega) (by omega)

theorem fillActiveArea_drawn (hwalk : mode.Walk r.activeOffset b) (h : r.InActiveArea n)
    (hborder : r.display.borderLeft ≤ frameW - activeAreaW) :
    r.fillActiveArea mode n = r.drawn (fun i => r.shade mode ((b + i) / 16) (b + i)) n := by
  obtain ⟨k, hidx, hline, hroom, -, hpixel⟩ := h.place hborder
  have hwalked : Walked mode r (fun i => (b + i) / 16) b n n
      (Runs.after (activePixel mode r.display.rasterLineScrolled) id (startScan mode r) n) := by
    refine Runs.after_counted (P := fun i (s : Scan δ) => Walked mode r _ b n i s) ?_
      (startScan_walked hwalk h hborder rfl)
    intro i s hi hs
    have hnear := hwalk.near
    have hleft := h.left
    refine hs.turn hwalk hi ?_ ?_
    · intro hwrap hnext
      have hstored := drawn_rasterPixel (fun k => r.shade mode ((b + k) / 16) (b + k))
        (n := i + 1) hidx (by omega) (by simp only [frameLen, frameW, frameH] at *; omega)
      rw [drawn_succ, ← hs.raster] at hstored
      have hany : ∀ color color', (s.raster.store color).display.rasterPixel =
          (s.raster.store color').display.rasterPixel := fun _ _ => rfl
      refine ⟨r.activeOffset + i + 1, (hany _ _).trans (hstored.trans ?_), by omega⟩
      rw [activeOffset]
      omega
    · intro hstay
      omega
  exact hwalked.raster

theorem fillActiveAreaPortHandling_drawn (dev : Devices δ) (hwalk : mode.Walk r.activeOffset b)
    (h : r.InActiveArea n) (hborder : r.display.borderLeft ≤ frameW - activeAreaW) (hn : n ≤ 16)
    (hidle : r.io.state.Idle) (hscroll : ¬ r.ReachesScrollCommit n) :
    r.fillActiveAreaPortHandling dev mode n = r.drawn (fun i =>
      r.shade mode (if r.activeOffset = b then b / 16 else (b + i) / 16) (b + i)) n := by
  obtain ⟨k, hidx, hline, hroom, -, hpixel⟩ := h.place hborder
  have hwalked : Walked mode r
      (fun i => if r.activeOffset = b then b / 16 else (b + i) / 16) b n n
      (Runs.after (activePixelPortHandling dev mode r.display.rasterLine
        r.display.rasterLineScrolled) id (startScan mode r) n) := by
    refine Runs.after_counted (P := fun i (s : Scan δ) => Walked mode r _ b n i s) ?_
      (startScan_walked hwalk h hborder (ite_self _))
    intro i s hi hs
    have hnear := hwalk.near
    have hleft := h.left
    have hplace : s.raster.display.rasterPixel = r.display.rasterPixel + i := by
      rw [hs.raster, drawn_rasterPixel _ hidx (by omega)
        (by simp only [frameLen, frameW, frameH] at *; omega), hpixel]
      omega
    have hlatch : s.raster.latchScroll r.display.rasterLine = s.raster := by
      refine if_neg fun hcommit => hscroll ⟨hcommit.1, ?_, ?_⟩ <;> omega
    have hstill : s.raster.io.state.Idle := by
      have hscene : s.raster.scene = r.scene := hs.raster ▸ drawn_scene
      have hio : s.raster.io.state = r.io.state := congrArg Scene.io hscene
      exact hio ▸ hidle
    simp only [activePixelPortHandling, hlatch, tryToCommit_idle dev _ hstill]
    refine hs.turn hwalk hi ?_ ?_
    · intro hwrap hnext
      refine ⟨r.activeOffset + i, hplace.trans ?_, ?_⟩
      · rw [activeOffset]
        omega
      · split <;> omega
    · intro hstay
      split <;> omega
  exact hwalked.raster

/-- From the first seam behind the beam on, `n` pixels have the same colours in the column
before the seam as in their own. -/
def SeamHidden (mode : PixelMode) (n : Nat) (r : Raster δ) : Prop :=
  ∀ i < n, 16 ≤ r.activeOffset % 16 + i →
    r.shade mode (r.activeOffset / 16) (r.activeOffset + i) =
      r.shade mode (r.activeOffset / 16 + 1) (r.activeOffset + i)

theorem portHandling_eq_iff_seamHidden (dev : Devices δ)
    (hwalk : mode.Walk r.activeOffset r.activeOffset) (h : r.InActiveArea n)
    (hborder : r.display.borderLeft ≤ frameW - activeAreaW) (hn : n ≤ 16)
    (hidle : r.io.state.Idle) (hscroll : ¬ r.ReachesScrollCommit n) :
    r.fillActiveAreaPortHandling dev mode n = r.fillActiveArea mode n ↔ r.SeamHidden mode n := by
  obtain ⟨k, hidx, hline, hroom, -, -⟩ := h.place hborder
  rw [fillActiveArea_drawn hwalk h hborder,
    fillActiveAreaPortHandling_drawn dev hwalk h hborder hn hidle hscroll,
    drawn_eq_iff hidx (by simp only [frameLen, frameW, frameH] at *; omega)]
  simp only [if_true]
  have hnext : ∀ i < n, 16 ≤ r.activeOffset % 16 + i →
      (r.activeOffset + i) / 16 = r.activeOffset / 16 + 1 := by
    intro i hi hbehind
    omega
  constructor
  · intro hsame i hi hbehind
    rw [← hnext i hi hbehind]
    exact hsame i hi
  · intro hhidden i hi
    rcases Nat.lt_or_ge (r.activeOffset % 16 + i) 16 with hbefore | hbehind
    · have hown : (r.activeOffset + i) / 16 = r.activeOffset / 16 := by omega
      rw [hown]
    · rw [hnext i hi hbehind]
      exact hhidden i hi hbehind

theorem portHandling_eq_of_odd (dev : Devices δ) (hodd : r.activeOffset % 2 = 1)
    (h : r.InActiveArea n) (hborder : r.display.borderLeft ≤ frameW - activeAreaW) (hn : n ≤ 16)
    (hidle : r.io.state.Idle) (hscroll : ¬ r.ReachesScrollCommit n) :
    r.fillActiveAreaPortHandling dev mode256 n = r.fillActiveArea mode256 n := by
  have hwalk := mode256_walk r.activeOffset
  rw [fillActiveArea_drawn hwalk h hborder,
    fillActiveAreaPortHandling_drawn dev hwalk h hborder hn hidle hscroll]
  refine drawn_congr fun i hi => ?_
  rw [if_neg (by omega)]

end Agreement

/-! ## Agreement -/

/-- With nothing to commit the routines for a mode agree where no seam shows: no seam lies
between the pixels, or both of its columns give them the same colours. -/
theorem fillActiveArea_eq_portHandling_iff (dev : Devices δ) {r : Raster δ} {n : Nat}
    (hn : n ≤ 16) (h : r.InActiveArea n) (hborder : r.display.borderLeft ≤ frameW - activeAreaW)
    (hidle : r.io.state.Idle) (hscroll : ¬ r.ReachesScrollCommit n) :
    (r.fillActiveArea256PortHandling dev n = r.fillActiveArea256 n ↔
      (r.activeOffset % 2 = 0 → r.SeamHidden mode256 n)) ∧
    (r.fillActiveArea512PortHandling dev n = r.fillActiveArea512 n ↔ r.SeamHidden mode512 n) := by
  constructor
  · rcases Nat.mod_two_eq_zero_or_one r.activeOffset with heven | hodd
    · have hwalk : mode256.Walk r.activeOffset r.activeOffset := by
        have hstart : r.activeOffset / 2 * 2 = r.activeOffset := by omega
        have hwalk := mode256_walk r.activeOffset
        rwa [hstart] at hwalk
      have hiff := portHandling_eq_iff_seamHidden dev hwalk h hborder hn hidle hscroll
      exact hiff.trans ⟨fun hhidden _ => hhidden, fun hhidden => hhidden heven⟩
    · have hsame := portHandling_eq_of_odd dev hodd h hborder hn hidle hscroll
      exact iff_of_true hsame fun heven => absurd heven (by omega)
  · exact portHandling_eq_iff_seamHidden dev (mode512_walk _) h hborder hn hidle hscroll

def striped : Raster Unit where
  mem := .ofRam fun addr => if addr.val / 256 % 2 = 0 then 0x00 else 0xFF
  io := (Io.new ()).setState { IoState.zero.init with
    palette := fun colorIdx => if colorIdx = 0 then 0x00 else 0x07 }
  display := Display.setIdx (768 * 100 + 128) { Display.new with borderLeft := 120 }

theorem striped_inside {n : Nat} (hn : n ≤ 16) : striped.InActiveArea n := by
  have hpixel : striped.display.rasterPixel = 128 := by decide
  have hright : striped.display.activeAreaRight = 632 := by decide
  refine ⟨by decide, by decide, by decide, ?_⟩
  rw [hpixel, hright]
  omega

theorem striped_idle : striped.io.state.Idle := ⟨by decide, by decide, by decide⟩

theorem fillActiveArea_eq_portHandling_striped :
    striped.fillActiveArea256PortHandling .silent (8 : Nat) = striped.fillActiveArea256 (8 : Nat) ∧
    striped.fillActiveArea512PortHandling .silent (8 : Nat) = striped.fillActiveArea512 (8 : Nat) := by
  have hinside := striped_inside (n := 8) (by decide)
  have hoffset : striped.activeOffset = 8 := by decide
  have hiff := fillActiveArea_eq_portHandling_iff .silent (by decide) hinside (by decide)
    striped_idle (fun hcommit => absurd hcommit.1 (by decide))
  have hhidden (mode : PixelMode) : striped.SeamHidden mode 8 := by
    intro i hi hbehind
    rw [hoffset] at hbehind
    omega
  exact ⟨hiff.1.mpr fun _ => hhidden _, hiff.2.mpr (hhidden _)⟩

/-- Sixteen pixels cross the seam, and the two routines of a mode draw different ones. -/
theorem striped_portHandling_differs :
    striped.InActiveArea 16 ∧ striped.io.state.Idle ∧ ¬ striped.ReachesScrollCommit 16 ∧
    0 ≤ striped.display.borderLeft ∧ striped.display.borderLeft ≤ frameW - activeAreaW ∧
    striped.fillActiveArea256PortHandling .silent 16 ≠ striped.fillActiveArea256 16 ∧
    striped.fillActiveArea512PortHandling .silent 16 ≠ striped.fillActiveArea512 16 := by
  have hinside := striped_inside (n := 16) (by decide)
  have hscroll : ¬ striped.ReachesScrollCommit 16 := fun hcommit => absurd hcommit.1 (by decide)
  have hborder : striped.display.borderLeft ≤ frameW - activeAreaW := by decide
  have hoffset : striped.activeOffset = 8 := by decide
  have hwalk : mode256.Walk striped.activeOffset striped.activeOffset := by
    have hwalk := mode256_walk striped.activeOffset
    rwa [hoffset] at hwalk ⊢
  refine ⟨hinside, striped_idle, hscroll, by decide, hborder, ?_, ?_⟩
  · intro hsame
    have hhidden := (portHandling_eq_iff_seamHidden .silent hwalk hinside hborder (by decide)
      striped_idle hscroll).mp hsame
    exact absurd (hhidden 8 (by decide) (by decide)) (by decide)
  · intro hsame
    have hhidden := (portHandling_eq_iff_seamHidden .silent (mode512_walk _) hinside hborder
      (by decide) striped_idle hscroll).mp hsame
    exact absurd (hhidden 8 (by decide) (by decide)) (by decide)

end Raster

end V6Emul
