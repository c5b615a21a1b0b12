import V6Emul.Display.Pixels

/-!
# The arithmetic of the left border

The sums and differences that the rasteriser forms with the left border are `int`s.
All of them are small but one, the right end of the active area, which is formed on
every line that crosses it.
-/

namespace V6Emul

variable {δ : Type}

def FitsInt (value : Int) : Prop := -2 ^ 31 ≤ value ∧ value < 2 ^ 31

instance (value : Int) : Decidable (FitsInt value) := inferInstanceAs (Decidable (_ ∧ _))

def Display.screenValues (pixel : Int) (d : Display) : List Int :=
  [pixel - d.borderLeft, (pixel - d.borderLeft).tdiv rasterizedPxlsMax * 256]

namespace Raster

/-! ## The values of a call -/

def turnValues (mode : PixelMode) (ports : Bool) (scan : Nat → Scan δ) (i : Nat) : List Int :=
  if mode.next i (scan i).bitIdx < 0 then
    let pixel :=
      if ports then (scan i).raster.display.rasterPixel
      else (scan (i + 1)).raster.display.rasterPixel
    (scan i).raster.display.screenValues pixel
  else []

def fillValues (mode : PixelMode) (ports : Bool) (scan : Nat → Scan δ) (n : Int) (r : Raster δ) :
    List Int :=
  r.display.screenValues r.display.rasterPixel ++ [r.display.idx - r.display.borderLeft] ++
    (List.range n.toNat).flatMap (turnValues mode ports scan)

def rasterizeActiveAreaValues (dev : Devices δ) (n : Int) (r : Raster δ) : List Int :=
  (if r.display.rasterLine = scanActiveAreaTop then [r.display.borderLeft + rasterizedPxlsMax]
    else []) ++
    fillValues r.scene.mode r.handlesPorts (fun k => r.activeScan dev k) n r

def redrawActiveAreaValues (n : Int) (r : Raster δ) : List Int :=
  let scan := Runs.after (activePixel r.scene.mode r.display.rasterLineScrolled) id
    (startScan r.scene.mode r)
  fillValues r.scene.mode false scan n r

instance (r : Raster δ) : Decidable r.ActiveLine := inferInstanceAs (Decidable (_ ∧ _))

def sliceValues (active : Int → Raster δ → List Int) (border : Int → Raster δ → Raster δ)
    (r : Raster δ) : List Int :=
  let pixel := r.display.rasterPixel
  let right := r.display.activeAreaRight
  if r.ActiveLine then
    if r.display.borderLeft ≤ pixel ∧ pixel < right then
      [right, right - pixel] ++ active (min (right - pixel) rasterizedPxlsMax) r
    else if right ≤ pixel then [right]
    else
      let n := min (r.display.borderLeft - pixel) rasterizedPxlsMax
      [right, r.display.borderLeft - pixel] ++
        if n < rasterizedPxlsMax then active (rasterizedPxlsMax - n) (border n r) else []
  else []

def rasterizeValues (dev : Devices δ) (r : Raster δ) : List Int :=
  sliceValues (rasterizeActiveAreaValues dev) (rasterizeBorder dev) r.beginRasterize

def frameBuffUpdateValues (r : Raster δ) : List Int :=
  (List.range slicesPerFrame).flatMap fun i =>
    sliceValues redrawActiveAreaValues fillBorder ((r.setDisplay (Display.setIdx 0)).redrawSlices i)

/-! ## Small values -/

theorem tmod_bounds (value : Int) {width : Int} (hpos : 0 < width) :
    -width < value.tmod width ∧ value.tmod width < width :=
  ⟨Int.lt_tmod_of_pos _ hpos, Int.tmod_lt_of_pos _ hpos⟩

theorem rasterPixel_bounds (d : Display) : -768 < d.rasterPixel ∧ d.rasterPixel < 768 :=
  tmod_bounds d.idx (by decide)

theorem screenValues_fit {d : Display} (hleft : -2048 ≤ d.borderLeft ∧ d.borderLeft ≤ 2048)
    {pixel : Int} (hpixel : -768 < pixel ∧ pixel < 768) :
    ∀ value ∈ d.screenValues pixel, FitsInt value := by
  have hsplit := Int.mul_tdiv_add_tmod (pixel - d.borderLeft) 16
  have hrest : -16 < (pixel - d.borderLeft).tmod 16 ∧ (pixel - d.borderLeft).tmod 16 < 16 :=
    tmod_bounds _ (by decide)
  intro value hvalue
  simp only [Display.screenValues, List.mem_cons, List.not_mem_nil, or_false,
    rasterizedPxlsMax] at hvalue
  rcases hvalue with rfl | rfl
  · exact ⟨by omega, by omega⟩
  · exact ⟨by omega, by omega⟩

theorem turnValues_fit {mode : PixelMode} {ports : Bool} {scan : Nat → Scan δ} {i : Nat}
    (hleft : -2048 ≤ (scan i).raster.display.borderLeft ∧
      (scan i).raster.display.borderLeft ≤ 2048) :
    ∀ value ∈ turnValues mode ports scan i, FitsInt value := by
  rw [turnValues]
  split
  · refine screenValues_fit hleft ?_
    split
    · exact rasterPixel_bounds _
    · exact rasterPixel_bounds _
  · exact fun value hvalue => absurd hvalue List.not_mem_nil

structure NearBorder (r : Raster δ) : Prop where
  left : -2048 ≤ r.display.borderLeft ∧ r.display.borderLeft ≤ 2048
  idx : 0 ≤ r.display.idx ∧ r.display.idx ≤ frameLen

theorem fillValues_fit {mode : PixelMode} {ports : Bool} {scan : Nat → Scan δ} {r : Raster δ}
    (h : r.NearBorder)
    (hscan : ∀ i, (scan i).raster.display.borderLeft = r.display.borderLeft) (n : Int) :
    ∀ value ∈ fillValues mode ports scan n r, FitsInt value := by
  intro value hvalue
  simp only [fillValues, List.mem_append, List.mem_singleton, List.mem_flatMap] at hvalue
  rcases hvalue with (hstart | rfl) | ⟨i, -, hturn⟩
  · exact screenValues_fit h.left (rasterPixel_bounds _) value hstart
  · have hlen : frameLen = 239616 := rfl
    obtain ⟨hleft, hidx⟩ := h
    exact ⟨by omega, by omega⟩
  · exact turnValues_fit (hscan i ▸ h.left) value hturn

/-! ## The border keeps its place -/

theorem borderLeft_activePixel (mode : PixelMode) (lineScrolled : Int) (i : Nat) (s : Scan δ) :
    (activePixel mode lineScrolled i s).raster.display.borderLeft =
      s.raster.display.borderLeft := by
  rw [activePixel, reload_raster]
  rfl

theorem borderLeft_activePixelPortHandling (dev : Devices δ) (mode : PixelMode)
    (line lineScrolled : Int) (i : Nat) (s : Scan δ) :
    (activePixelPortHandling dev mode line lineScrolled i s).raster.display.borderLeft =
      s.raster.display.borderLeft := by
  rw [activePixelPortHandling, reload_raster, latchScroll]
  split <;> rfl

theorem borderLeft_activeScan (dev : Devices δ) (r : Raster δ) (k : Nat) :
    (r.activeScan dev k).raster.display.borderLeft = r.display.borderLeft := by
  induction k with
  | zero => rfl
  | succ k ih =>
      rw [activeScan_succ]
      split
      · exact (borderLeft_activePixelPortHandling _ _ _ _ _ _).trans ih
      · exact (borderLeft_activePixel _ _ _ _).trans ih

theorem rasterizeActiveAreaValues_fit (dev : Devices δ) {r : Raster δ} (h : r.NearBorder)
    (n : Int) : ∀ value ∈ r.rasterizeActiveAreaValues dev n, FitsInt value := by
  intro value hvalue
  rw [rasterizeActiveAreaValues, List.mem_append] at hvalue
  rcases hvalue with hscroll | hfill
  · split at hscroll
    · simp only [List.mem_singleton, rasterizedPxlsMax] at hscroll
      have hleft := h.left
      rw [hscroll]
      exact ⟨by omega, by omega⟩
    · exact absurd hscroll List.not_mem_nil
  · exact fillValues_fit h (borderLeft_activeScan dev r) n value hfill

theorem redrawActiveAreaValues_fit {r : Raster δ} (h : r.NearBorder) (n : Int) :
    ∀ value ∈ r.redrawActiveAreaValues n, FitsInt value := by
  refine fillValues_fit h (fun i => ?_) n
  exact Runs.after_invariant
    (fun s : Scan δ => s.raster.display.borderLeft = r.display.borderLeft) rfl
    (fun _ hs => (borderLeft_activePixel _ _ _ _).trans hs) i

def Moves (draw : Int → Raster δ → Raster δ) : Prop :=
  ∀ (r : Raster δ) (k m : Nat), r.display.idx = k → k + m < frameLen →
    (draw m r).display.idx = (k + m : Nat) ∧
      (draw m r).display.borderLeft = r.display.borderLeft

theorem store_moves {r : Raster δ} {k : Nat} (hidx : r.display.idx = k) (hroom : k < frameLen)
    (color : Byte) : (r.store color).display.idx = (k + 1 : Nat) := by
  change (r.display.store _).idx = _
  rw [Display.store, hidx]
  exact Display.idx_setIdx _ (k := k + 1) hroom

theorem fillBorder_moves : Moves (fillBorder (δ := δ)) := by
  intro r k m hidx hroom
  refine Runs.after_counted (P := fun i (s : Raster δ) =>
    s.display.idx = (k + i : Nat) ∧ s.display.borderLeft = r.display.borderLeft) ?_ ⟨hidx, rfl⟩
  rintro i s hi ⟨hplace, hleft⟩
  exact ⟨store_moves hplace (by omega) _, hleft⟩

theorem fillBorderPortHandling_moves (dev : Devices δ) :
    Moves (fillBorderPortHandling dev) := by
  intro r k m hidx hroom
  refine Runs.after_counted (P := fun i (s : Raster δ) =>
    s.display.idx = (k + i : Nat) ∧ s.display.borderLeft = r.display.borderLeft) ?_ ⟨hidx, rfl⟩
  rintro i s hi ⟨hplace, hleft⟩
  obtain ⟨hnext, -, hkept⟩ := borderPixel_display dev hplace (by omega)
  rw [Nat.mod_eq_of_lt (by omega)] at hnext
  exact ⟨hnext, hkept.borderLeft.trans hleft⟩

theorem rasterizeBorder_moves (dev : Devices δ) : Moves (rasterizeBorder dev) := by
  intro r k m hidx hroom
  simp only [rasterizeBorder]
  split
  · exact fillBorderPortHandling_moves dev r k m hidx hroom
  · exact fillBorder_moves r k m hidx hroom

theorem redrawActiveArea_moves : Moves (redrawActiveArea (δ := δ)) := by
  intro r k m hidx hroom
  have hfill (mode : PixelMode) : (r.fillActiveArea mode m).display.idx = (k + m : Nat) ∧
      (r.fillActiveArea mode m).display.borderLeft = r.display.borderLeft := by
    refine Runs.after_counted (P := fun i (s : Scan δ) => s.raster.display.idx = (k + i : Nat) ∧
      s.raster.display.borderLeft = r.display.borderLeft) (s := startScan mode r) ?_ ⟨hidx, rfl⟩
    rintro i s hi ⟨hplace, hleft⟩
    rw [activePixel, reload_raster]
    exact ⟨store_moves hplace (by omega) _, hleft⟩
  rw [redrawActiveArea]
  split
  · exact hfill mode256
  · exact hfill mode512

theorem redrawSlices_moves {r : Raster δ} (hidx : r.display.idx = 0) {n : Nat}
    (hn : n < slicesPerFrame) : (r.redrawSlices n).display.idx = (16 * n : Nat) ∧
      (r.redrawSlices n).display.borderLeft = r.display.borderLeft := by
  have hlen : slicesPerFrame = 14976 := rfl
  have hframe : frameLen = 239616 := rfl
  refine Runs.after_counted (P := fun i (s : Raster δ) => s.display.idx = (16 * i : Nat) ∧
    s.display.borderLeft = r.display.borderLeft) ?_ ⟨hidx, rfl⟩
  rintro i s hi ⟨hplace, hleft⟩
  have hcut := drawSlice_cut redrawActiveArea fillBorder s
  generalize drawSlice redrawActiveArea fillBorder s = u at hcut
  cases hcut with
  | active =>
      obtain ⟨hend, hkept⟩ := redrawActiveArea_moves s _ 16 hplace (by omega)
      exact ⟨hend, hkept.trans hleft⟩
  | border =>
      obtain ⟨hend, hkept⟩ := fillBorder_moves s _ 16 hplace (by omega)
      exact ⟨hend, hkept.trans hleft⟩
  | activeBorder m l _ hm hl hsum =>
      obtain ⟨hseam, hkept⟩ := redrawActiveArea_moves s _ m hplace (by omega)
      obtain ⟨hend, hkept'⟩ := fillBorder_moves _ _ l hseam (by omega)
      rw [Nat.add_assoc, hsum] at hend
      exact ⟨hend, hkept'.trans (hkept.trans hleft)⟩
  | borderActive m l _ hm hl hsum =>
      obtain ⟨hseam, hkept⟩ := fillBorder_moves s _ m hplace (by omega)
      obtain ⟨hend, hkept'⟩ := redrawActiveArea_moves _ _ l hseam (by omega)
      rw [Nat.add_assoc, hsum] at hend
      exact ⟨hend, hkept'.trans (hkept.trans hleft)⟩

/-! ## Slices -/

section Slices

variable {active : Int → Raster δ → List Int} {border : Int → Raster δ → Raster δ} {r : Raster δ}

theorem activeAreaRight_mem (h : r.ActiveLine) :
    r.display.activeAreaRight ∈ sliceValues active border r := by
  rw [sliceValues, if_pos h]
  split
  · exact List.mem_cons_self
  · split
    · exact List.mem_cons_self
    · exact List.mem_cons_self

theorem sliceValues_fit (hborder : Moves border)
    (hactive : ∀ r : Raster δ, r.NearBorder → ∀ n, ∀ value ∈ active n r, FitsInt value)
    (hleft : FitsInt r.display.borderLeft)
    (hright : r.ActiveLine → FitsInt r.display.activeAreaRight) :
    ∀ value ∈ sliceValues active border r, FitsInt value := by
  intro value hvalue
  by_cases hline : r.ActiveLine
  · have hright := hright hline
    obtain ⟨k, hidx, htop, hbottom, -, hpixel⟩ := hline.place
    have hplace : (k % frameW : Nat) < 768 := Nat.mod_lt k (by decide)
    have hlen : frameLen = 239616 := rfl
    have hroom : k < 296 * 768 := by
      have hlast : k / 768 < 296 := hbottom
      omega
    simp only [sliceValues, if_pos hline, Display.activeAreaRight, activeAreaW, hpixel,
      rasterizedPxlsMax] at hvalue hright
    split at hvalue
    · rename_i hinside
      simp only [List.mem_append, List.mem_cons, List.not_mem_nil, or_false] at hvalue
      rcases hvalue with (rfl | rfl) | hpiece
      · exact hright
      · exact ⟨by omega, by omega⟩
      · exact hactive r ⟨⟨by omega, by omega⟩, by omega, by omega⟩ _ value hpiece
    · split at hvalue
      · rw [List.mem_singleton] at hvalue
        exact hvalue ▸ hright
      · rename_i hinside hbefore
        simp only [List.mem_append, List.mem_cons, List.not_mem_nil, or_false] at hvalue
        rcases hvalue with (rfl | rfl) | hpiece
        · exact hright
        · obtain ⟨hlow, hhigh⟩ := hleft
          exact ⟨by omega, by omega⟩
        · split at hpiece
          · rename_i hcut
            obtain ⟨m, hm⟩ := Int.eq_ofNat_of_zero_le
              (a := min (r.display.borderLeft - (k % frameW : Nat)) 16) (by omega)
            rw [hm] at hpiece hcut
            obtain ⟨hmoved, hkept⟩ := hborder r k m hidx (by omega)
            refine hactive _ ⟨?_, ?_⟩ _ value hpiece
            · rw [hkept]
              omega
            · rw [hmoved]
              omega
          · exact absurd hpiece List.not_mem_nil
  · rw [sliceValues, if_neg hline] at hvalue
    exact absurd hvalue List.not_mem_nil

end Slices

/-! ## The settings -/

/-- What requests set: the left border and the commit time of the palette. -/
def settings (r : Raster δ) : Int × Int := (r.display.borderLeft, r.io.paletteCommitTime)

theorem paletteCommitTime_portOutHandling (dev : Devices δ) (port value : Byte) (b : Bus δ) :
    (b.portOutHandling dev port value).io.paletteCommitTime = b.io.paletteCommitTime := by
  unfold Bus.portOutHandling
  split <;> rfl

theorem settings_tryToCommit (dev : Devices δ) (colorIdx : BitVec 4) (r : Raster δ) :
    (r.tryToCommit dev colorIdx).settings = r.settings := by
  have hcount : (r.toBus.countOut dev).io.paletteCommitTime = r.io.paletteCommitTime := by
    simp only [Bus.countOut]
    repeat' split
    · exact paletteCommitTime_portOutHandling dev _ _ _
    · rfl
    · rfl
  exact Prod.ext rfl hcount

theorem settings_bisimulation (dev : Devices δ) (values : Int × Int) :
    Bisimulation dev fun r r' : Raster δ => r = r' ∧ r.settings = values := by
  constructor
  · rintro r r' ⟨rfl, -⟩
    exact ⟨rfl, rfl, rfl, rfl, rfl, rfl, rfl, rfl, rfl, rfl⟩
  · rintro r r' ⟨rfl, h⟩
    exact ⟨rfl, h⟩
  · rintro r r' ⟨rfl, h⟩ color
    exact ⟨rfl, h⟩
  · rintro r r' ⟨rfl, h⟩ colorIdx
    exact ⟨rfl, (settings_tryToCommit dev colorIdx r).trans h⟩
  · rintro r r' ⟨rfl, h⟩
    refine ⟨rfl, ?_⟩
    rw [← h, settings, setDisplay, Display.wrapFrame]
    split <;> rfl
  · rintro r r' ⟨rfl, h⟩ portA
    exact ⟨rfl, h⟩

theorem settings_rasterize (dev : Devices δ) (r : Raster δ) :
    (r.rasterize dev).settings = r.settings :=
  ((settings_bisimulation dev r.settings).rasterize ⟨rfl, rfl⟩).2

theorem Bisimulation.redrawSlices {dev : Devices δ} {Q : Raster δ → Prop}
    (hsame : Bisimulation dev fun r r' => r = r' ∧ Q r) {r : Raster δ} (h : Q r) (n : Nat) :
    Q (r.redrawSlices n) := by
  have hactive : ∀ (n : Int) (s s' : Raster δ), s = s' ∧ Q s →
      s.redrawActiveArea n = s'.redrawActiveArea n ∧ Q (s.redrawActiveArea n) := by
    rintro n s s' ⟨rfl, hs⟩
    refine ⟨rfl, ?_⟩
    rw [redrawActiveArea]
    split
    · exact (hsame.fillActiveArea ⟨rfl, hs⟩ mode256 n).2
    · exact (hsame.fillActiveArea ⟨rfl, hs⟩ mode512 n).2
  refine Runs.after_invariant Q h (fun i hs => ?_) n
  exact (hsame.drawSlice hactive (fun n _ _ hs => hsame.fillBorder hs n) ⟨rfl, hs⟩).2

theorem settings_redrawSlices (dev : Devices δ) (n : Nat) (r : Raster δ) :
    (r.redrawSlices n).settings = r.settings :=
  Bisimulation.redrawSlices (Q := fun s => s.settings = r.settings)
    (settings_bisimulation dev r.settings) rfl n

theorem settings_setIdx (idx : Int) (r : Raster δ) :
    (r.setDisplay (Display.setIdx idx)).settings = r.settings := rfl

theorem settings_frameBuffUpdate (dev : Devices δ) (r : Raster δ) :
    r.frameBuffUpdate.settings = r.settings := by
  rw [frameBuffUpdate, settings_setIdx, settings_redrawSlices dev, settings_setIdx]

/-! ## Calls -/

theorem rasterizeValues_fit (dev : Devices δ) {r : Raster δ} (hleft : FitsInt r.display.borderLeft)
    (hright : FitsInt r.display.activeAreaRight) :
    ∀ value ∈ r.rasterizeValues dev, FitsInt value :=
  sliceValues_fit (r := r.beginRasterize) (rasterizeBorder_moves dev)
    (fun _ hnear => rasterizeActiveAreaValues_fit dev hnear) hleft fun _ => hright

theorem idx_setIdx_zero (r : Raster δ) : (r.setDisplay (Display.setIdx 0)).display.idx = 0 :=
  Display.idx_setIdx r.display (k := 0) (Nat.zero_le _)

theorem frameBuffUpdateValues_fit {r : Raster δ} (hleft : FitsInt r.display.borderLeft)
    (hright : FitsInt r.display.activeAreaRight) :
    ∀ value ∈ r.frameBuffUpdateValues, FitsInt value := by
  intro value hvalue
  rw [frameBuffUpdateValues, List.mem_flatMap] at hvalue
  obtain ⟨i, hi, hslice⟩ := hvalue
  have hkept := (redrawSlices_moves (idx_setIdx_zero r) (List.mem_range.mp hi)).2
  have hsame : (r.setDisplay (Display.setIdx 0)).display.borderLeft = r.display.borderLeft := rfl
  rw [hsame] at hkept
  refine sliceValues_fit fillBorder_moves (fun _ hnear => redrawActiveAreaValues_fit hnear) ?_ ?_
    value hslice
  · rw [hkept]
    exact hleft
  · rw [Display.activeAreaRight, hkept]
    exact fun _ => hright

theorem activeAreaRight_mem_frameBuffUpdate (r : Raster δ) :
    r.display.activeAreaRight ∈ r.frameBuffUpdateValues := by
  obtain ⟨n, hn⟩ : ∃ n : Nat, n = 1920 := ⟨1920, rfl⟩
  have hlen : slicesPerFrame = 14976 := rfl
  obtain ⟨hplace, hkept⟩ := redrawSlices_moves (idx_setIdx_zero r) (n := n) (by omega)
  have hline : ((r.setDisplay (Display.setIdx 0)).redrawSlices n).ActiveLine := by
    rw [ActiveLine, Display.rasterLine, hplace, hn]
    decide
  have hsame : (r.setDisplay (Display.setIdx 0)).display.borderLeft = r.display.borderLeft := rfl
  rw [frameBuffUpdateValues, List.mem_flatMap]
  refine ⟨n, List.mem_range.mpr (by omega), ?_⟩
  have hmem : _ ∈ sliceValues redrawActiveAreaValues fillBorder _ := activeAreaRight_mem hline
  rw [Display.activeAreaRight, hkept, hsame] at hmem
  exact hmem

end Raster

end V6Emul
