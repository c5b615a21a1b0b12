import V6Emul.Display.Frames
import V6Emul.Hardware.Lockstep
import V6Emul.Hardware.PaletteCommit
import V6Emul.Requests.Validation

/-!
# Requests that change the settings

Four requests set an `int` that nothing checks.  It is read later on: at the end of a
frame, when a client asks for one, in every slice and at every write to the palette.
-/

namespace V6Emul

/-! ## Settings -/

def execDelays : List Nat := [1996800, 99840, 39936, 19968, 9984, 0]

def execDelaysSize : Int := 6 * 8

def execSpeed20Percent : Int := 1
def execSpeedNormal : Int := 3

inductive SettingReq where
  | setIoPaletteCommitTime
  | setDisplayBorderLeft
  | setFrameMode
  | setCpuSpeed
  deriving DecidableEq, Repr

namespace SettingReq

def command : SettingReq → Int
  | .setIoPaletteCommitTime => 35
  | .setDisplayBorderLeft => 37
  | .setFrameMode => 40
  | .setCpuSpeed => 44

def field : SettingReq → String
  | .setIoPaletteCommitTime => "paletteCommitTime"
  | .setDisplayBorderLeft => "borderLeft"
  | .setFrameMode => "frameMode"
  | .setCpuSpeed => "speed"

def ofCommand (command : Int) : Option SettingReq :=
  [setIoPaletteCommitTime, setDisplayBorderLeft, setFrameMode, setCpuSpeed].find?
    fun req => req.command = command

/-- The values that keep the emulator well defined. -/
def InRange (value : Int) : SettingReq → Prop
  | .setIoPaletteCommitTime => 1 ≤ value ∧ value ≤ 127
  | .setDisplayBorderLeft => value + activeAreaW < 2 ^ 31
  | .setFrameMode => 0 ≤ value ∧ value < 3
  | .setCpuSpeed => value < 6

end SettingReq

/-- The hardware with the settings of the loop of the execution and of the frames. -/
structure Host (δ : Type) extends Hardware δ where
  execSpeed : Int
  -- `m_audio.Mute`
  mute : Bool
  frameMode : Int
  colorFormat : Byte
  gpuBuffer : FrameBuffer

inductive Access where
  /-- an entry of `m_execDelays` -/
  | execDelay (index : Int)
  /-- an entry of `frame_mode_regions` -/
  | frameRegion (index : Int)
  | copy (c : PixelCopy)
  /-- the first pixels of `m_gpuBuffer` -/
  | convert (len : Nat)
  /-- an `int` that is formed with the left border -/
  | border (value : Int)

/-- Inside the table, inside the buffers, or in the range of `int`. -/
def Access.Inside : Access → Prop
  | .execDelay index => 0 ≤ index ∧ index < execDelays.length
  | .frameRegion index => 0 ≤ index ∧ index < frameModeRegions.length
  | .copy c => c.Inside
  | .convert len => len ≤ frameLen
  | .border value => FitsInt value

inductive HostOp (δ J : Type) where
  /-- a request of a client, as it comes -/
  | request (request : J)
  | machineCycle
  /-- the wait for the end of a frame -/
  | endFrame
  | getFrame (vsync : Bool)
  /-- `BuffUpdate(FRAME_BUFFER)` -/
  | redraw
  /-- the debugger, `DebugInit` and what resets the mapping -/
  | setMem (mem : Memory)
  | setDevices (devices : δ)
  | setDisplayIrqCommitPxl (irqCommitPxl : Int)
  | setIoPaletteEntry (index : BitVec 4) (hwColor : Byte)
  | setColorFormat (colorFormat : Byte)
  | reset
  | restart
  /-- the recorder puts a recorded state back -/
  | setMachine (machine : Machine)

namespace Host

variable {δ J : Type}

def new (hardware : Hardware δ) : Host δ where
  toHardware := hardware
  execSpeed := execSpeedNormal
  mute := false
  frameMode := 1
  colorFormat := 1
  gpuBuffer := fun _ => 0

/-! ## Steps -/

def set (req : SettingReq) (value : Int) (h : Host δ) : Host δ :=
  match req with
  | .setIoPaletteCommitTime => { h with toHardware := h.handle (.setIoPaletteCommitTime value) }
  | .setDisplayBorderLeft => { h with toHardware := h.handle (.setDisplayBorderLeft value) }
  | .setFrameMode => { h with frameMode := value }
  | .setCpuSpeed =>
      -- the clamp takes the size of the table for its length
      let speed := max 0 (min value (execDelaysSize - 1))
      { h with execSpeed := speed, mute := speed == execSpeed20Percent }

/-- The setting that a request changes and its value; other requests change none. -/
def settingOf (lib : JsonLib J) (request : J) : Option (SettingReq × BitVec 32) :=
  match lib.validateRequest request with
  | .error _ => none
  | .ok accepted => do
      let req ← SettingReq.ofCommand accepted.command
      let field ← lib.find accepted.data req.field
      let value ← lib.getInt field
      return (req, value)

def handleRequest (lib : JsonLib J) (request : J) (h : Host δ) : Host δ :=
  match settingOf lib request with
  | none => h
  | some (req, value) => h.set req value.toInt

/-- The buffer that `GetFrame` leaves, and what it reads and writes on the way. -/
def getFrame (vsync : Bool) (h : Host δ) : FrameBuffer × List Access :=
  let source := if vsync then h.display.backBuffer else h.display.frameBuffer
  match FrameModeRegion.ofMode h.frameMode with
  | none => (h.gpuBuffer, [.frameRegion h.frameMode])
  | some region =>
      let crop := cropFrame source h.gpuBuffer region
      let pixels := if h.frameMode = 0 then source else crop.dst
      let copies := if h.frameMode = 0 then [] else crop.copies
      let len := region.width * region.height
      if h.colorFormat = 1 then
        (convertPixels len pixels, .frameRegion h.frameMode :: .convert len :: copies.map .copy)
      else (pixels, .frameRegion h.frameMode :: copies.map .copy)

def apply (dev : Devices δ) (lib : JsonLib J) (h : Host δ) : HostOp δ J → Host δ
  | .request request => h.handleRequest lib request
  | .machineCycle => { h with toHardware := h.toHardware.machineCycle dev }
  | .endFrame => h
  | .getFrame vsync => { h with gpuBuffer := (h.getFrame vsync).1 }
  | .redraw => { h with toHardware := h.toHardware.redraw }
  | .setMem mem => { h with toHardware := h.toHardware.setMem mem }
  | .setDevices devices => { h with toHardware := h.handle (.setDevices devices) }
  | .setDisplayIrqCommitPxl irqCommitPxl =>
      { h with toHardware := h.handle (.setDisplayIrqCommitPxl irqCommitPxl) }
  | .setIoPaletteEntry index hwColor =>
      { h with toHardware := h.handle (.setIoPaletteEntry index hwColor) }
  | .setColorFormat colorFormat => { h with colorFormat := colorFormat }
  | .reset => { h with toHardware := h.toHardware.reset dev }
  | .restart => { h with toHardware := h.toHardware.restart dev }
  | .setMachine machine => { h with toHardware := h.toHardware.setMachine machine }

def accesses (dev : Devices δ) (h : Host δ) : HostOp δ J → List Access
  | .machineCycle => (h.raster.rasterizeValues dev).map .border
  | .endFrame => [.execDelay h.execSpeed, .execDelay execSpeedNormal]
  | .getFrame vsync => (h.getFrame vsync).2
  | .redraw => h.raster.frameBuffUpdateValues.map .border
  | _ => []

structure WellDefined (dev : Devices δ) (h : Host δ) (op : HostOp δ J) : Prop where
  inside : ∀ access ∈ h.accesses dev op, access.Inside
  palette : op = .machineCycle → h.toHardware.PaletteHolds dev

end Host

/-- A request that changes a setting changes it to a value that keeps the emulator well defined. -/
def JsonLib.SetsInRange {J : Type} (lib : JsonLib J) (request : J) : Prop :=
  ∀ req value, Host.settingOf lib request = some (req, value) → req.InRange value.toInt

def HostOp.SetsInRange {δ J : Type} (lib : JsonLib J) : HostOp δ J → Prop
  | .request json => lib.SetsInRange json
  | _ => True

/-- The request and every run behind it are well defined, while no other one spoils the run. -/
def Host.StaysWellDefined {δ J : Type} (dev : Devices δ) (lib : JsonLib J) (h : Host δ) (json : J) :
    Prop :=
  ∀ ops : List (HostOp δ J), (∀ op ∈ ops, op.SetsInRange lib) →
    Runs.Along (fun h op => some (h.apply dev lib op)) (Host.WellDefined dev) h
      (.request json :: ops)

namespace Host

variable {δ J : Type}

/-- The settings are such that what depends on them is well defined. -/
structure InRange (h : Host δ) : Prop where
  execSpeed : 0 ≤ h.execSpeed ∧ h.execSpeed < 6
  frameMode : 0 ≤ h.frameMode ∧ h.frameMode < 3
  paletteCommitTime : 1 ≤ h.io.paletteCommitTime ∧ h.io.paletteCommitTime ≤ 127
  borderLeft : FitsInt h.display.borderLeft
  activeAreaRight : FitsInt h.display.activeAreaRight

theorem inRange_new (ram : Ram) (devices : δ) : (new (.ofRam ram devices)).InRange where
  execSpeed := (by decide : 0 ≤ execSpeedNormal ∧ execSpeedNormal < 6)
  frameMode := (by decide : (0 : Int) ≤ 1 ∧ (1 : Int) < 3)
  paletteCommitTime :=
    (by decide : 1 ≤ paletteCommitTimeDefault ∧ paletteCommitTimeDefault ≤ 127)
  borderLeft := (by decide : FitsInt borderLeftDefault)
  activeAreaRight := (by decide : FitsInt (borderLeftDefault + activeAreaW))

/-! ## Steps keep the range -/

theorem InRange.of_settings {h : Host δ} (hrange : h.InRange) {hardware : Hardware δ}
    (hsame : hardware.raster.settings = h.raster.settings) :
    { h with toHardware := hardware }.InRange := by
  have hleft : hardware.display.borderLeft = h.display.borderLeft := congrArg Prod.fst hsame
  have htime : hardware.io.paletteCommitTime = h.io.paletteCommitTime := congrArg Prod.snd hsame
  refine ⟨hrange.execSpeed, hrange.frameMode, ?_, ?_, ?_⟩
  · exact htime ▸ hrange.paletteCommitTime
  · exact hleft ▸ hrange.borderLeft
  · change FitsInt (hardware.display.borderLeft + activeAreaW)
    rw [hleft]
    exact hrange.activeAreaRight

theorem settings_machineCycle (dev : Devices δ) (h : Hardware δ) :
    (h.machineCycle dev).raster.settings = h.raster.settings := by
  refine Eq.trans ?_ (Raster.settings_rasterize dev h.raster)
  have hcall := Sys.portCall_executeMachineCycle (Io.ports dev) (h.rasterize dev).display.update.irq
    { (h.rasterize dev).toSys with io := (h.rasterize dev).io.log .cycle }
  have htime : (h.machineCycle dev).io.paletteCommitTime =
      ((h.rasterize dev).executeMachineCycle dev).io.paletteCommitTime := rfl
  refine Prod.ext rfl (htime.trans ?_)
  rw [Hardware.executeMachineCycle]
  generalize Sys.executeMachineCycle (Io.ports dev) (h.rasterize dev).display.update.irq
    { (h.rasterize dev).toSys with io := (h.rasterize dev).io.log .cycle } = s at hcall
  obtain ⟨cpu, mem, io, stores⟩ := s
  cases hcall with
  | none => rfl
  | input port =>
      change ((h.rasterize dev).io.log .cycle |>.portInHandling dev port).2.paletteCommitTime = _
      unfold Io.portInHandling
      split <;> rfl
  | output port value => rfl

theorem raster_setRaster (h : Hardware δ) (r : Raster δ) : (h.setRaster r).raster = r := rfl

theorem settings_redraw (dev : Devices δ) (h : Hardware δ) :
    h.redraw.raster.settings = h.raster.settings := by
  rw [Hardware.redraw, raster_setRaster, Raster.settings_frameBuffUpdate dev]

theorem InRange.set {h : Host δ} (hrange : h.InRange) {req : SettingReq} {value : BitVec 32}
    (hvalue : req.InRange value.toInt) : (h.set req value.toInt).InRange := by
  have hlow := BitVec.le_toInt (x := value)
  have hhigh := BitVec.toInt_lt (x := value)
  obtain ⟨hspeed, hmode, htime, hleft, hright⟩ := hrange
  cases req with
  | setIoPaletteCommitTime => exact ⟨hspeed, hmode, hvalue, hleft, hright⟩
  | setDisplayBorderLeft =>
      refine ⟨hspeed, hmode, htime, ⟨hlow, hhigh⟩, ?_, hvalue⟩
      change -2 ^ 31 ≤ value.toInt + 512
      omega
  | setFrameMode => exact ⟨hspeed, hvalue, htime, hleft, hright⟩
  | setCpuSpeed =>
      refine ⟨?_, hmode, htime, hleft, hright⟩
      have hless : value.toInt < 6 := hvalue
      simp only [Host.set, execDelaysSize]
      omega

theorem InRange.apply {h : Host δ} (hrange : h.InRange) (dev : Devices δ) {lib : JsonLib J}
    {op : HostOp δ J} (hop : op.SetsInRange lib) : (h.apply dev lib op).InRange := by
  cases op with
  | request json =>
      rw [Host.apply, handleRequest]
      split
      · exact hrange
      · rename_i req value hsetting
        exact hrange.set (hop req value hsetting)
  | machineCycle => exact hrange.of_settings (settings_machineCycle dev h.toHardware)
  | redraw => exact hrange.of_settings (settings_redraw dev h.toHardware)
  | _ => exact ⟨hrange.execSpeed, hrange.frameMode, hrange.paletteCommitTime, hrange.borderLeft,
      hrange.activeAreaRight⟩

/-! ## Settings in range are enough -/

theorem border_inside {values : List Int} (h : ∀ value ∈ values, FitsInt value) :
    ∀ access ∈ values.map Access.border, access.Inside := by
  intro access haccess
  obtain ⟨value, hvalue, rfl⟩ := List.mem_map.mp haccess
  exact h value hvalue

theorem getFrame_inside {h : Host δ} (hmode : 0 ≤ h.frameMode ∧ h.frameMode < 3) (vsync : Bool) :
    ∀ access ∈ (h.getFrame vsync).2, access.Inside := by
  have hindex : (Access.frameRegion h.frameMode).Inside := hmode
  rw [getFrame]
  split
  · intro access haccess
    rw [List.mem_singleton] at haccess
    exact haccess ▸ hindex
  · rename_i region hregion
    have hinside := FrameModeRegion.inside_ofMode hregion
    have hcopies (source : FrameBuffer) : ∀ access ∈
        (if h.frameMode = 0 then [] else (cropFrame source h.gpuBuffer region).copies).map
          Access.copy, access.Inside := by
      intro access haccess
      obtain ⟨c, hc, rfl⟩ := List.mem_map.mp haccess
      split at hc
      · cases hc
      · exact cropFrame_inside _ _ hinside c hc
    dsimp only
    split
    · intro access haccess
      simp only [List.mem_cons] at haccess
      rcases haccess with rfl | rfl | hcopy
      · exact hindex
      · exact hinside.len_le
      · exact hcopies _ access hcopy
    · intro access haccess
      rcases List.mem_cons.mp haccess with rfl | hcopy
      · exact hindex
      · exact hcopies _ access hcopy

theorem InRange.wellDefined {h : Host δ} (hrange : h.InRange) (dev : Devices δ)
    (op : HostOp δ J) : h.WellDefined dev op := by
  refine ⟨?_, fun _ => Hardware.paletteHolds dev hrange.paletteCommitTime.1
    hrange.paletteCommitTime.2⟩
  cases op with
  | machineCycle =>
      exact border_inside (Raster.rasterizeValues_fit dev hrange.borderLeft hrange.activeAreaRight)
  | redraw =>
      exact border_inside (Raster.frameBuffUpdateValues_fit hrange.borderLeft
        hrange.activeAreaRight)
  | getFrame vsync => exact getFrame_inside hrange.frameMode vsync
  | endFrame =>
      intro access haccess
      simp only [accesses, List.mem_cons, List.not_mem_nil, or_false] at haccess
      rcases haccess with rfl | rfl
      · exact hrange.execSpeed
      · exact ⟨by decide, by decide⟩
  | _ => exact fun access haccess => absurd haccess List.not_mem_nil

theorem along_wellDefined (dev : Devices δ) (lib : JsonLib J) {h : Host δ} (hrange : h.InRange)
    {ops : List (HostOp δ J)} (hops : ∀ op ∈ ops, op.SetsInRange lib) :
    Runs.Along (fun h op => some (apply dev lib h op)) (WellDefined dev) h ops := by
  induction ops generalizing h with
  | nil => exact trivial
  | cons op ops ih =>
      refine ⟨hrange.wellDefined dev op, fun next hnext => ?_⟩
      rw [Option.some_inj] at hnext
      subst hnext
      exact ih (hrange.apply dev (hops op List.mem_cons_self))
        fun later hlater => hops later (List.mem_cons_of_mem op hlater)

/-! ## Settings out of range are not -/

theorem frameRegion_mem (vsync : Bool) (h : Host δ) :
    .frameRegion h.frameMode ∈ (h.getFrame vsync).2 := by
  rw [getFrame]
  split
  · exact List.mem_singleton_self _
  · dsimp only
    split
    · exact List.mem_cons_self
    · exact List.mem_cons_self

def outMachine : Machine where
  cpu := { CpuState.reset with pc := ⟨0x01, 0x00⟩, ir := 0xD3, a := 0x10, mc := 1 }
  mem := .ofRam fun addr => if addr.val = 1 then 0x0C else 0xD3
  io := IoState.zero.init
  display := .init

theorem io_executeMachineCycle_out (dev : Devices δ) (irq : Bool) (io : Io δ)
    (stores : List Store) :
    (Sys.executeMachineCycle (Io.ports dev) irq ⟨outMachine.cpu, outMachine.mem, io, stores⟩).io =
      io.portOut 0x0C 0x10 := by
  cases irq <;> with_unfolding_all rfl

theorem outsPalette_setMachine (dev : Devices δ) (h : Hardware δ) :
    (h.setMachine outMachine).OutsPalette dev 0x0C 0x10 := by
  have hmem : ((h.setMachine outMachine).rasterize dev).mem = outMachine.mem := by
    have hcommit (b : Bus δ) (colorIdx : BitVec 4) (hb : b.mem = outMachine.mem ∧ b.io.Settled) :
        (b.tryToCommit dev colorIdx).mem = outMachine.mem ∧
          (b.tryToCommit dev colorIdx).io.Settled := by
      refine ⟨?_, (Bus.tryToCommit_spec dev colorIdx hb.2.armed).2⟩
      have hcount : (b.tryToCommit dev colorIdx).mem = (b.countOut dev).mem := rfl
      rw [hcount, Bus.countOut_of_settled dev hb.2]
      exact hb.1
    exact (Raster.rasterize_invariant (P := fun b : Bus δ => b.mem = outMachine.mem ∧ b.io.Settled)
      (fun b event hb => hb) hcommit (r := (h.setMachine outMachine).raster) ⟨rfl, rfl⟩).1
  refine ⟨by decide, ?_⟩
  have hcycle := io_executeMachineCycle_out dev
    ((h.setMachine outMachine).rasterize dev).display.update.irq
    (((h.setMachine outMachine).rasterize dev).io.log .cycle)
    ((h.setMachine outMachine).rasterize dev).stores
  rw [← hmem] at hcycle
  exact hcycle

theorem inRange_of_wellDefined (dev : Devices δ) {lib : JsonLib J} {h : Host δ} {json : J}
    {req : SettingReq} {value : BitVec 32} (hsetting : settingOf lib json = some (req, value))
    (hruns : h.StaysWellDefined dev lib json) : req.InRange value.toInt := by
  have hset : h.apply dev lib (.request json) = h.set req value.toInt := by
    rw [Host.apply, handleRequest, hsetting]
  have hnext (ops : List (HostOp δ J)) (hops : ∀ op ∈ ops, op.SetsInRange lib) :
      Runs.Along (fun h op => some (apply dev lib h op)) (WellDefined dev) (h.set req value.toInt)
        ops :=
    hset ▸ (hruns ops hops).2 _ rfl
  have hone (op : HostOp δ J) (hop : op.SetsInRange lib) :
      WellDefined dev (h.set req value.toInt) op :=
    (hnext [op] fun _ hmem => List.mem_singleton.mp hmem ▸ hop).1
  cases req with
  | setIoPaletteCommitTime =>
      have hops : ∀ op ∈ [HostOp.setMachine outMachine, .machineCycle],
          HostOp.SetsInRange (δ := δ) lib op := by
        intro op hop
        simp only [List.mem_cons, List.not_mem_nil, or_false] at hop
        rcases hop with rfl | rfl
        · exact trivial
        · exact trivial
      have hcycle := ((hnext _ hops).2 _ rfl).1.palette rfl
      exact Hardware.commitTime_of_paletteHolds dev (outsPalette_setMachine dev _) hcycle
  | setDisplayBorderLeft =>
      have hright := (hone .redraw trivial).inside _ (List.mem_map_of_mem
        (Raster.activeAreaRight_mem_frameBuffUpdate _))
      exact hright.2
  | setFrameMode => exact (hone (.getFrame true) trivial).inside _ (frameRegion_mem true _)
  | setCpuSpeed =>
      have hindex := (hone .endFrame trivial).inside _ List.mem_cons_self
      have hless : max 0 (min value.toInt (execDelaysSize - 1)) < 6 := hindex.2
      change value.toInt < 6
      simp only [execDelaysSize] at hless
      omega

end Host

/-- What follows a request is well defined exactly when the request sets nothing out of range. -/
theorem staysWellDefined_iff {δ J : Type} (dev : Devices δ) (lib : JsonLib J) {h : Host δ}
    (hrange : h.InRange) (json : J) :
    h.StaysWellDefined dev lib json ↔ lib.SetsInRange json := by
  constructor
  · intro hruns req value hsetting
    exact Host.inRange_of_wellDefined dev hsetting hruns
  · intro hjson ops hops
    refine Host.along_wellDefined dev lib hrange fun op hop => ?_
    rcases List.mem_cons.mp hop with rfl | hlater
    · exact hjson
    · exact hops op hlater

def settingJson (req : SettingReq) (value : BitVec 64) : JsonValue :=
  .object [("cmd", .unsigned (BitVec.ofInt 64 req.command)),
    ("data", .object [(req.field, .unsigned value)])]

theorem staysWellDefined_max :
    (Host.new (.ofRam (fun _ => 0) ())).StaysWellDefined .silent JsonValue.lib
        (settingJson .setCpuSpeed 5) ↔
      JsonValue.lib.SetsInRange (settingJson .setCpuSpeed 5) :=
  staysWellDefined_iff .silent JsonValue.lib (Host.inRange_new (fun _ => 0) ()) _

def settingSpoils (req : SettingReq) (value : BitVec 64) : Prop :=
  (∃ accepted, JsonValue.lib.validateRequest (settingJson req value) = .ok accepted) ∧
    ¬ (Host.new (.ofRam (fun _ => 0) ())).StaysWellDefined .silent JsonValue.lib
      (settingJson req value)

theorem settings_spoil :
    settingSpoils .setIoPaletteCommitTime 128 ∧ settingSpoils .setDisplayBorderLeft 2147483647 ∧
      settingSpoils .setFrameMode 3 ∧ settingSpoils .setCpuSpeed 6 := by
  refine ⟨⟨⟨_, rfl⟩, fun hruns => ?_⟩, ⟨⟨_, rfl⟩, fun hruns => ?_⟩, ⟨⟨_, rfl⟩, fun hruns => ?_⟩,
    ⟨⟨_, rfl⟩, fun hruns => ?_⟩⟩
  · have hrange : SettingReq.InRange (128#32).toInt .setIoPaletteCommitTime :=
      Host.inRange_of_wellDefined .silent rfl hruns
    exact absurd hrange.2 (by decide)
  · have hrange : SettingReq.InRange (2147483647#32).toInt .setDisplayBorderLeft :=
      Host.inRange_of_wellDefined .silent rfl hruns
    have hless : (2147483647 : Int) + 512 < 2 ^ 31 := hrange
    exact absurd hless (by decide)
  · have hrange : SettingReq.InRange (3#32).toInt .setFrameMode :=
      Host.inRange_of_wellDefined .silent rfl hruns
    exact absurd hrange.2 (by decide)
  · have hrange : SettingReq.InRange (6#32).toInt .setCpuSpeed :=
      Host.inRange_of_wellDefined .silent rfl hruns
    have hless : (6 : Int) < 6 := hrange
    exact absurd hless (by decide)

end V6Emul
