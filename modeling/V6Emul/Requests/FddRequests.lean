import V6Emul.Fdc.Model
import V6Emul.Requests.Validation

/-!
# Floppy requests

The handlers of the requests about a floppy drive.  Beside the response and the new
drives each says what it has done with them: which element of the array of disks it
has used, how many bytes it has copied into an image, whether it has read one, and
whether it has reset the controller.
-/

namespace V6Emul

def toDrive (index : Int) : Option (Fin drivesMax) :=
  if h : 0 ≤ index ∧ index < drivesMax then some ⟨index.toNat, by omega⟩ else none

def FDisk.load (d : FDisk) (bytes : List Byte) : FDisk :=
  d.mount fun i => bytes.getD i.val (d.data i)

def Fdc1793.mountBytes (s : Fdc1793) (driveIdx : Int) (bytes : List Byte) : Bool × Fdc1793 :=
  let s' :=
    match toDrive (driveIdx.tmod drivesMax) with
    | none => s
    | some drive => s.setDisk drive fun d => d.load bytes
  if driveIdx = s.drive.val then (true, s'.reset) else (false, s')

theorem Fdc1793.mountBytes_eq_mount (s : Fdc1793) (driveIdx : Nat) {bytes : List Byte}
    (hlen : bytes.length = fddSize) :
    (s.mountBytes driveIdx bytes).2 = s.mount driveIdx fun i => bytes.get (i.cast hlen.symm) := by
  have hmod : ((driveIdx : Int).tmod drivesMax) = ((driveIdx % drivesMax : Nat) : Int) := by
    rw [Int.tmod_eq_emod_of_nonneg (Int.natCast_nonneg driveIdx)]
    rfl
  have hdrive : toDrive ((driveIdx : Int).tmod drivesMax) = some (Fin.ofNat drivesMax driveIdx) := by
    have hlt : driveIdx % drivesMax < drivesMax := Nat.mod_lt driveIdx (by decide)
    rw [hmod, toDrive, dif_pos ⟨Int.natCast_nonneg _, Int.ofNat_lt.mpr hlt⟩]
    rfl
  have hload : ∀ d : FDisk, d.load bytes = d.mount fun i => bytes.get (i.cast hlen.symm) := by
    intro d
    rw [FDisk.load]
    congr
    funext i
    have hi : i.val < bytes.length := i.isLt.trans_eq hlen.symm
    simp [List.getD_eq_getElem?_getD, hi]
  simp only [mountBytes, mount, hdrive, hload, Nat.cast_inj]
  split <;> rfl

structure FddServer where
  fdc : Fdc1793
  paths : Fin drivesMax → String
  running : Bool

inductive FddResponse where
  | empty
  | info (path : String) (updated : Bool) (reads writes : BitVec 64) (mounted : Bool)
  | image (data : FddImage)
  | dismounted (driveIdx : Int)

structure DriveUse where
  index : Int
  copied : Nat
  readsImage : Bool
  mounts : Bool
  resets : Bool

/-- How a request ends; reading a field that an object lacks is undefined. -/
inductive FddOutcome where
  | undefined
  | failed (s : FddServer)
  | done (response : FddResponse) (use : DriveUse) (s : FddServer)

namespace FddServer

variable {J : Type}

def setFdc (s : FddServer) (fdc : Fdc1793) : FddServer := { s with fdc := fdc }

def mount (s : FddServer) (driveIdx : Int) (bytes : List Byte) (path : String) : FddOutcome :=
  let index := driveIdx.tmod drivesMax
  let (resets, fdc) := s.fdc.mountBytes driveIdx bytes
  let paths :=
    match toDrive index with
    | none => s.paths
    | some drive => Function.update s.paths drive path
  .done .empty ⟨index, bytes.length, false, true, resets⟩ { s with fdc := fdc, paths := paths }

def getFddInfo (lib : JsonLib J) (data : J) (s : FddServer) : FddOutcome :=
  match lib.find data "driveIdx" with
  | none => .undefined
  | some field =>
      match lib.getInt field with
      | none => .failed s
      | some driveIdx =>
          let response :=
            match toDrive driveIdx.toInt with
            | none => .empty
            | some drive =>
                let d := s.fdc.disks drive
                .info (s.paths drive) d.updated d.reads d.writes d.mounted
          .done response ⟨driveIdx.toInt, 0, false, false, false⟩ s

/-- The image is copied from the pointer that `GetData` returns, null or not. -/
def getFddImage (lib : JsonLib J) (data : J) (s : FddServer) : FddOutcome :=
  match lib.find data "driveIdx" with
  | none => .undefined
  | some field =>
      match lib.getInt field with
      | none => .failed s
      | some driveIdx =>
          let response :=
            match toDrive driveIdx.toInt with
            | none => .empty
            | some drive =>
                if (s.fdc.disks drive).mounted then .image (s.fdc.disks drive).data else .empty
          .done response ⟨driveIdx.toInt, 0, true, false, false⟩ s

def loadFdd (lib : JsonLib J) (data : J) (s : FddServer) : FddOutcome :=
  match lib.find data "driveIdx", lib.find data "data", lib.find data "path" with
  | some driveField, some dataField, some pathField =>
      match lib.getInt driveField, lib.getBytes dataField, lib.getString pathField with
      | some driveIdx, some bytes, some path => s.mount driveIdx.toInt bytes path
      | _, _, _ => .failed s
  | _, _, _ => .undefined

def resetUpdateFdd (lib : JsonLib J) (data : J) (s : FddServer) : FddOutcome :=
  match lib.find data "driveIdx" with
  | none => .undefined
  | some field =>
      match lib.getInt field with
      | none => .failed s
      | some driveIdx =>
          let fdc :=
            match toDrive driveIdx.toInt with
            | none => s.fdc
            | some drive => s.fdc.resetUpdate drive
          .done .empty ⟨driveIdx.toInt, 0, false, false, false⟩ (s.setFdc fdc)

/-- `data.resize(FDD_SIZE, 0)` -/
def resize (bytes : List Byte) : List Byte :=
  bytes.take fddSize ++ List.replicate (fddSize - bytes.length) 0

def mountFdd (lib : JsonLib J) (data : J) (s : FddServer) : FddOutcome :=
  match lib.find data "data" with
  | none => .undefined
  | some dataField =>
      match lib.getBytes dataField, lib.value data "driveIdx" lib.getInt (0#32),
          lib.value data "path" lib.getString "", lib.value data "autoBoot" lib.getBool false with
      | some bytes, some driveIdx, some path, some autoBoot =>
          match s.mount driveIdx.toInt (resize bytes) path with
          | .done response use s =>
              .done response use (if autoBoot then { s with running := true } else s)
          | outcome => outcome
      | _, _, _, _ => .failed s

def dismountFdd (lib : JsonLib J) (data : J) (s : FddServer) : FddOutcome :=
  if s.running then .failed s
  else
    match lib.find data "driveIdx" with
    | none => .undefined
    | some field =>
        match lib.getInt field with
        | none => .failed s
        | some driveIdx =>
            let s' : FddServer :=
              match toDrive driveIdx.toInt with
              | none => s
              | some drive =>
                  { s with
                    fdc := s.fdc.dismount drive
                    paths := Function.update s.paths drive "" }
            .done (.dismounted driveIdx.toInt) ⟨driveIdx.toInt, 0, false, false, false⟩ s'

def handle (lib : JsonLib J) (data : J) (s : FddServer) : FddReq → FddOutcome
  | .getFddInfo => s.getFddInfo lib data
  | .getFddImage => s.getFddImage lib data
  | .loadFdd => s.loadFdd lib data
  | .resetUpdateFdd => s.resetUpdateFdd lib data
  | .mountFdd => s.mountFdd lib data
  | .dismountFdd => s.dismountFdd lib data

/-! ## Staying inside the drives -/

def Mounted (s : FddServer) (index : Int) : Prop :=
  ∃ drive, toDrive index = some drive ∧ (s.fdc.disks drive).mounted = true

/-- An index of the array, no more bytes than an image has, no image that is not there,
and a reset for the selected drive only; or a failure that leaves the drives. -/
def Within (before : FddServer) : FddOutcome → Prop
  | .undefined => False
  | .failed s => s.fdc = before.fdc ∧ s.paths = before.paths
  | .done _ use _ =>
      (0 ≤ use.index ∧ use.index < drivesMax) ∧ use.copied ≤ fddSize ∧
        (use.readsImage = true → before.Mounted use.index) ∧
          (use.resets = true ↔ use.mounts = true ∧ use.index = before.fdc.drive.val)

def Selects (s : FddServer) (driveIdx : Int) : Prop :=
  0 ≤ driveIdx.tmod drivesMax ∧
    (driveIdx.tmod drivesMax = s.fdc.drive.val → driveIdx = s.fdc.drive.val)

def Fits (lib : JsonLib J) (data : J) (s : FddServer) : FddReq → Prop
  | .getFddInfo => ∃ field, lib.find data "driveIdx" = some field ∧
      ∀ driveIdx, lib.getInt field = some driveIdx →
        0 ≤ driveIdx.toInt ∧ driveIdx.toInt < drivesMax
  | .getFddImage => ∃ field, lib.find data "driveIdx" = some field ∧
      ∀ driveIdx, lib.getInt field = some driveIdx → s.Mounted driveIdx.toInt
  | .loadFdd => ∃ driveField dataField pathField, lib.find data "driveIdx" = some driveField ∧
      lib.find data "data" = some dataField ∧ lib.find data "path" = some pathField ∧
        ∀ driveIdx bytes path, lib.getInt driveField = some driveIdx →
          lib.getBytes dataField = some bytes → lib.getString pathField = some path →
            s.Selects driveIdx.toInt ∧ bytes.length ≤ fddSize
  | .resetUpdateFdd => ∃ field, lib.find data "driveIdx" = some field ∧
      ∀ driveIdx, lib.getInt field = some driveIdx →
        0 ≤ driveIdx.toInt ∧ driveIdx.toInt < drivesMax
  | .mountFdd => ∃ dataField, lib.find data "data" = some dataField ∧
      ∀ bytes driveIdx path autoBoot, lib.getBytes dataField = some bytes →
        lib.value data "driveIdx" lib.getInt (0#32) = some driveIdx →
          lib.value data "path" lib.getString "" = some path →
            lib.value data "autoBoot" lib.getBool false = some autoBoot →
              s.Selects driveIdx.toInt
  | .dismountFdd => True

theorem within_mount_iff (s : FddServer) (driveIdx : Int) (bytes : List Byte) (path : String) :
    Within s (s.mount driveIdx bytes path) ↔ s.Selects driveIdx ∧ bytes.length ≤ fddSize := by
  have hlt : driveIdx.tmod drivesMax < drivesMax := Int.tmod_lt_of_pos driveIdx (by decide)
  have hdrive := s.fdc.drive.isLt
  have hself : driveIdx = s.fdc.drive.val → driveIdx.tmod drivesMax = s.fdc.drive.val := by
    intro heq
    rw [heq, Int.tmod_eq_of_lt (Int.natCast_nonneg _) (Int.ofNat_lt.mpr hdrive)]
  have hresets : (s.fdc.mountBytes driveIdx bytes).1 = true ↔ driveIdx = s.fdc.drive.val := by
    rw [Fdc1793.mountBytes]
    split <;> simp_all
  simp only [Within, mount, Selects, hresets, true_and, Bool.false_eq_true, false_implies]
  constructor
  · rintro ⟨⟨hnonneg, -⟩, hlen, hiff⟩
    exact ⟨⟨hnonneg, hiff.mpr⟩, hlen⟩
  · rintro ⟨⟨hnonneg, hselected⟩, hlen⟩
    exact ⟨⟨hnonneg, hlt⟩, hlen, hself, hselected⟩

theorem mounted_index {s : FddServer} {index : Int} (h : s.Mounted index) :
    0 ≤ index ∧ index < drivesMax := by
  obtain ⟨drive, hdrive, -⟩ := h
  rw [toDrive] at hdrive
  split at hdrive
  · assumption
  · cases hdrive

theorem within_index_iff (s t : FddServer) (response : FddResponse) (index : Int) :
    Within s (.done response ⟨index, 0, false, false, false⟩ t) ↔
      0 ≤ index ∧ index < drivesMax := by
  simp [Within]

theorem within_getFddInfo_iff (lib : JsonLib J) (data : J) (s : FddServer) :
    Within s (s.getFddInfo lib data) ↔ Fits lib data s .getFddInfo := by
  cases hfield : lib.find data "driveIdx" with
  | none => simp [getFddInfo, Fits, Within, hfield]
  | some field =>
      cases hdrive : lib.getInt field with
      | none => simp [getFddInfo, Fits, Within, hfield, hdrive]
      | some driveIdx => simp [getFddInfo, Fits, hfield, hdrive, within_index_iff]

theorem within_resetUpdateFdd_iff (lib : JsonLib J) (data : J) (s : FddServer) :
    Within s (s.resetUpdateFdd lib data) ↔ Fits lib data s .resetUpdateFdd := by
  cases hfield : lib.find data "driveIdx" with
  | none => simp [resetUpdateFdd, Fits, Within, hfield]
  | some field =>
      cases hdrive : lib.getInt field with
      | none => simp [resetUpdateFdd, Fits, Within, hfield, hdrive]
      | some driveIdx => simp [resetUpdateFdd, Fits, hfield, hdrive, within_index_iff]

theorem within_getFddImage_iff (lib : JsonLib J) (data : J) (s : FddServer) :
    Within s (s.getFddImage lib data) ↔ Fits lib data s .getFddImage := by
  cases hfield : lib.find data "driveIdx" with
  | none => simp [getFddImage, Fits, Within, hfield]
  | some field =>
      cases hdrive : lib.getInt field with
      | none => simp [getFddImage, Fits, Within, hfield, hdrive]
      | some driveIdx =>
          have hindex : (0 ≤ driveIdx.toInt ∧ driveIdx.toInt < drivesMax) ∧
              s.Mounted driveIdx.toInt ↔ s.Mounted driveIdx.toInt :=
            ⟨fun h => h.2, fun h => ⟨mounted_index h, h⟩⟩
          simpa [getFddImage, Fits, Within, hfield, hdrive] using hindex

theorem within_loadFdd_iff (lib : JsonLib J) (data : J) (s : FddServer) :
    Within s (s.loadFdd lib data) ↔ Fits lib data s .loadFdd := by
  cases hdriveField : lib.find data "driveIdx" with
  | none => simp [loadFdd, Fits, Within, hdriveField]
  | some driveField =>
      cases hdataField : lib.find data "data" with
      | none => simp [loadFdd, Fits, Within, hdriveField, hdataField]
      | some dataField =>
          cases hpathField : lib.find data "path" with
          | none => simp [loadFdd, Fits, Within, hdriveField, hdataField, hpathField]
          | some pathField =>
              simp only [loadFdd, Fits, hdriveField, hdataField, hpathField, Option.some_inj,
                exists_and_left, exists_eq_left']
              cases hdrive : lib.getInt driveField with
              | none => simp [Within]
              | some driveIdx =>
                  cases hbytes : lib.getBytes dataField with
                  | none => simp [Within]
                  | some bytes =>
                      cases hpath : lib.getString pathField with
                      | none => simp [Within]
                      | some path =>
                          dsimp only
                          rw [within_mount_iff]
                          constructor
                          · rintro h _ _ _ hdrive' hbytes' -
                            cases hdrive'
                            cases hbytes'
                            exact h
                          · intro h
                            exact h driveIdx bytes path rfl rfl rfl

theorem length_resize (bytes : List Byte) : (resize bytes).length = fddSize := by
  rw [resize, List.length_append, List.length_take, List.length_replicate]
  omega

theorem within_mountFdd_iff (lib : JsonLib J) (data : J) (s : FddServer) :
    Within s (s.mountFdd lib data) ↔ Fits lib data s .mountFdd := by
  cases hdataField : lib.find data "data" with
  | none => simp [mountFdd, Fits, Within, hdataField]
  | some dataField =>
      simp only [mountFdd, Fits, hdataField, Option.some_inj, exists_eq_left']
      cases hbytes : lib.getBytes dataField with
      | none => simp [Within]
      | some bytes =>
          cases hdrive : lib.value data "driveIdx" lib.getInt (0#32) with
          | none => simp [Within]
          | some driveIdx =>
              cases hpath : lib.value data "path" lib.getString "" with
              | none => simp [Within]
              | some path =>
                  cases hboot : lib.value data "autoBoot" lib.getBool false with
                  | none => simp [Within]
                  | some autoBoot =>
                      have hmount : Within s (s.mount driveIdx.toInt (resize bytes) path) ↔
                          s.Selects driveIdx.toInt := by
                        rw [within_mount_iff, length_resize]
                        exact and_iff_left (Nat.le_refl fddSize)
                      constructor
                      · intro h _ _ _ _ _ hdrive' _ _
                        cases hdrive'
                        exact hmount.mp h
                      · intro h
                        exact hmount.mpr (h bytes driveIdx path autoBoot rfl rfl rfl rfl)

theorem within_dismountFdd {lib : JsonLib J} (hlib : lib.Casts) {data : J}
    (h : lib.validateDismountFdd data = none) (s : FddServer) :
    Within s (s.dismountFdd lib data) := by
  cases hfield : lib.find data "driveIdx" with
  | none => simp [JsonLib.validateDismountFdd, hfield] at h
  | some field =>
      cases hdrive : lib.readUnsigned field with
      | none => simp [JsonLib.validateDismountFdd, hfield, hdrive] at h
      | some n =>
          have hn : n.toNat ≤ 3 := by
            simp only [JsonLib.validateDismountFdd, hfield, hdrive, Option.bind_some] at h
            split at h
            · cases h
            · split at h
              · cases h
              · omega
          obtain ⟨driveIdx, hint, hvalue⟩ := JsonLib.getInt_of_readUnsigned hlib hdrive (by omega)
          simp only [dismountFdd, hfield, hint]
          split
          · exact ⟨rfl, rfl⟩
          · apply (within_index_iff s _ _ _).mpr
            rw [hvalue]
            exact ⟨Int.natCast_nonneg _, Int.ofNat_lt.mpr (Nat.lt_succ_of_le hn)⟩

/-- An accepted request stays inside the drives exactly when it fits. -/
theorem accepted_within_iff_fits {lib : JsonLib J} (hlib : lib.Casts) {request : J}
    {accepted : IpcRequest J} (h : lib.validateRequest request = .ok accepted) {req : FddReq}
    (hreq : accepted.command = req.command) (s : FddServer) :
    Within s (s.handle lib accepted.data req) ↔ Fits lib accepted.data s req := by
  have hfields := JsonLib.validateFields_of_accepted h
  cases req with
  | getFddInfo => exact within_getFddInfo_iff lib accepted.data s
  | getFddImage => exact within_getFddImage_iff lib accepted.data s
  | loadFdd => exact within_loadFdd_iff lib accepted.data s
  | resetUpdateFdd => exact within_resetUpdateFdd_iff lib accepted.data s
  | mountFdd => exact within_mountFdd_iff lib accepted.data s
  | dismountFdd =>
      have hcommand : accepted.command ≠ MemoryReq.getMem.command := by
        rw [hreq]
        decide
      rw [JsonLib.validateFields, if_neg hcommand, if_pos hreq] at hfields
      exact iff_of_true (within_dismountFdd hlib hfields s) trivial

def blank : FddServer := ⟨.new, fun _ => "", false⟩

def imageRequest (driveIdx : BitVec 64) : JsonValue :=
  .object [("cmd", .unsigned 25), ("data", .object [("driveIdx", .unsigned driveIdx)])]

theorem imageRequest_accepted_within :
    Within blank (blank.handle JsonValue.lib (.object [("driveIdx", .unsigned 2)]) .getFddImage) ↔
      Fits JsonValue.lib (.object [("driveIdx", .unsigned 2)]) blank .getFddImage := by
  have haccepted : JsonValue.lib.validateRequest (imageRequest 2) =
      .ok ⟨25, .object [("driveIdx", .unsigned 2)]⟩ := rfl
  exact accepted_within_iff_fits JsonValue.casts_lib haccepted rfl blank

/-- The image of an empty drive is read through a null pointer. -/
theorem imageRequest_reads_unmounted :
    ∃ accepted, JsonValue.lib.validateRequest (imageRequest 0) = .ok accepted ∧
      accepted.command = FddReq.getFddImage.command ∧
        ¬ Within blank (blank.handle JsonValue.lib accepted.data .getFddImage) := by
  refine ⟨⟨25, .object [("driveIdx", .unsigned 0)]⟩, rfl, rfl, ?_⟩
  rintro ⟨-, -, hmounted, -⟩
  obtain ⟨drive, -, himage⟩ := hmounted rfl
  have hempty : (blank.fdc.disks drive).mounted = false := rfl
  rw [hempty] at himage
  cases himage

end FddServer

end V6Emul
