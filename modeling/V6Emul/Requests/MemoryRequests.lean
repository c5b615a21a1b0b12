import V6Emul.Requests.Validation

/-!
# Memory requests

The handlers of the requests that reach global RAM at an address they are given.
Beside the response and the new memory each says which indices of the RAM array it
has used; an index from `MEMORY_GLOBAL_LEN` on is outside the array.
-/

namespace V6Emul

/-- `std::copy` to an address of the array; what falls behind its end is lost here. -/
def Ram.copy (ram : Ram) (addr : Nat) (data : List Byte) : Ram := fun i =>
  if addr ≤ i.val then data.getD (i.val - addr) (ram i) else ram i

def indices (addr len : Nat) : List Nat := (List.range len).map fun offset => addr + offset

theorem forall_indices_lt {addr len bound : Nat} :
    (∀ i ∈ indices addr len, i < bound) ↔ len = 0 ∨ addr + len ≤ bound := by
  simp only [indices, List.mem_map, List.mem_range, forall_exists_index, and_imp,
    forall_apply_eq_imp_iff₂]
  constructor
  · intro h
    cases len with
    | zero => exact .inl rfl
    | succ len => exact .inr (h len (Nat.lt_succ_self len))
  · intro h offset hoffset
    omega

/-! ## The text of `GET_MEM_STRING_GLOBAL` -/

def bytesInLine : Nat := 16
def hexLen : Nat := 3
def hexCharsInLine : Nat := bytesInLine * hexLen
def lineLenMax : Nat := hexCharsInLine + 1 + bytesInLine + 1
def hexDataLen : Nat := lineLenMax * 16 + 1

/-- The static buffer, which keeps its bytes from one request to the next. -/
abbrev HexData := Nat → Byte

namespace HexData

def hexChar (digit : Byte) : Byte := if digit < 10 then 48 + digit else 65 + digit - 10

def charIdx (lineLen offset : Nat) : Nat :=
  lineLenMax * (offset / bytesInLine) + hexLen * lineLen + 1 + offset % bytesInLine

def put (lineLen : Nat) (buffer : HexData) (offset : Nat) (c : Byte) : HexData :=
  let x := offset % bytesInLine
  let y := offset / bytesInLine
  let hexIdx := lineLenMax * y + x * hexLen
  let buffer := Function.update buffer hexIdx (hexChar (c >>> 4))
  let buffer := Function.update buffer (hexIdx + 1) (hexChar (c &&& 0x0F))
  let buffer := Function.update buffer (hexIdx + 2) 32
  let buffer :=
    if x = 0 then Function.update buffer (lineLenMax * y + hexLen * lineLen) 32 else buffer
  let buffer :=
    Function.update buffer (charIdx lineLen offset) (if 31 < c ∧ c < 127 then c else 46)
  -- `x` never reaches the end of a line
  if x = lineLenMax - 1 then
    Function.update buffer (lineLenMax * y + hexCharsInLine + 1 + bytesInLine) 10
  else buffer

def putAll (lineLen : Nat) (buffer : HexData) (bytes : List Byte) : HexData :=
  let buffer := bytes.zipIdx.foldl (fun buffer e => put lineLen buffer e.2 e.1) buffer
  let last := if bytes.isEmpty then 0 else charIdx lineLen (bytes.length - 1)
  Function.update buffer (last + 1) 0

def text (buffer : HexData) : List Byte :=
  ((List.range hexDataLen).map buffer).takeWhile fun c => c != 0

end HexData

/-! ## The handlers -/

/-- The memory with what else these handlers read: the active memory edits of an attached
debugger, whose addresses are checked when they are made, and the text buffer. -/
structure MemoryServer where
  mem : Memory
  edits : List (Fin memoryGlobalLen × Byte)
  hexData : HexData

inductive MemoryResponse where
  | empty
  | byte (data : Byte)
  | range (addr : BitVec 64) (data : List Byte)
  | text (data : List Byte)

/-- How a request ends; reading a field that an object lacks is undefined. -/
inductive MemoryOutcome where
  | undefined
  | failed (s : MemoryServer)
  | done (response : MemoryResponse) (used : List Nat) (s : MemoryServer)

namespace MemoryServer

variable {J : Type}

def setRam (s : MemoryServer) (ram : Ram) : MemoryServer := { s with mem := { s.mem with ram := ram } }

/-- `INTERNAL_REAPPLY_MEMORY_EDITS` -/
def reapplyEdits (s : MemoryServer) : MemoryServer :=
  s.setRam (s.edits.foldl (fun ram edit => ram.write edit.1 edit.2) s.mem.ram)

def getByteGlobal (lib : JsonLib J) (data : J) (s : MemoryServer) : MemoryOutcome :=
  match lib.find data "globalAddr" with
  | none => .undefined
  | some field =>
      match lib.getU32 field with
      | none => .failed s
      | some addr =>
          -- `at` throws outside the array
          if addr.toNat < memoryGlobalLen then
            .done (.byte (s.mem.ram.read addr.toNat)) [addr.toNat] s
          else .failed s

def getMem (lib : JsonLib J) (data : J) (s : MemoryServer) : MemoryOutcome :=
  match lib.find data "addr", lib.find data "len" with
  | some addrField, some lenField =>
      match lib.getU64 addrField, lib.getU64 lenField with
      | some addr, some len =>
          if len = 0 ∨ memoryGlobalLen ≤ addr.toNat ∨ memoryGlobalLen - addr.toNat < len.toNat then
            .failed s
          else
            let used := indices addr.toNat len.toNat
            .done (.range addr (used.map s.mem.ram.read)) used s
      | _, _ => .failed s
  | _, _ => .undefined

/-- At most 255 bytes; the global address wraps with `uint32_t`. -/
def getMemString (lib : JsonLib J) (data : J) (s : MemoryServer) : MemoryOutcome :=
  match lib.find data "addr", lib.find data "len" with
  | some addrField, some lenField =>
      match lib.getU32 addrField, lib.getU16 lenField with
      | some addr, some len =>
          let len := min len.toNat 255
          let used := (List.range len).map fun offset => (addr + BitVec.ofNat 32 offset).toNat
          let hexData := s.hexData.putAll (min len bytesInLine) (used.map s.mem.ram.read)
          .done (.text hexData.text) used { s with hexData := hexData }
      | _, _ => .failed s
  | _, _ => .undefined

def setMem (lib : JsonLib J) (data : J) (s : MemoryServer) : MemoryOutcome :=
  match lib.find data "addr", lib.find data "data" with
  | some addrField, some dataField =>
      match lib.getU16 addrField, lib.getBytes dataField with
      | some addr, some bytes =>
          .done .empty (indices addr.toNat bytes.length) (s.setRam (s.mem.ram.copy addr.toNat bytes))
      | _, _ => .failed s
  | _, _ => .undefined

def setByteGlobal (lib : JsonLib J) (data : J) (s : MemoryServer) : MemoryOutcome :=
  match lib.find data "addr", lib.find data "data" with
  | some addrField, some dataField =>
      match lib.getU32 addrField, lib.getU8 dataField with
      | some addr, some value =>
          .done .empty [addr.toNat] (s.setRam (s.mem.ram.write addr.toNat value))
      | _, _ => .failed s
  | _, _ => .undefined

/-- The address is narrowed to 16 bits; stopping and starting the machine leave the RAM. -/
def loadRom (lib : JsonLib J) (data : J) (s : MemoryServer) : MemoryOutcome :=
  match lib.find data "data" with
  | none => .undefined
  | some dataField =>
      match lib.getBytes dataField, lib.value data "addr" lib.getInt 0,
          lib.value data "autorun" lib.getBool false with
      | some bytes, some addr, some _ =>
          let addr := (addr.setWidth 16).toNat
          let loaded := s.setRam (s.mem.ram.copy addr bytes)
          .done .empty (indices addr bytes.length ++ s.edits.map fun edit => edit.1.val)
            ({ loaded with mem := loaded.mem.restart }.reapplyEdits)
      | _, _, _ => .failed s

def handle (lib : JsonLib J) (data : J) (s : MemoryServer) : MemoryReq → MemoryOutcome
  | .getByteGlobal => s.getByteGlobal lib data
  | .getMem => s.getMem lib data
  | .getMemStringGlobal => s.getMemString lib data
  | .setMem => s.setMem lib data
  | .setByteGlobal => s.setByteGlobal lib data
  | .loadRom => s.loadRom lib data

/-! ## Staying inside -/

/-- Only indices inside the array are used, or the request fails and leaves the RAM. -/
def Inside (before : MemoryServer) : MemoryOutcome → Prop
  | .undefined => False
  | .failed s => s.mem.ram = before.mem.ram
  | .done _ used _ => ∀ i ∈ used, i < memoryGlobalLen

/-- What a request must be for its handler to stay inside: the fields that are read
without a default are there, and the range that they convert to is in global memory. -/
def Fits (lib : JsonLib J) (data : J) : MemoryReq → Prop
  | .getByteGlobal => lib.find data "globalAddr" ≠ none
  | .getMem => True
  | .getMemStringGlobal => ∃ addrField lenField, lib.find data "addr" = some addrField ∧
      lib.find data "len" = some lenField ∧ ∀ addr len, lib.getU32 addrField = some addr →
        lib.getU16 lenField = some len → len = 0 ∨ addr.toNat + min len.toNat 255 ≤ memoryGlobalLen
  | .setMem => ∃ addrField dataField, lib.find data "addr" = some addrField ∧
      lib.find data "data" = some dataField ∧ ∀ addr bytes, lib.getU16 addrField = some addr →
        lib.getBytes dataField = some bytes →
          bytes.length = 0 ∨ addr.toNat + bytes.length ≤ memoryGlobalLen
  | .setByteGlobal => ∃ addrField dataField, lib.find data "addr" = some addrField ∧
      lib.find data "data" = some dataField ∧ ∀ addr value, lib.getU32 addrField = some addr →
        lib.getU8 dataField = some value → addr.toNat < memoryGlobalLen
  | .loadRom => ∃ dataField, lib.find data "data" = some dataField ∧
      ∀ bytes addr autorun, lib.getBytes dataField = some bytes →
        lib.value data "addr" lib.getInt 0 = some addr →
          lib.value data "autorun" lib.getBool false = some autorun →
            bytes.length = 0 ∨ (addr.setWidth 16).toNat + bytes.length ≤ memoryGlobalLen

theorem inside_getByteGlobal_iff (lib : JsonLib J) (data : J) (s : MemoryServer) :
    Inside s (s.getByteGlobal lib data) ↔ Fits lib data .getByteGlobal := by
  cases hfield : lib.find data "globalAddr" with
  | none => simp [getByteGlobal, Fits, Inside, hfield]
  | some field =>
      cases haddr : lib.getU32 field with
      | none => simp [getByteGlobal, Fits, Inside, hfield, haddr]
      | some addr =>
          by_cases hin : addr.toNat < memoryGlobalLen
          · simp [getByteGlobal, Fits, Inside, hfield, haddr, hin]
          · simp [getByteGlobal, Fits, Inside, hfield, haddr, hin]

theorem inside_getMem {lib : JsonLib J} {data : J} (h : lib.validateGetMem data = none)
    (s : MemoryServer) : Inside s (s.getMem lib data) := by
  cases haddr : lib.find data "addr" with
  | none => simp [JsonLib.validateGetMem, haddr] at h
  | some addrField =>
      cases hlen : lib.find data "len" with
      | none => simp [JsonLib.validateGetMem, haddr, hlen] at h
      | some lenField =>
          simp only [getMem, haddr, hlen]
          split
          · split
            · rfl
            · rename_i hrange
              apply forall_indices_lt.mpr
              right
              omega
          · rfl

theorem forall_wrapped_lt {addr : BitVec 32} {len : Nat} (hlen : len ≤ 255) :
    (∀ i ∈ (List.range len).map fun offset => (addr + BitVec.ofNat 32 offset).toNat,
        i < memoryGlobalLen) ↔ len = 0 ∨ addr.toNat + len ≤ memoryGlobalLen := by
  have hglobal : memoryGlobalLen = 2162688 := by decide
  have hwrap : ∀ offset < len, (addr + BitVec.ofNat 32 offset).toNat =
      (addr.toNat + offset) % 2 ^ 32 := by
    intro offset hoffset
    rw [BitVec.toNat_add, BitVec.toNat_ofNat, Nat.add_mod_mod]
  simp only [List.mem_map, List.mem_range, forall_exists_index, and_imp,
    forall_apply_eq_imp_iff₂]
  rw [hglobal]
  constructor
  · intro h
    by_cases hzero : len = 0
    · exact .inl hzero
    · have hfirst := h 0 (by omega)
      have hlast := h (len - 1) (by omega)
      rw [hwrap _ (by omega)] at hfirst hlast
      omega
  · intro h offset hoffset
    rw [hwrap offset hoffset]
    omega

theorem inside_getMemString_iff (lib : JsonLib J) (data : J) (s : MemoryServer) :
    Inside s (s.getMemString lib data) ↔ Fits lib data .getMemStringGlobal := by
  cases haddrField : lib.find data "addr" with
  | none => simp [getMemString, Fits, Inside, haddrField]
  | some addrField =>
      cases hlenField : lib.find data "len" with
      | none => simp [getMemString, Fits, Inside, haddrField, hlenField]
      | some lenField =>
          cases haddr : lib.getU32 addrField with
          | none => simp [getMemString, Fits, Inside, haddrField, hlenField, haddr]
          | some addr =>
              cases hlen : lib.getU16 lenField with
              | none => simp [getMemString, Fits, Inside, haddrField, hlenField, haddr, hlen]
              | some len =>
                  have hrange := @forall_wrapped_lt addr _ (Nat.min_le_right len.toNat 255)
                  have hzero : min len.toNat 255 = 0 ↔ len = 0 := by
                    rw [BitVec.toNat_eq]
                    simp
                  rw [hzero] at hrange
                  simpa [getMemString, Fits, Inside, haddrField, hlenField, haddr, hlen] using hrange

theorem inside_setMem_iff (lib : JsonLib J) (data : J) (s : MemoryServer) :
    Inside s (s.setMem lib data) ↔ Fits lib data .setMem := by
  cases haddrField : lib.find data "addr" with
  | none => simp [setMem, Fits, Inside, haddrField]
  | some addrField =>
      cases hdataField : lib.find data "data" with
      | none => simp [setMem, Fits, Inside, haddrField, hdataField]
      | some dataField =>
          cases haddr : lib.getU16 addrField with
          | none => simp [setMem, Fits, Inside, haddrField, hdataField, haddr]
          | some addr =>
              cases hbytes : lib.getBytes dataField with
              | none => simp [setMem, Fits, Inside, haddrField, hdataField, haddr, hbytes]
              | some bytes =>
                  simp only [setMem, Fits, Inside, haddrField, hdataField, haddr, hbytes,
                    forall_indices_lt, Option.some_inj, exists_and_left, exists_eq_left']
                  constructor
                  · rintro h _ _ rfl rfl
                    exact h
                  · intro h
                    exact h addr bytes rfl rfl

theorem inside_setByteGlobal_iff (lib : JsonLib J) (data : J) (s : MemoryServer) :
    Inside s (s.setByteGlobal lib data) ↔ Fits lib data .setByteGlobal := by
  cases haddrField : lib.find data "addr" with
  | none => simp [setByteGlobal, Fits, Inside, haddrField]
  | some addrField =>
      cases hdataField : lib.find data "data" with
      | none => simp [setByteGlobal, Fits, Inside, haddrField, hdataField]
      | some dataField =>
          cases haddr : lib.getU32 addrField with
          | none => simp [setByteGlobal, Fits, Inside, haddrField, hdataField, haddr]
          | some addr =>
              cases hvalue : lib.getU8 dataField with
              | none => simp [setByteGlobal, Fits, Inside, haddrField, hdataField, haddr, hvalue]
              | some value => simp [setByteGlobal, Fits, Inside, haddrField, hdataField, haddr, hvalue]

theorem inside_loadRom_iff (lib : JsonLib J) (data : J) (s : MemoryServer) :
    Inside s (s.loadRom lib data) ↔ Fits lib data .loadRom := by
  cases hdataField : lib.find data "data" with
  | none => simp [loadRom, Fits, Inside, hdataField]
  | some dataField =>
      cases hbytes : lib.getBytes dataField with
      | none => simp [loadRom, Fits, Inside, hdataField, hbytes]
      | some bytes =>
          cases haddr : lib.value data "addr" lib.getInt 0 with
          | none =>
              simp only [loadRom, Fits, Inside, hdataField, hbytes, haddr]
              simp
          | some addr =>
              cases hautorun : lib.value data "autorun" lib.getBool false with
              | none =>
                  simp only [loadRom, Fits, Inside, hdataField, hbytes, haddr, hautorun]
                  simp
              | some autorun =>
                  have hedits : ∀ i ∈ s.edits.map (fun edit => edit.1.val), i < memoryGlobalLen := by
                    intro i hi
                    obtain ⟨edit, -, rfl⟩ := List.mem_map.mp hi
                    exact edit.1.isLt
                  have hused : (∀ i ∈ indices (addr.setWidth 16).toNat bytes.length ++
                      s.edits.map (fun edit => edit.1.val), i < memoryGlobalLen) ↔
                      bytes.length = 0 ∨ (addr.setWidth 16).toNat + bytes.length ≤ memoryGlobalLen := by
                    rw [← forall_indices_lt]
                    constructor
                    · exact fun h i hi => h i (List.mem_append_left _ hi)
                    · intro h i hi
                      exact (List.mem_append.mp hi).elim (h i) (hedits i)
                  simp only [loadRom, Fits, Inside, hdataField, hbytes, haddr, hautorun, hused,
                    Option.some_inj, exists_eq_left']
                  constructor
                  · rintro h _ _ _ rfl rfl rfl
                    exact h
                  · intro h
                    exact h bytes addr autorun rfl rfl rfl

/-- An accepted request stays inside memory exactly when it fits. -/
theorem accepted_inside_iff_fits {lib : JsonLib J} {request : J} {accepted : IpcRequest J}
    (h : lib.validateRequest request = .ok accepted) {req : MemoryReq}
    (hreq : accepted.command = req.command) (s : MemoryServer) :
    Inside s (s.handle lib accepted.data req) ↔ Fits lib accepted.data req := by
  have hfields := JsonLib.validateFields_of_accepted h
  cases req with
  | getByteGlobal => exact inside_getByteGlobal_iff lib accepted.data s
  | getMemStringGlobal => exact inside_getMemString_iff lib accepted.data s
  | setMem => exact inside_setMem_iff lib accepted.data s
  | setByteGlobal => exact inside_setByteGlobal_iff lib accepted.data s
  | loadRom => exact inside_loadRom_iff lib accepted.data s
  | getMem =>
      rw [JsonLib.validateFields, if_pos hreq] at hfields
      exact iff_of_true (inside_getMem hfields s) trivial

def blank : MemoryServer := ⟨.ofRam fun _ => 0, [], fun _ => 0⟩

def byteRequest (addr : BitVec 64) : JsonValue :=
  .object [("cmd", .unsigned 43), ("data", .object [("addr", .unsigned addr), ("data", .unsigned 1)])]

theorem byteRequest_accepted_inside :
    Inside blank (blank.handle JsonValue.lib
        (.object [("addr", .unsigned 5), ("data", .unsigned 1)]) .setByteGlobal) ↔
      Fits JsonValue.lib (.object [("addr", .unsigned 5), ("data", .unsigned 1)]) .setByteGlobal := by
  have haccepted : JsonValue.lib.validateRequest (byteRequest 5) =
      .ok ⟨43, .object [("addr", .unsigned 5), ("data", .unsigned 1)]⟩ := by rfl
  exact accepted_inside_iff_fits haccepted (by rfl) blank

/-- The byte behind the end of the RAM array can be written. -/
theorem byteRequest_writes_outside :
    ∃ accepted, JsonValue.lib.validateRequest (byteRequest 2162688) = .ok accepted ∧
      accepted.command = MemoryReq.setByteGlobal.command ∧
        ¬ Inside blank (blank.handle JsonValue.lib accepted.data .setByteGlobal) := by
  refine ⟨⟨43, .object [("addr", .unsigned 2162688), ("data", .unsigned 1)]⟩, rfl, rfl, ?_⟩
  intro hinside
  have hlt : 2162688 < memoryGlobalLen := hinside 2162688 (List.mem_singleton.mpr rfl)
  exact absurd hlt (by decide)

end MemoryServer

end V6Emul
