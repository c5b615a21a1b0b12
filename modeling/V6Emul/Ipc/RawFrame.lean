import Mathlib.Tactic.Linarith
import V6Emul.Foundation.Layout
import V6Emul.Memory

/-!
# The raw frame envelope

A raw frame or an error goes to the client as a length, a header of sixteen bytes and
a body.  The message is written into a vector that has been resized, byte by byte at
fixed offsets; a write outside of it is undefined.
-/

namespace V6Emul

open Packed

def rawFrameHeaderSize : Nat := 16
def rawFrameSchemaVersion : Byte := 1

/-- `V6RF` -/
def rawFrameMagic : List Byte := [0x56#8, 0x36#8, 0x52#8, 0x46#8]

/-- `std::numeric_limits<uint32_t>::max()` -/
def uint32Max : Nat := 4294967295

inductive RawFrameKind where
  | frame
  | errorResponse
  deriving DecidableEq, Repr

def RawFrameKind.toByte : RawFrameKind → Byte
  | .frame => 1
  | .errorResponse => 2

def RawFrameKind.ofByte? (b : Byte) : Option RawFrameKind :=
  if b = 1 then some .frame else if b = 2 then some .errorResponse else none

inductive RawFrameErrorCode where
  | frameUnavailable
  | internalError
  deriving DecidableEq, Repr

def RawFrameErrorCode.toU32 : RawFrameErrorCode → BitVec 32
  | .frameUnavailable => 1
  | .internalError => 2

structure RawFrameHeader where
  kind : RawFrameKind
  value0 : BitVec 32
  value1 : BitVec 32
  deriving DecidableEq, Repr

/-! ## Vectors -/

/-- `out.resize(size)` -/
def resize (out : List Byte) (size : Nat) : List Byte :=
  out.take size ++ List.replicate (size - out.length) 0

/-- Bytes written over those at `offset`; `none` when they do not all lie in the vector. -/
def overwrite (out : List Byte) (offset : Nat) (bytes : List Byte) : Option (List Byte) :=
  if offset + bytes.length ≤ out.length then
    some (out.take offset ++ bytes ++ out.drop (offset + bytes.length))
  else none

def writeU32 (out : List Byte) (offset : Nat) (value : BitVec 32) : Option (List Byte) :=
  overwrite out offset (toLE 4 value.toNat)

def readU32 (bytes : List Byte) (offset : Nat) : BitVec 32 :=
  BitVec.ofNat 32 (ofLE ((bytes.drop offset).take 4))

/-! ## Encoding and decoding -/

def makeMessage (message : List Byte) (kind : RawFrameKind) (value0 value1 : BitVec 32)
    (body : List Byte) : Option (Bool × List Byte) :=
  if body.length > uint32Max - rawFrameHeaderSize then some (false, [])
  else do
    let payloadSize := BitVec.ofNat 32 (rawFrameHeaderSize + body.length)
    -- the sum is one of 32-bit numbers
    let message := resize message (4 + payloadSize).toNat
    let message ← writeU32 message 0 payloadSize
    let message ← overwrite message 4 rawFrameMagic
    let message ← overwrite message 8 [rawFrameSchemaVersion]
    let message ← overwrite message 9 [kind.toByte]
    let message ← overwrite message 10 [0]
    let message ← overwrite message 11 [0]
    let message ← writeU32 message 12 value0
    let message ← writeU32 message 16 value1
    let message ← if body.length > 0 then overwrite message 20 body else some message
    return (true, message)

inductive Pixels where
  | null (pixelBytes : Nat)
  | bytes (pixels : List Byte)

def encodeRawFrame (message : List Byte) (width height : BitVec 32) :
    Pixels → Option (Bool × List Byte)
  | .null pixelBytes =>
      if pixelBytes > 0 then some (false, []) else makeMessage message .frame width height []
  | .bytes pixels => makeMessage message .frame width height pixels

def encodeRawFrameError (message : List Byte) (code : RawFrameErrorCode)
    (errorMessage : List Byte) : Option (Bool × List Byte) :=
  makeMessage message .errorResponse code.toU32 (BitVec.ofNat 32 errorMessage.length) errorMessage

def decodeRawFrameHeader (bytes : List Byte) : Option RawFrameHeader :=
  if bytes.length ≠ rawFrameHeaderSize ∨ bytes.take 4 ≠ rawFrameMagic ∨
      bytes.getD 4 0 ≠ rawFrameSchemaVersion ∨ bytes.getD 6 0 ≠ 0 ∨ bytes.getD 7 0 ≠ 0 then none
  else (RawFrameKind.ofByte? (bytes.getD 5 0)).map fun kind =>
    ⟨kind, readU32 bytes 8, readU32 bytes 12⟩

/-! ## What is written -/

def RawFrameHeader.toBytes (h : RawFrameHeader) : List Byte :=
  rawFrameMagic ++ [rawFrameSchemaVersion, h.kind.toByte, 0, 0] ++
    (toLE 4 h.value0.toNat ++ toLE 4 h.value1.toNat)

@[simp] theorem RawFrameHeader.length_toBytes (h : RawFrameHeader) : h.toBytes.length = 16 := by
  simp [toBytes, rawFrameMagic]

theorem length_resize (out : List Byte) (size : Nat) : (resize out size).length = size := by
  rw [resize, List.length_append, List.length_take, List.length_replicate]
  omega

theorem overwrite_append {written rest bytes : List Byte} {offset : Nat}
    (hoffset : written.length = offset) (hfit : bytes.length ≤ rest.length) :
    overwrite (written ++ rest) offset bytes =
      some ((written ++ bytes) ++ rest.drop bytes.length) := by
  subst hoffset
  rw [overwrite, if_pos (by rw [List.length_append]; omega), List.take_left', List.drop_append]
  · simp
  · rfl

theorem overwrite_short {out bytes : List Byte} {offset : Nat}
    (hshort : out.length < offset + bytes.length) : overwrite out offset bytes = none :=
  if_neg (Nat.not_le.mpr hshort)

/-- The largest body whose message length is a 32-bit number. -/
def rawFrameBodyMax : Nat := uint32Max - rawFrameHeaderSize - 4

theorem makeMessage_of_le (message : List Byte) (kind : RawFrameKind) (value0 value1 : BitVec 32)
    {body : List Byte} (hle : body.length ≤ rawFrameBodyMax) :
    makeMessage message kind value0 value1 body =
      some (true, toLE 4 (rawFrameHeaderSize + body.length) ++
        ((RawFrameHeader.mk kind value0 value1).toBytes ++ body)) := by
  have hbody : body.length ≤ 4294967275 := hle
  have htaken : ¬body.length > uint32Max - rawFrameHeaderSize := by
    rw [uint32Max, rawFrameHeaderSize]
    omega
  have hpayload : (BitVec.ofNat 32 (rawFrameHeaderSize + body.length)).toNat =
      rawFrameHeaderSize + body.length := by
    rw [BitVec.toNat_ofNat, rawFrameHeaderSize]
    omega
  have hsize : (4 + BitVec.ofNat 32 (rawFrameHeaderSize + body.length)).toNat =
      20 + body.length := by
    rw [BitVec.toNat_add, hpayload, rawFrameHeaderSize]
    change (4 + (16 + body.length)) % 4294967296 = _
    omega
  obtain ⟨out, hout, hlen⟩ : ∃ out, resize message (20 + body.length) = out ∧
      out.length = 20 + body.length := ⟨_, rfl, length_resize _ _⟩
  rw [makeMessage, if_neg htaken]
  simp only [writeU32, hsize, hpayload, hout, Option.bind_eq_bind, Option.pure_def]
  rw [← List.nil_append out]
  simp (disch := (simp [hlen, rawFrameMagic] <;> omega)) only [overwrite_append, Option.bind_some]
  have hrest : ∀ k, 20 + body.length ≤ k → out.drop k = [] := fun k hk =>
    List.drop_of_length_le (hlen ▸ hk)
  split
  · simp [RawFrameHeader.toBytes, rawFrameMagic, hrest]
  · rename_i hempty
    have hnil : body = [] := List.eq_nil_of_length_eq_zero (by omega)
    simp [RawFrameHeader.toBytes, rawFrameMagic, hrest, hnil]

theorem makeMessage_of_wraps (message : List Byte) (kind : RawFrameKind)
    (value0 value1 : BitVec 32) {body : List Byte} (hlt : rawFrameBodyMax < body.length)
    (hle : body.length ≤ uint32Max - rawFrameHeaderSize) :
    makeMessage message kind value0 value1 body = none := by
  have hlow : 4294967275 < body.length := hlt
  have hhigh : body.length ≤ 4294967279 := hle
  have hsize : (4 + BitVec.ofNat 32 (rawFrameHeaderSize + body.length)).toNat < 4 := by
    rw [BitVec.toNat_add, BitVec.toNat_ofNat, rawFrameHeaderSize]
    change (4 + (16 + body.length) % 4294967296) % 4294967296 < 4
    omega
  rw [makeMessage, if_neg (Nat.not_lt.mpr hle)]
  simp only [writeU32]
  rw [overwrite_short]
  · rfl
  · rw [length_resize, length_toLE]
    omega

/-! ## What is read back -/

theorem RawFrameKind.ofByte?_eq_some {b : Byte} {kind : RawFrameKind} :
    RawFrameKind.ofByte? b = some kind ↔ b = kind.toByte := by
  revert b
  cases kind <;> decide +kernel

theorem readU32_toLE {front back : List Byte} {offset : Nat} (value : BitVec 32)
    (hoffset : front.length = offset) :
    readU32 (front ++ (toLE 4 value.toNat ++ back)) offset = value := by
  have hmod : value.toNat % 256 ^ 4 = value.toNat := Nat.mod_eq_of_lt value.isLt
  rw [readU32, List.drop_left' hoffset, List.take_left' (length_toLE 4 _), ofLE_toLE, hmod,
    BitVec.ofNat_toNat, BitVec.setWidth_eq]

theorem toLE_readU32 {bytes : List Byte} {offset : Nat} (hlen : offset + 4 ≤ bytes.length) :
    toLE 4 (readU32 bytes offset).toNat = (bytes.drop offset).take 4 := by
  have hfour : ((bytes.drop offset).take 4).length = 4 := by
    rw [List.length_take, List.length_drop]
    omega
  have hlt := ofLE_lt ((bytes.drop offset).take 4)
  rw [hfour] at hlt
  have hmod : ofLE ((bytes.drop offset).take 4) % 2 ^ 32 = ofLE ((bytes.drop offset).take 4) :=
    Nat.mod_eq_of_lt hlt
  have hword := toLE_ofLE ((bytes.drop offset).take 4)
  rw [readU32, BitVec.toNat_ofNat, hmod]
  rwa [hfour] at hword

theorem decodeRawFrameHeader_eq_some {bytes : List Byte} {h : RawFrameHeader} :
    decodeRawFrameHeader bytes = some h ↔ bytes = h.toBytes := by
  constructor
  · intro hread
    rw [decodeRawFrameHeader] at hread
    split at hread
    · exact absurd hread (Option.some_ne_none h).symm
    · rename_i hnone
      simp only [not_or, not_not] at hnone
      obtain ⟨hlen, hmagic, hversion, hzero, hzero'⟩ := hnone
      obtain ⟨kind, hkind, rfl⟩ := Option.map_eq_some_iff.mp hread
      rw [RawFrameKind.ofByte?_eq_some] at hkind
      have hsplit : bytes = bytes.take 4 ++ ([bytes.getD 4 0, bytes.getD 5 0, bytes.getD 6 0,
          bytes.getD 7 0] ++ ((bytes.drop 8).take 4 ++ (bytes.drop 12).take 4)) := by
        have hnext : ∀ k, k < 16 → bytes.drop k = bytes.getD k 0 :: bytes.drop (k + 1) := by
          intro k hk
          have hlt : k < bytes.length := hlen ▸ hk
          rw [List.drop_eq_getElem_cons hlt, List.getD_eq_getElem?_getD,
            List.getElem?_eq_getElem hlt, Option.getD_some]
        have hlast : (bytes.drop 12).take 4 = bytes.drop 12 :=
          List.take_of_length_le (by rw [List.length_drop, hlen]; decide)
        have hvalues : bytes.drop 8 = (bytes.drop 8).take 4 ++ bytes.drop 12 := by
          have hcut := List.take_append_drop 4 (bytes.drop 8)
          rw [List.drop_drop] at hcut
          exact hcut.symm
        conv_lhs => rw [← List.take_append_drop 4 bytes, hnext 4 (by decide), hnext 5 (by decide),
          hnext 6 (by decide), hnext 7 (by decide), hvalues]
        rw [hlast]
        rfl
      rw [RawFrameHeader.toBytes, toLE_readU32 (by rw [hlen]; decide),
        toLE_readU32 (by rw [hlen]; decide), ← hmagic, ← hversion, ← hkind, List.append_assoc]
      conv_lhs => rw [hsplit, hzero, hzero']
  · rintro rfl
    have hvalue0 : readU32 h.toBytes 8 = h.value0 :=
      @readU32_toLE (rawFrameMagic ++ [rawFrameSchemaVersion, h.kind.toByte, 0, 0]) _ _ h.value0 rfl
    have hvalue1 : readU32 h.toBytes 12 = h.value1 := by
      have hlast := @readU32_toLE (rawFrameMagic ++ [rawFrameSchemaVersion, h.kind.toByte, 0, 0] ++
        toLE 4 h.value0.toNat) [] 12 h.value1 (by simp [rawFrameMagic])
      rwa [List.append_nil, List.append_assoc] at hlast
    have hkind : RawFrameKind.ofByte? (h.toBytes.getD 5 0) = some h.kind :=
      RawFrameKind.ofByte?_eq_some.mpr rfl
    rw [decodeRawFrameHeader, if_neg, hkind, hvalue0, hvalue1]
    · rfl
    · simp only [not_or, not_not]
      exact ⟨h.length_toBytes, rfl, rfl, rfl, rfl⟩

/-! ## Messages -/

structure Carries (message : List Byte) (h : RawFrameHeader) (body : List Byte) : Prop where
  length : 4 ≤ message.length
  payload : (readU32 message 0).toNat = message.length - 4
  header : decodeRawFrameHeader ((message.drop 4).take rawFrameHeaderSize) = some h
  body : message.drop (4 + rawFrameHeaderSize) = body

/-- An encoding of the header and the body: no message, or one that carries them. -/
def Encodes (result : Option (Bool × List Byte)) (h : RawFrameHeader) (body : List Byte) : Prop :=
  result = some (false, []) ∨ ∃ message, result = some (true, message) ∧ Carries message h body

/-- Some encoding has these bytes as its header. -/
def IsProduced (header : List Byte) : Prop :=
  (∃ old width height pixels message,
    encodeRawFrame old width height pixels = some (true, message) ∧
      (message.drop 4).take rawFrameHeaderSize = header) ∨
  ∃ old code errorMessage message,
    encodeRawFrameError old code errorMessage = some (true, message) ∧
      (message.drop 4).take rawFrameHeaderSize = header

/-- The size of the vector is computed without overflow, or the body is refused before. -/
def SizeFits (bodySize : Nat) : Prop :=
  bodySize ≤ rawFrameBodyMax ∨ uint32Max - rawFrameHeaderSize < bodySize

def Pixels.body : Pixels → List Byte
  | .null _ => []
  | .bytes pixels => pixels

theorem header_of_message (length : Nat) (h : RawFrameHeader) (body : List Byte) :
    ((toLE 4 length ++ (h.toBytes ++ body)).drop 4).take rawFrameHeaderSize = h.toBytes := by
  rw [List.drop_left' (length_toLE 4 _)]
  exact List.take_left' h.length_toBytes

theorem carries_message (h : RawFrameHeader) {body : List Byte}
    (hle : body.length ≤ rawFrameBodyMax) :
    Carries (toLE 4 (rawFrameHeaderSize + body.length) ++ (h.toBytes ++ body)) h body := by
  have hlen : (toLE 4 (rawFrameHeaderSize + body.length) ++ (h.toBytes ++ body)).length =
      4 + (rawFrameHeaderSize + body.length) := by
    rw [List.length_append, length_toLE, List.length_append, h.length_toBytes]
    rfl
  have hsmall : (BitVec.ofNat 32 (rawFrameHeaderSize + body.length)).toNat =
      rawFrameHeaderSize + body.length := by
    have hbody : body.length ≤ 4294967275 := hle
    rw [BitVec.toNat_ofNat, rawFrameHeaderSize]
    omega
  refine ⟨by omega, ?_, ?_, ?_⟩
  · have hread := @readU32_toLE [] (h.toBytes ++ body) 0
      (BitVec.ofNat 32 (rawFrameHeaderSize + body.length)) rfl
    rw [List.nil_append, hsmall] at hread
    rw [hread, hsmall, hlen, Nat.add_sub_cancel_left]
  · rw [header_of_message]
    exact decodeRawFrameHeader_eq_some.mpr rfl
  · rw [← List.drop_drop, List.drop_left' (length_toLE 4 _)]
    exact List.drop_left' h.length_toBytes

theorem makeMessage_encodes (old : List Byte) (kind : RawFrameKind) (value0 value1 : BitVec 32)
    {body : List Byte} (hfits : SizeFits body.length) :
    Encodes (makeMessage old kind value0 value1 body) ⟨kind, value0, value1⟩ body := by
  rcases hfits with hle | hlarge
  · exact .inr ⟨_, makeMessage_of_le old kind value0 value1 hle, carries_message _ hle⟩
  · exact .inl (if_pos hlarge)

theorem isProduced_frame (width height : BitVec 32) :
    IsProduced (RawFrameHeader.mk .frame width height).toBytes := by
  have hempty : ([] : List Byte).length ≤ rawFrameBodyMax := Nat.zero_le _
  have hmade : encodeRawFrame [] width height (.null 0) = _ :=
    makeMessage_of_le [] .frame width height hempty
  exact .inl ⟨_, _, _, _, _, hmade, header_of_message _ _ _⟩

theorem isProduced_error (code : RawFrameErrorCode) {length : BitVec 32}
    (hle : length.toNat ≤ rawFrameBodyMax) :
    IsProduced (RawFrameHeader.mk .errorResponse code.toU32 length).toBytes := by
  obtain ⟨text, hlen⟩ : ∃ text : List Byte, text.length = length.toNat :=
    ⟨_, List.length_replicate (a := 0)⟩
  have hvalue : BitVec.ofNat 32 text.length = length := by
    rw [hlen, BitVec.ofNat_toNat, BitVec.setWidth_eq]
  have hmade := makeMessage_of_le [] .errorResponse code.toU32 length (hlen.symm ▸ hle)
  rw [← hvalue] at hmade ⊢
  exact .inr ⟨_, _, _, _, hmade, header_of_message _ _ _⟩

theorem of_makeMessage {old body message : List Byte} {kind : RawFrameKind}
    {value0 value1 : BitVec 32}
    (h : makeMessage old kind value0 value1 body = some (true, message)) :
    body.length ≤ rawFrameBodyMax ∧ (message.drop 4).take rawFrameHeaderSize =
      (RawFrameHeader.mk kind value0 value1).toBytes := by
  by_cases hle : body.length ≤ rawFrameBodyMax
  · rw [makeMessage_of_le old kind value0 value1 hle, Option.some_inj, Prod.mk.injEq] at h
    obtain ⟨-, rfl⟩ := h
    exact ⟨hle, header_of_message _ _ _⟩
  · by_cases hlarge : body.length > uint32Max - rawFrameHeaderSize
    · rw [makeMessage, if_pos hlarge] at h
      simp at h
    · rw [makeMessage_of_wraps old kind value0 value1 (Nat.not_le.mp hle)
        (Nat.not_lt.mp hlarge)] at h
      exact absurd h.symm (Option.some_ne_none _)

/--
What is encoded is decoded again, and what is decoded has the layout of a header; its
two values are left to the reader of the message to check.
-/
theorem rawFrame_codec :
    (∀ old width height pixels, SizeFits pixels.body.length →
      Encodes (encodeRawFrame old width height pixels) ⟨.frame, width, height⟩ pixels.body) ∧
    (∀ old code errorMessage, SizeFits errorMessage.length →
      Encodes (encodeRawFrameError old code errorMessage)
        ⟨.errorResponse, code.toU32, BitVec.ofNat 32 errorMessage.length⟩ errorMessage) ∧
    (∀ bytes h, decodeRawFrameHeader bytes = some h ↔ bytes = h.toBytes) ∧
    (∀ width height, IsProduced (RawFrameHeader.mk .frame width height).toBytes) ∧
    ∀ (code : RawFrameErrorCode) length, length.toNat ≤ rawFrameBodyMax →
      IsProduced (RawFrameHeader.mk .errorResponse code.toU32 length).toBytes := by
  refine ⟨?_, ?_, fun _ _ => decodeRawFrameHeader_eq_some, isProduced_frame,
    fun code _ => isProduced_error code⟩
  · intro old width height pixels hfits
    cases pixels with
    | null pixelBytes =>
        rw [encodeRawFrame]
        split
        · exact .inl rfl
        · exact makeMessage_encodes old .frame width height hfits
    | bytes pixels => exact makeMessage_encodes old .frame width height hfits
  · intro old code errorMessage hfits
    exact makeMessage_encodes old .errorResponse code.toU32 _ hfits

/-- A header for an error message of 4294967295 bytes: no message can be that long. -/
theorem longestError_not_produced :
    decodeRawFrameHeader [0x56, 0x36, 0x52, 0x46, 1, 2, 0, 0, 1, 0, 0, 0, 255, 255, 255, 255] =
        some ⟨.errorResponse, 1, 4294967295⟩ ∧
      ¬IsProduced [0x56, 0x36, 0x52, 0x46, 1, 2, 0, 0, 1, 0, 0, 0, 255, 255, 255, 255] := by
  have hdecode : decodeRawFrameHeader
      [0x56, 0x36, 0x52, 0x46, 1, 2, 0, 0, 1, 0, 0, 0, 255, 255, 255, 255] =
        some ⟨.errorResponse, 1, 4294967295⟩ := by decide +kernel
  refine ⟨hdecode, ?_⟩
  rintro (⟨old, width, height, pixels, message, hmade, hheader⟩ |
    ⟨old, code, errorMessage, message, hmade, hheader⟩)
  · have hframe : (message.drop 4).take rawFrameHeaderSize =
        (RawFrameHeader.mk .frame width height).toBytes := by
      cases pixels with
      | null pixelBytes =>
          rw [encodeRawFrame] at hmade
          split at hmade
          · simp at hmade
          · exact (of_makeMessage hmade).2
      | bytes pixels => exact (of_makeMessage hmade).2
    rw [hheader, ← decodeRawFrameHeader_eq_some, hdecode] at hframe
    simp at hframe
  · obtain ⟨hle, herror⟩ := of_makeMessage hmade
    rw [hheader, ← decodeRawFrameHeader_eq_some, hdecode, Option.some_inj,
      RawFrameHeader.mk.injEq] at herror
    have hvalue := congrArg BitVec.toNat herror.2.2
    rw [BitVec.toNat_ofNat] at hvalue
    have hlt : errorMessage.length ≤ 4294967275 := hle
    have hlarge : (4294967295 : BitVec 32).toNat = 4294967295 := by decide
    omega

end V6Emul
