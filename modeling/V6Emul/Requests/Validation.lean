import V6Emul.Memory

/-!
# Requests and their validation

A request is a JSON object with a command number and its data.  The JSON library is
outside: what it answers about a value is a parameter, with the conversions of a
stored number to a narrower one stated as its documented behaviour.  The validation
is that of the commands that reach memory or the floppy drives; the checks that the
server makes for other commands do not concern them.
-/

namespace V6Emul

/-! ## The JSON library -/

/-- The library's answers; a conversion is `none` where it throws. -/
structure JsonLib (J : Type) where
  emptyObject : J
  isObject : J → Bool
  isNumberUnsigned : J → Bool
  isNumberInteger : J → Bool
  size : J → Nat
  find : J → String → Option J
  getU64 : J → Option (BitVec 64)
  getI64 : J → Option (BitVec 64)
  getInt : J → Option (BitVec 32)
  getU32 : J → Option (BitVec 32)
  getU16 : J → Option (BitVec 16)
  getU8 : J → Option Byte
  getBool : J → Option Bool
  getString : J → Option String
  getBytes : J → Option (List Byte)

namespace JsonLib

variable {J : Type}

structure Casts (lib : JsonLib J) : Prop where
  ofUnsigned : ∀ v n, lib.isNumberUnsigned v = true → lib.getU64 v = some n →
    lib.getInt v = some (n.setWidth 32)
  ofInteger : ∀ v n, lib.isNumberInteger v = true → lib.getI64 v = some n →
    lib.getInt v = some (n.setWidth 32)

/-- `value(key, default)` of an object; it throws when the field does not convert. -/
def value {T : Type} (lib : JsonLib J) (data : J) (key : String) (get : J → Option T)
    (default : T) : Option T :=
  match lib.find data key with
  | none => some default
  | some field => get field

def readUnsigned (lib : JsonLib J) (v : J) : Option (BitVec 64) :=
  if lib.isNumberUnsigned v then lib.getU64 v
  else if !lib.isNumberInteger v then none
  else
    match lib.getI64 v with
    | none => none
    | some signed => if signed.toInt < 0 then none else some signed

/-- `ReadCommand` -/
def readCommand (lib : JsonLib J) (v : J) : Option Int :=
  if lib.isNumberUnsigned v then
    match lib.getU64 v with
    | none => none
    | some n => if 2147483647 < n.toNat then none else some n.toNat
  else if !lib.isNumberInteger v then none
  else
    match lib.getI64 v with
    | none => none
    | some n =>
        if n.toInt < -2147483648 ∨ 2147483647 < n.toInt then none else some n.toInt

theorem getInt_of_readUnsigned {lib : JsonLib J} (hlib : lib.Casts) {v : J} {n : BitVec 64}
    (h : lib.readUnsigned v = some n) (hn : n.toNat < 2 ^ 31) :
    ∃ i, lib.getInt v = some i ∧ i.toInt = n.toNat := by
  have hcast : lib.getInt v = some (n.setWidth 32) := by
    rw [readUnsigned] at h
    split at h
    · rename_i hunsigned
      exact hlib.ofUnsigned v n hunsigned h
    · split at h
      · cases h
      · rename_i hinteger
        split at h
        · cases h
        · rename_i signed hsigned
          split at h
          · cases h
          · rw [Option.some_inj] at h
            rw [h] at hsigned
            exact hlib.ofInteger v n (by simpa using hinteger) hsigned
  have hnat : (n.setWidth 32).toNat = n.toNat := by
    rw [BitVec.toNat_setWidth]
    exact Nat.mod_eq_of_lt (by omega)
  refine ⟨n.setWidth 32, hcast, ?_⟩
  rw [BitVec.toInt_eq_toNat_of_lt (by omega), hnat]

end JsonLib

/-! ## JSON values -/

inductive JsonValue where
  | null
  | boolean (b : Bool)
  | unsigned (n : BitVec 64)
  | integer (n : BitVec 64)
  | string (s : String)
  | array (items : List JsonValue)
  | object (fields : List (String × JsonValue))

namespace JsonValue

def number : JsonValue → Option (BitVec 64)
  | unsigned n => some n
  | integer n => some n
  | _ => none

def arithmetic (w : Nat) : JsonValue → Option (BitVec w)
  | boolean b => some (if b then 1 else 0)
  | v => v.number.map (BitVec.setWidth w)

def field (key : String) : JsonValue → Option JsonValue
  | object fields => (fields.find? fun e => e.1 = key).map Prod.snd
  | _ => none

def bytes : JsonValue → Option (List Byte)
  | array items => items.mapM (arithmetic 8)
  | _ => none

def lib : JsonLib JsonValue where
  emptyObject := object []
  isObject := fun v => match v with | object _ => true | _ => false
  isNumberUnsigned := fun v => match v with | unsigned _ => true | _ => false
  isNumberInteger := fun v => match v with | unsigned _ => true | integer _ => true | _ => false
  size := fun v => match v with | object fields => fields.length | _ => 0
  find := fun v key => v.field key
  getU64 := number
  getI64 := number
  getInt := arithmetic 32
  getU32 := arithmetic 32
  getU16 := arithmetic 16
  getU8 := arithmetic 8
  getBool := fun v => match v with | boolean b => some b | _ => none
  getString := fun v => match v with | string s => some s | _ => none
  getBytes := bytes

theorem casts_lib : lib.Casts where
  ofUnsigned := by
    intro v n hv hn
    cases v <;> simp_all [lib, number, arithmetic]
  ofInteger := by
    intro v n hv hn
    cases v <;> simp_all [lib, number, arithmetic]

end JsonValue

/-! ## Commands -/

def cmdPing : Int := -1
def cmdGetFrame : Int := -3
def cmdGetFrameRaw : Int := -4
def cmdGetServerInfo : Int := -5

def reqRun : Int := 1
def reqDebugHistorySuccessor : Int := 112

def isSupportedCommand (command : Int) : Bool :=
  command = cmdPing || command = cmdGetFrame || command = cmdGetFrameRaw ||
    command = cmdGetServerInfo || (reqRun ≤ command && command ≤ reqDebugHistorySuccessor)

/-- The commands that read or write global RAM at an address of the request. -/
inductive MemoryReq where
  | getByteGlobal
  | getMemStringGlobal
  | setMem
  | setByteGlobal
  | loadRom
  | getMem
  deriving DecidableEq, Repr

def MemoryReq.command : MemoryReq → Int
  | .getByteGlobal => 13
  | .getMemStringGlobal => 16
  | .setMem => 42
  | .setByteGlobal => 43
  | .loadRom => 91
  | .getMem => 93

/-- The commands about a floppy drive of the request. -/
inductive FddReq where
  | getFddInfo
  | getFddImage
  | loadFdd
  | resetUpdateFdd
  | mountFdd
  | dismountFdd
  deriving DecidableEq, Repr

def FddReq.command : FddReq → Int
  | .getFddInfo => 24
  | .getFddImage => 25
  | .loadFdd => 48
  | .resetUpdateFdd => 49
  | .mountFdd => 92
  | .dismountFdd => 98

/-! ## Validation -/

structure RequestError where
  code : String
  message : String
  -- the command and the field of the details, where there are any
  details : Option (Int × String)
  deriving DecidableEq

structure IpcRequest (J : Type) where
  command : Int
  data : J

namespace JsonLib

variable {J : Type}

def validateGetMem (lib : JsonLib J) (data : J) : Option RequestError :=
  let required : RequestError :=
    ⟨"invalid_request", "GET_MEM requires unsigned addr and len", none⟩
  let outside : RequestError :=
    ⟨"invalid_request", "GET_MEM range must be non-empty and inside global memory", none⟩
  match lib.find data "addr", lib.find data "len" with
  | some addr, some len =>
      if !lib.isNumberUnsigned addr || !lib.isNumberUnsigned len then some required
      else
        match lib.getU64 addr, lib.getU64 len with
        | some addr, some len =>
            if len = 0 ∨ memoryGlobalLen ≤ addr.toNat ∨
                memoryGlobalLen - addr.toNat < len.toNat then some outside
            else none
        | _, _ => some required
  | _, _ => some required

def validateDismountFdd (lib : JsonLib J) (data : J) : Option RequestError :=
  let error : RequestError :=
    ⟨"invalid_request", "DISMOUNT_FDD driveIdx must be an integer in the range 0..3",
      some (FddReq.dismountFdd.command, "driveIdx")⟩
  if lib.size data ≠ 1 then some error
  else
    match (lib.find data "driveIdx").bind lib.readUnsigned with
    | none => some error
    | some driveIdx => if 3 < driveIdx.toNat then some error else none

def validateFields (lib : JsonLib J) (command : Int) (data : J) : Option RequestError :=
  if command = MemoryReq.getMem.command then lib.validateGetMem data
  else if command = FddReq.dismountFdd.command then lib.validateDismountFdd data
  else none

def validateRequest (lib : JsonLib J) (request : J) : Except RequestError (IpcRequest J) :=
  if !lib.isObject request then
    .error ⟨"invalid_request", "request must be an object", none⟩
  else
    match (lib.find request "cmd").bind lib.readCommand with
    | none => .error ⟨"invalid_request", "cmd must be a 32-bit integer", none⟩
    | some command =>
        if !isSupportedCommand command then
          .error ⟨"unknown_command", "unsupported command", none⟩
        else
          match lib.find request "data" with
          | none =>
              match lib.validateFields command lib.emptyObject with
              | some error => .error error
              | none => .ok ⟨command, lib.emptyObject⟩
          | some data =>
              if !lib.isObject data then
                .error ⟨"invalid_request", "data must be an object", none⟩
              else
                match lib.validateFields command data with
                | some error => .error error
                | none => .ok ⟨command, data⟩

theorem validateFields_of_accepted {lib : JsonLib J} {request : J} {accepted : IpcRequest J}
    (h : lib.validateRequest request = .ok accepted) :
    lib.validateFields accepted.command accepted.data = none := by
  rw [validateRequest] at h
  split at h
  · cases h
  · split at h
    · cases h
    · split at h
      · cases h
      · split at h
        · split at h
          · cases h
          · rename_i hfields
            cases h
            exact hfields
        · split at h
          · cases h
          · split at h
            · cases h
            · rename_i hfields
              cases h
              exact hfields

end JsonLib

end V6Emul
