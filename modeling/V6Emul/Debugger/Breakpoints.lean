import V6Emul.Cpu.State
import V6Emul.Foundation.Tables

/-!
# Breakpoints

The collection of breakpoints, keyed by address.  What the JSON library answers for a
field (its value of the expected type, `none` where the conversion throws) is an
argument of the operation that reads it.
-/

namespace V6Emul

/-! ## Conditions and numbers in text -/

inductive MatchCondition where
  | any
  | equ
  | less
  | greater
  | lessEqu
  | greaterEqu
  | notEqu
  | invalid
  deriving DecidableEq, Repr

def MatchCondition.name : MatchCondition → Option String
  | .any => some "ANY"
  | .equ => some "EQU"
  | .less => some "LESS"
  | .greater => some "GREATER"
  | .lessEqu => some "LESS_EQU"
  | .greaterEqu => some "GREATER_EQU"
  | .notEqu => some "NOT_EQU"
  | .invalid => none

/-- Looks up `ConditionsS`; what is not found is `ANY`. -/
def getCondition (condS : String) : MatchCondition :=
  if condS = "=ANY" then .any
  else if condS = "=" then .equ
  else if condS = "<" then .less
  else if condS = ">" then .greater
  else if condS = "<=" then .lessEqu
  else if condS = ">=" then .greaterEqu
  else if condS = "!=" then .notEqu
  else .any

/-- The comparison of an operand with a value; `ANY` is decided before it. -/
def MatchCondition.compare {w : Nat} (cond : MatchCondition) (op value : BitVec w) : Bool :=
  match cond with
  | .equ => op == value
  | .less => op.toNat < value.toNat
  | .greater => value.toNat < op.toNat
  | .lessEqu => op.toNat ≤ value.toNat
  | .greaterEqu => value.toNat ≤ op.toNat
  | .notEqu => op != value
  | .any => false
  | .invalid => false

def hexDigit (c : Char) : Option Nat :=
  if '0' ≤ c ∧ c ≤ '9' then some (c.toNat - '0'.toNat)
  else if 'a' ≤ c ∧ c ≤ 'f' then some (c.toNat - 'a'.toNat + 10)
  else if 'A' ≤ c ∧ c ≤ 'F' then some (c.toNat - 'A'.toNat + 10)
  else none

def dropHexPrefix : List Char → List Char
  | '0' :: x :: d :: rest =>
      if (x = 'x' ∨ x = 'X') ∧ (hexDigit d).isSome then d :: rest else '0' :: x :: d :: rest
  | chars => chars

def stoullHex (str : String) : Option (BitVec 64) :=
  let chars := str.toList.dropWhile fun c => c.toNat = 32 ∨ (9 ≤ c.toNat ∧ c.toNat ≤ 13)
  let negative := chars.head? = some '-'
  let chars := if negative ∨ chars.head? = some '+' then chars.tail else chars
  let digits := ((dropHexPrefix chars).map hexDigit).takeWhile Option.isSome
  let value := digits.foldl (fun value digit => 16 * value + digit.getD 0) 0
  if digits.isEmpty then none
  else if 2 ^ 64 ≤ value then none
  else if negative then some (-(BitVec.ofNat 64 value))
  else some (BitVec.ofNat 64 value)

def strHexToInt (str : String) : Option (BitVec 32) := (stoullHex str).map (BitVec.setWidth 32)

/-! ## A breakpoint -/

/-- A byte holds the status, so it can have a value that is not named. -/
inductive BreakpointStatus where
  | disabled
  | active
  | deleted
  | unnamed (code : Byte)
  deriving DecidableEq, Repr

namespace BreakpointStatus

def ofByte (code : Byte) : BreakpointStatus :=
  if code = 0 then .disabled else if code = 1 then .active else if code = 2 then .deleted
  else .unnamed code

/-- `GetStatusS` -/
def name : BreakpointStatus → String
  | .active => "ACTIVE"
  | .disabled => "DISABLED"
  | .deleted => "DELETED"
  | .unnamed _ => "INVALID"

end BreakpointStatus

inductive Operand where
  | a | f | b | c | d | e | h | l | psw | bc | de | hl | cc | sp | count
  deriving DecidableEq, Repr

namespace Operand

/-- `bpOperandsS` -/
def name : Operand → Option String
  | .a => some "A"
  | .f => some "F"
  | .b => some "B"
  | .c => some "C"
  | .d => some "D"
  | .e => some "E"
  | .h => some "H"
  | .l => some "L"
  | .psw => some "PSW"
  | .bc => some "BC"
  | .de => some "DE"
  | .hl => some "HL"
  | .cc => some "CC"
  | .sp => some "SP"
  | .count => none

def named : List Operand := [.a, .f, .b, .c, .d, .e, .h, .l, .psw, .bc, .de, .hl, .cc, .sp]

/-- `GetOperand` -/
def ofString (operandS : String) : Operand :=
  if operandS = "Flags" then .f
  else (named.find? fun operand => operand.name = some operandS).getD .count

def read (operand : Operand) (cpu : CpuState) : BitVec 64 :=
  match operand with
  | .a => cpu.a.setWidth 64
  | .f => cpu.f.toByte.setWidth 64
  | .b => cpu.bc.h.setWidth 64
  | .c => cpu.bc.l.setWidth 64
  | .d => cpu.de.h.setWidth 64
  | .e => cpu.de.l.setWidth 64
  | .h => cpu.hl.h.setWidth 64
  | .l => cpu.hl.l.setWidth 64
  | .psw => (cpu.a ++ cpu.f.toByte).setWidth 64
  | .bc => cpu.bc.word.setWidth 64
  | .de => cpu.de.word.setWidth 64
  | .hl => cpu.hl.word.setWidth 64
  | .cc => cpu.cc
  | .sp => cpu.sp.word.setWidth 64
  | .count => 0

end Operand

structure Breakpoint where
  memPages : BitVec 64
  value : BitVec 64
  counter : BitVec 64
  addr : Addr
  operand : Operand
  cond : MatchCondition
  status : BreakpointStatus
  autoDel : Bool
  comment : String
  deriving DecidableEq

/-- An entry of the `GET_ALL` response; a name read past its table is `none`. -/
structure BreakpointJson where
  addr : Addr
  memPages : BitVec 64
  status : String
  autoDelete : Bool
  operand : Option String
  condition : Option String
  value : BitVec 64
  counter : BitVec 64
  comment : String
  deriving DecidableEq

/-- The stored form of a breakpoint; `counter` may be absent, which is `some none`. -/
structure BreakpointFields where
  addr : Option String
  memPages : Option (BitVec 64)
  status : Option Byte
  autoDel : Option Bool
  operand : Option String
  cond : Option String
  value : Option String
  counter : Option (Option (BitVec 64))
  comment : Option String

def mappingRamModeMask : Byte := 0b11100000#8

namespace Breakpoint

def ofFields (j : BreakpointFields) : Option Breakpoint := do
  let addr ← (← j.addr) |> strHexToInt
  let memPages ← j.memPages
  let status ← j.status
  let autoDel ← j.autoDel
  let operand ← j.operand
  let cond ← j.cond
  let value ← (← j.value) |> strHexToInt
  let counter ← j.counter
  let comment ← j.comment
  some
    { memPages := memPages
      value := value.signExtend 64
      counter := counter.getD 1
      addr := addr.setWidth 16
      operand := .ofString operand
      cond := getCondition cond
      status := .ofByte status
      autoDel := autoDel
      comment := comment }

def toProtocolJson (bp : Breakpoint) : BreakpointJson where
  addr := bp.addr
  memPages := bp.memPages
  status := bp.status.name
  autoDelete := bp.autoDel
  operand := bp.operand.name
  condition := bp.cond.name
  value := bp.value
  counter := bp.counter
  comment := bp.comment

def checkStatus (bp : Breakpoint) (cpu : CpuState) (mem : Update) : Bool :=
  let mapping : BitVec 64 :=
    if mem.mapping.data &&& mappingRamModeMask ≠ 0 then
      1 <<< (mem.mapping.pageRam + 1 + 4 * mem.ramdiskIdx.toNat)
    else 1
  let active := bp.status = .active ∧ mapping &&& bp.memPages ≠ 0
  if ¬ active then false
  else if bp.cond = .any then true
  else bp.cond.compare (bp.operand.read cpu) bp.value

end Breakpoint

/-! ## The collection -/

structure Breakpoints where
  bps : Table (BitVec 32) Breakpoint
  updates : BitVec 32

namespace Breakpoints

def new : Breakpoints := ⟨∅, 0⟩

def clear (b : Breakpoints) : Breakpoints :=
  if b.bps.entries.isEmpty then b else ⟨∅, b.updates + 1⟩

def setStatus (b : Breakpoints) (addr : Addr) (status : BreakpointStatus) : Breakpoints :=
  match b.bps.lookup (addr.setWidth 32) with
  | none => b
  | some bp =>
      if bp.status = status then b
      else ⟨b.bps.insert (addr.setWidth 32) { bp with status := status }, b.updates + 1⟩

/-- `Add` of a breakpoint: it replaces the one at its address. -/
def add (b : Breakpoints) (bp : Breakpoint) : Breakpoints :=
  ⟨b.bps.insert (bp.addr.setWidth 32) bp, b.updates + 1⟩

/-- `Add` of JSON, and whether it throws: the update is counted before the fields are read. -/
def addJson (b : Breakpoints) (j : BreakpointFields) : Bool × Breakpoints :=
  let b := { b with updates := b.updates + 1 }
  match Breakpoint.ofFields j with
  | none => (true, b)
  | some bp => (false, { b with bps := b.bps.insert (bp.addr.setWidth 32) bp })

def del (b : Breakpoints) (addr : Addr) : Breakpoints :=
  match b.bps.lookup (addr.setWidth 32) with
  | none => b
  | some _ => ⟨b.bps.erase (addr.setWidth 32), b.updates + 1⟩

def check (b : Breakpoints) (cpu : CpuState) (mem : Update) : Bool × Breakpoints :=
  let key := cpu.pc.word.setWidth 32
  match b.bps.lookup key with
  | none => (false, b)
  | some bp =>
      if !bp.checkStatus cpu mem then (false, b)
      else
        let counterChanged := bp.counter ≠ 0
        let bp := if counterChanged then { bp with counter := bp.counter - 1 } else bp
        let shouldBreak := bp.counter = 0
        if shouldBreak ∧ bp.autoDel then (true, ⟨b.bps.erase key, b.updates + 1⟩)
        else if counterChanged then (shouldBreak, ⟨b.bps.insert key bp, b.updates + 1⟩)
        else (shouldBreak, b)

def getAll (b : Breakpoints) : List BreakpointJson :=
  ((b.bps.entries.map Sigma.snd).mergeSort fun x y => x.addr.toNat ≤ y.addr.toNat).map
    Breakpoint.toProtocolJson

end Breakpoints

end V6Emul
