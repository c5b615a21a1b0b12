import V6Emul.Foundation.Tables
import V6Emul.Memory

/-!
# Memory edits

The bytes that a client has entered, keyed by global address.  An edit keeps the byte
that it replaced, and a read-only one keeps the CPU from overwriting it.
-/

namespace V6Emul

structure MemoryEdit where
  globalAddr : BitVec 32
  enteredValue : Byte
  originalValue : Byte
  comment : String
  readonly : Bool
  active : Bool
  deriving DecidableEq

structure MemoryEditInput where
  globalAddr : BitVec 32
  enteredValue : Byte
  comment : String
  readonly : Bool
  active : Bool

abbrev MemoryEdits := Table (BitVec 32) MemoryEdit

inductive MemoryEditError where
  | notFound (globalAddr : BitVec 32)
  | outOfRange

namespace MemoryEdits

def readOnly (edits : MemoryEdits) (globalAddr : BitVec 32) : Bool :=
  match edits.lookup globalAddr with
  | none => false
  | some edit => edit.active && edit.readonly

/-- An address has no edit unless it is inside global memory; only `at` checks it. -/
def add (input : MemoryEditInput) (edits : MemoryEdits) (ram : Ram) :
    Except MemoryEditError (MemoryEdits × Ram) :=
  let existing := edits.lookup input.globalAddr
  let replaces : Bool :=
    match existing with
    | none => true
    | some edit => !edit.active || edit.enteredValue != input.enteredValue
  if memoryGlobalLen ≤ input.globalAddr.toNat then .error .outOfRange
  else
    let original :=
      match existing with
      | none => ram.read input.globalAddr.toNat
      | some edit => edit.originalValue
    let edit : MemoryEdit :=
      ⟨input.globalAddr, input.enteredValue, original, input.comment, input.readonly, input.active⟩
    .ok (edits.insert input.globalAddr edit,
      if input.active && replaces then ram.write input.globalAddr.toNat edit.enteredValue else ram)

def restore (globalAddr : BitVec 32) (edits : MemoryEdits) (ram : Ram) :
    Except MemoryEditError (MemoryEdits × Ram) :=
  match edits.lookup globalAddr with
  | none => .error (.notFound globalAddr)
  | some edit => .ok (edits.erase globalAddr, ram.write globalAddr.toNat edit.originalValue)

/-- `INTERNAL_REAPPLY_MEMORY_EDITS` -/
def reapply (edits : MemoryEdits) (ram : Ram) : Ram :=
  edits.entries.foldl
    (fun ram e => if e.2.active then ram.write e.1.toNat e.2.enteredValue else ram) ram

end MemoryEdits

end V6Emul
