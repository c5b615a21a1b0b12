import V6Emul.Debugger.Breakpoints
import V6Emul.Debugger.Scripts

/-!
# Watchpoints

The collection of watchpoints, keyed by id, with the hit that the accesses of an
instruction have left.  Ids are 32-bit numbers, and nothing stops them from wrapping.
-/

namespace V6Emul

inductive WatchpointType where
  | len
  | word
  | count
  deriving DecidableEq, Repr

/-- `wpTypesS` -/
def WatchpointType.name : WatchpointType → Option String
  | .len => some "LEN"
  | .word => some "WORD"
  | .count => none

/-- `GetType` -/
def WatchpointType.ofString (typeS : String) : WatchpointType :=
  if typeS = "LEN" then .len else if typeS = "WORD" then .word else .count

inductive WatchpointAccess where
  | r
  | w
  | rw
  | count
  deriving DecidableEq, Repr

/-- `wpAccessS` -/
def WatchpointAccess.name : WatchpointAccess → Option String
  | .r => some "R"
  | .w => some "W"
  | .rw => some "RW"
  | .count => none

/-- `GetAccess` -/
def WatchpointAccess.ofString (accessS : String) : WatchpointAccess :=
  if accessS = "R" then .r else if accessS = "W" then .w else if accessS = "RW" then .rw else .count

structure Watchpoint where
  globalAddr : BitVec 32
  id : Id
  len : BitVec 32
  value : BitVec 16
  access : WatchpointAccess
  cond : MatchCondition
  type : WatchpointType
  active : Bool
  breakL : Bool
  breakH : Bool
  comment : String
  deriving DecidableEq

/-- An entry of the `GET_ALL` response; a name read past its table is `none`. -/
structure WatchpointJson where
  id : Id
  globalAddr : BitVec 32
  len : BitVec 32
  value : BitVec 16
  access : Option String
  condition : Option String
  type : Option String
  active : Bool
  comment : String
  deriving DecidableEq

structure WatchpointFields where
  id : Option Id
  access : Option String
  globalAddr : Option String
  cond : Option String
  value : Option String
  type : Option String
  len : Option String
  active : Option Bool
  comment : Option String

namespace Watchpoint

def ofFields (j : WatchpointFields) : Option Watchpoint := do
  let id ← j.id
  let access ← j.access
  let globalAddr ← (← j.globalAddr) |> strHexToInt
  let cond ← j.cond
  let value ← (← j.value) |> strHexToInt
  let type ← j.type
  let len ← (← j.len) |> strHexToInt
  let active ← j.active
  let comment ← j.comment
  some
    { globalAddr := globalAddr
      id := id
      len := len
      value := value.setWidth 16
      access := .ofString access
      cond := getCondition cond
      type := .ofString type
      active := active
      breakL := false
      breakH := false
      comment := comment }

def toJson (wp : Watchpoint) : WatchpointJson where
  id := wp.id
  globalAddr := wp.globalAddr
  len := wp.len
  value := wp.value
  access := wp.access.name
  condition := wp.cond.name
  type := wp.type.name
  active := wp.active
  comment := wp.comment

/-- A byte access; the two halves of a word may match at different accesses. -/
def check (wp : Watchpoint) (access : WatchpointAccess) (globalAddr : BitVec 32) (value : Byte) :
    Bool × Watchpoint :=
  if !wp.active then (false, wp)
  else if wp.access ≠ .rw ∧ wp.access ≠ access then (false, wp)
  else if globalAddr < wp.globalAddr ∨ wp.globalAddr + wp.len ≤ globalAddr then (false, wp)
  else
    let low := wp.type = .len ∨ globalAddr = wp.globalAddr
    let valueByte : Byte := if low then wp.value.extractLsb' 0 8 else wp.value.extractLsb' 8 8
    if wp.cond = .invalid then (false, wp)
    else
      let break_ := wp.cond = .any || wp.cond.compare value valueByte
      let wp := if low then { wp with breakL := break_ } else { wp with breakH := break_ }
      (wp.breakL && (wp.type = .len || wp.breakH), wp)

def reset (wp : Watchpoint) : Watchpoint := { wp with breakL := false, breakH := false }

end Watchpoint

/-! ## The collection -/

structure WatchpointHit where
  ids : List Id
  access : WatchpointAccess
  globalAddr : BitVec 32
  value : Byte
  oldValue : Option Byte

structure Watchpoints where
  wps : Table Id Watchpoint
  updates : BitVec 32
  wpBreak : Bool
  hit : Option WatchpointHit
  nextId : Id

namespace Watchpoints

def new : Watchpoints := ⟨∅, 0, false, none, 0⟩

def clear (w : Watchpoints) : Watchpoints :=
  if w.wps.entries.isEmpty then w else { w with wps := ∅, updates := w.updates + 1 }

def succId (id : Id) : Id := (id + 1).bmod (2 ^ 32)

/-- `Add` of a watchpoint: it replaces the one with its id. -/
def add (w : Watchpoints) (wp : Watchpoint) : Watchpoints :=
  { w with
    updates := w.updates + 1
    nextId := max w.nextId (succId wp.id)
    wps := w.wps.insert wp.id wp }

/-- The loop of `AddNew`; it can take no more steps than there are watchpoints. -/
def firstFree (t : Table Id Watchpoint) : Nat → Id → Id
  | 0, id => id
  | fuel + 1, id => if id ∈ t then firstFree t fuel (succId id) else id

def addNew (w : Watchpoints) (wp : Watchpoint) : Watchpoints :=
  let id := firstFree w.wps (Table.size w.wps) w.nextId
  ({ w with nextId := succId id } : Watchpoints).add { wp with id := id }

def edit (w : Watchpoints) (wp : Watchpoint) : Bool × Watchpoints :=
  match w.wps.lookup wp.id with
  | none => (false, w)
  | some _ => (true, { w with wps := w.wps.insert wp.id wp, updates := w.updates + 1 })

/-- `Add` of JSON, and whether it throws: the update is counted before the fields are read. -/
def addJson (w : Watchpoints) (j : WatchpointFields) : Bool × Watchpoints :=
  let w := { w with updates := w.updates + 1 }
  match Watchpoint.ofFields j with
  | none => (true, w)
  | some wp => (false, { w with wps := w.wps.insert wp.id wp })

def del (w : Watchpoints) (id : Id) : Watchpoints :=
  match w.wps.lookup id with
  | none => w
  | some _ => { w with wps := w.wps.erase id, updates := w.updates + 1 }

def check (w : Watchpoints) (access : WatchpointAccess) (globalAddr : BitVec 32) (value : Byte)
    (oldValue : Option Byte) : Watchpoints :=
  let matchedIds :=
    (w.wps.entries.filter fun e => (e.2.check access globalAddr value).1).map Sigma.fst
  let w := { w with wps := Table.mapValues (fun _ wp => (wp.check access globalAddr value).2) w.wps }
  if matchedIds.isEmpty then w
  else
    { w with
      wpBreak := true
      hit := w.hit.or (some ⟨matchedIds.mergeSort (· ≤ ·), access, globalAddr, value, oldValue⟩) }

def checkBreak (w : Watchpoints) : Bool × Watchpoints :=
  if !w.wpBreak then (false, w)
  else
    (true,
      { w with
        wpBreak := false
        hit := none
        wps := Table.mapValues (fun _ wp => wp.reset) w.wps })

def getAll (w : Watchpoints) : List WatchpointJson :=
  ((w.wps.entries.map Sigma.snd).mergeSort fun x y => x.id ≤ y.id).map Watchpoint.toJson

/-! ### Allocated ids -/

theorem succId_iterate_emod (n : Nat) (id : Id) :
    (succId^[n] id) % (2 ^ 32 : Int) = (id + n) % (2 ^ 32 : Int) := by
  induction n generalizing id with
  | zero => rw [Function.iterate_zero_apply, Nat.cast_zero, Int.add_zero]
  | succ n ih =>
      have hcast : (2 ^ 32 : Int) = ((2 ^ 32 : Nat) : Int) := rfl
      rw [Function.iterate_succ_apply, ih, succId, Int.add_emod, hcast, Int.bmod_emod,
        ← Int.add_emod, Nat.cast_succ, Int.add_assoc, Int.add_comm 1]

theorem succId_iterate_mem {t : Table Id Watchpoint} {fuel : Nat} {id : Id}
    (h : firstFree t fuel id ∈ t) : ∀ n ≤ fuel, succId^[n] id ∈ t := by
  induction fuel generalizing id with
  | zero =>
      intro n hn
      obtain rfl : n = 0 := Nat.le_zero.mp hn
      exact h
  | succ fuel ih =>
      rw [firstFree] at h
      split at h
      · rename_i hmem
        intro n hn
        cases n with
        | zero => exact hmem
        | succ n => exact ih h n (Nat.le_of_succ_le_succ hn)
      · rename_i hfree
        exact absurd h hfree

theorem addNew_id_notMem {w : Watchpoints} (hsize : Table.size w.wps < 2 ^ 32) :
    firstFree w.wps (Table.size w.wps) w.nextId ∉ w.wps := by
  intro hmem
  have hall := succId_iterate_mem hmem
  have hnodup : ((List.range (Table.size w.wps + 1)).map fun n => succId^[n] w.nextId).Nodup := by
    apply List.Nodup.map_on _ List.nodup_range
    intro a ha b hb heq
    rw [List.mem_range] at ha hb
    have hmod := congrArg (· % (2 ^ 32 : Int)) heq
    simp only [succId_iterate_emod] at hmod
    omega
  have hsubset : ((List.range (Table.size w.wps + 1)).map fun n => succId^[n] w.nextId) ⊆
      w.wps.keys := by
    intro id hid
    obtain ⟨n, hn, rfl⟩ := List.mem_map.mp hid
    exact AList.mem_keys.mp (hall n (Nat.le_of_lt_succ (List.mem_range.mp hn)))
  have hlength := (hnodup.subperm hsubset).length_le
  rw [List.length_map, List.length_range, AList.keys, List.keys, List.length_map] at hlength
  exact Nat.not_succ_le_self _ hlength

end Watchpoints

end V6Emul
