import V6Emul.Emulator.StopRecord

/-!
# The history of memory edits

A record keeps the byte that was in RAM just before the request that created it,
whatever is written later and however often the record is replaced.
-/

namespace V6Emul

/-! ## Tables of edits -/

namespace MemoryEdits

def InRange (edits : MemoryEdits) : Prop :=
  ∀ a edit, edits.lookup a = some edit → a.toNat < memoryGlobalLen

/-- The value of a record goes into RAM: the record is active, and it is new, was inactive
or had another value. -/
def Applies (existing : Option MemoryEdit) (edit : MemoryEdit) : Prop :=
  edit.active = true ∧
    ∀ old, existing = some old → old.active = false ∨ old.enteredValue ≠ edit.enteredValue

instance (existing : Option MemoryEdit) (edit : MemoryEdit) : Decidable (Applies existing edit) :=
  match existing with
  | none =>
      decidable_of_iff (edit.active = true)
        ⟨fun h => ⟨h, fun _ hold => nomatch hold⟩, fun h => h.1⟩
  | some old =>
      decidable_of_iff
        (edit.active = true ∧ (old.active = false ∨ old.enteredValue ≠ edit.enteredValue))
        ⟨fun h => ⟨h.1, fun _ hold => Option.some_inj.mp hold ▸ h.2⟩, fun h => ⟨h.1, h.2 old rfl⟩⟩

def recordOf (input : MemoryEditInput) (edits : MemoryEdits) (ram : Ram) : MemoryEdit :=
  ⟨input.globalAddr, input.enteredValue,
    ((edits.lookup input.globalAddr).map MemoryEdit.originalValue).getD
      (ram.read input.globalAddr.toNat),
    input.comment, input.readonly, input.active⟩

theorem add_eq (input : MemoryEditInput) (edits : MemoryEdits) (ram : Ram)
    (hrange : input.globalAddr.toNat < memoryGlobalLen) :
    edits.add input ram = .ok (edits.insert input.globalAddr (edits.recordOf input ram),
      if Applies (edits.lookup input.globalAddr) (edits.recordOf input ram) then
        ram.write input.globalAddr.toNat input.enteredValue
      else ram) := by
  rw [add, if_neg (Nat.not_le.mpr hrange)]
  cases hlookup : edits.lookup input.globalAddr with
  | none => simp [recordOf, Applies, hlookup]
  | some old => cases hactive : old.active <;> simp [recordOf, Applies, hlookup, hactive]

theorem add_error (input : MemoryEditInput) (edits : MemoryEdits) (ram : Ram)
    (hrange : memoryGlobalLen ≤ input.globalAddr.toNat) :
    edits.add input ram = .error .outOfRange := by
  rw [add, if_pos hrange]

theorem InRange.insert {edits : MemoryEdits} (h : edits.InRange) {a : BitVec 32} {edit : MemoryEdit}
    (ha : a.toNat < memoryGlobalLen) : InRange (edits.insert a edit) := by
  intro b old hold
  by_cases hb : b = a
  · rw [hb]
    exact ha
  · rw [AList.lookup_insert_ne hb] at hold
    exact h b old hold

theorem lookup_of_erase {edits : MemoryEdits} {a b : BitVec 32} {edit : MemoryEdit}
    (h : (edits.erase b).lookup a = some edit) : edits.lookup a = some edit := by
  by_cases ha : a = b
  · rw [ha, AList.lookup_erase] at h
    cases h
  · rwa [AList.lookup_erase_ne ha] at h

theorem InRange.erase {edits : MemoryEdits} (h : edits.InRange) (a : BitVec 32) :
    InRange (edits.erase a) := by
  intro b old hold
  exact h b old (lookup_of_erase hold)

theorem inRange_empty : InRange ∅ := fun _ _ h => nomatch h

/-! ## Applying all edits -/

def applyEntry (ram : Ram) (e : (_ : BitVec 32) × MemoryEdit) : Ram :=
  if e.2.active then ram.write e.1.toNat e.2.enteredValue else ram

theorem read_applyEntry_ne (ram : Ram) {e : (_ : BitVec 32) × MemoryEdit} {a : BitVec 32}
    (h : a ≠ e.1) : (applyEntry ram e).read a.toNat = ram.read a.toNat := by
  rw [applyEntry]
  split
  · exact Ram.read_write_ne ram _ fun heq => h (BitVec.eq_of_toNat_eq heq)
  · rfl

theorem read_foldl_applyEntry_ne {entries : List ((_ : BitVec 32) × MemoryEdit)} {a : BitVec 32}
    (h : ∀ e ∈ entries, a ≠ e.1) (ram : Ram) :
    (entries.foldl applyEntry ram).read a.toNat = ram.read a.toNat := by
  induction entries generalizing ram with
  | nil => rfl
  | cons e entries ih =>
      rw [List.foldl_cons, ih fun e' he' => h e' (List.mem_cons_of_mem e he'),
        read_applyEntry_ne ram (h e List.mem_cons_self)]

theorem read_foldl_applyEntry {entries : List ((_ : BitVec 32) × MemoryEdit)}
    (hnodup : entries.NodupKeys) {e : (_ : BitVec 32) × MemoryEdit} (he : e ∈ entries)
    (hactive : e.2.active = true) (hrange : e.1.toNat < memoryGlobalLen) (ram : Ram) :
    (entries.foldl applyEntry ram).read e.1.toNat = e.2.enteredValue := by
  induction entries generalizing ram with
  | nil => cases he
  | cons first entries ih =>
      obtain ⟨hfirst, hrest⟩ := List.nodupKeys_cons.mp hnodup
      rw [List.foldl_cons]
      rcases List.mem_cons.mp he with rfl | he
      · have hother : ∀ e' ∈ entries, e.1 ≠ e'.1 := by
          intro e' he' heq
          exact hfirst (heq ▸ List.mem_map_of_mem he')
        rw [read_foldl_applyEntry_ne hother, applyEntry, if_pos hactive]
        exact Ram.read_write_self ram _ hrange
      · exact ih hrest he _

theorem read_reapply {edits : MemoryEdits} (h : edits.InRange) {a : BitVec 32} {edit : MemoryEdit}
    (hlookup : edits.lookup a = some edit) (hactive : edit.active = true) (ram : Ram) :
    (edits.reapply ram).read a.toNat = edit.enteredValue :=
  read_foldl_applyEntry edits.nodupKeys (e := ⟨a, edit⟩) (AList.mem_lookup_iff.mp hlookup) hactive
    (h a edit hlookup) ram

end MemoryEdits

/-! ## Steps -/

namespace Emulator

variable {δ F : Type}

def edits (s : Emulator δ F) : MemoryEdits := s.debugger.memoryEdits

def ram (s : Emulator δ F) : Ram := s.hardware.mem.ram

theorem edits_editMemory_add {input : MemoryEditInput} (s : Emulator δ F)
    (hrange : input.globalAddr.toNat < memoryGlobalLen) :
    (s.editMemory (.add input)).edits =
      s.edits.insert input.globalAddr (s.edits.recordOf input s.ram) ∧
    (s.editMemory (.add input)).ram =
      if MemoryEdits.Applies (s.edits.lookup input.globalAddr) (s.edits.recordOf input s.ram) then
        s.ram.write input.globalAddr.toNat input.enteredValue
      else s.ram := by
  have hadd := s.edits.add_eq input s.ram hrange
  rw [edits, ram] at hadd
  simp only [editMemory, hadd]
  exact ⟨rfl, rfl⟩

theorem editMemory_add_of_le {input : MemoryEditInput} (s : Emulator δ F)
    (hrange : memoryGlobalLen ≤ input.globalAddr.toNat) : s.editMemory (.add input) = s := by
  rw [editMemory, MemoryEdits.add_error input _ _ hrange]

theorem editMemory_restore_none {a : BitVec 32} {s : Emulator δ F}
    (h : s.edits.lookup a = none) : s.editMemory (.restore a) = s := by
  rw [edits] at h
  simp only [editMemory, MemoryEdits.restore, h]

theorem editMemory_restore {a : BitVec 32} {edit : MemoryEdit} {s : Emulator δ F}
    (h : s.edits.lookup a = some edit) :
    s.editMemory (.restore a) =
      (s.setRam (s.ram.write a.toNat edit.originalValue)).setEdits (s.edits.erase a) := by
  rw [edits] at h
  simp only [editMemory, MemoryEdits.restore, h]
  rfl

section Steps

variable [BEq F] [Zero F]

theorem edits_executeInstruction {dev : Devices δ} {lua : LuaCheck F} {s t : Emulator δ F}
    {broke : Bool} (h : s.executeInstruction dev lua = some (broke, t)) : t.edits = s.edits := by
  obtain ⟨hardware, -, heq⟩ := Option.map_eq_some_iff.mp h
  have hhook : ({ s with hardware := hardware }.hook lua).2.edits = s.edits := by
    rw [hook]
    split
    · rw [debug]
      split <;> rfl
    · rfl
  dsimp only at heq
  split at heq
  · obtain ⟨-, rfl⟩ := Prod.mk.inj heq
    exact hhook
  · have hlast : ({ s with hardware := hardware }.hook lua).2.checkException.2 = t :=
      congrArg Prod.snd heq
    rw [← hlast, edits, checkException_debugger]
    exact hhook

theorem edits_executeFrameLoop {dev : Devices δ} {lua : Nat → LuaCheck F} {frameNum : BitVec 64}
    {fuel : Nat} {s t : Emulator δ F} (h : executeFrameLoop dev lua frameNum fuel s = some t) :
    t.edits = s.edits := by
  induction fuel generalizing s with
  | zero => cases h
  | succ fuel ih =>
      rw [executeFrameLoop] at h
      obtain ⟨r, hr, hnext⟩ := Option.bind_eq_some_iff.mp h
      have hfirst : r.2.edits = s.edits := edits_executeInstruction hr
      split at hnext
      · exact (ih hnext).trans hfirst
      · rw [← Option.some_inj.mp hnext]
        exact hfirst

theorem edits_executeFrameNoBreaks {dev : Devices δ} {lua : Nat → LuaCheck F} {fuel : Nat}
    {s t : Emulator δ F} (h : s.executeFrameNoBreaks dev fuel lua = some t) : t.edits = s.edits :=
  edits_executeFrameLoop h

omit [BEq F] [Zero F] in
theorem edits_loadRom {dev : Devices δ} {data : List Byte} {addr : Addr} {autorun : Bool}
    {s t : Emulator δ F} (h : s.loadRom dev data addr autorun = some t) :
    t.edits = s.edits ∧ ∃ ram, t.ram = s.edits.reapply ram := by
  rw [loadRom] at h
  split at h
  · cases h
    cases autorun <;> exact ⟨rfl, _, rfl⟩
  · cases h

theorem edits_step {dev : Devices δ} {fuel : Nat} {s t : Emulator δ F} {input : Input δ F}
    (hother : ∀ op, input ≠ .request (.memoryEdits op)) (h : s.step dev fuel input = some t) :
    t.edits = s.edits := by
  cases input with
  | instruction lua =>
      rw [step, executeRunning] at h
      split at h
      · obtain ⟨r, hr, heq⟩ := Option.map_eq_some_iff.mp h
        have hfirst : r.2.edits = s.edits := edits_executeInstruction hr
        rw [← heq]
        split <;> exact hfirst
      · cases h
  | request req =>
      rw [step] at h
      cases req with
      | executeInstr lua =>
          obtain ⟨r, hr, heq⟩ := Option.map_eq_some_iff.mp h
          have hfirst : r.2.edits = s.edits := edits_executeInstruction hr
          rw [← heq]
          split <;> exact hfirst
      | executeFrame lua =>
          obtain ⟨u, hu, heq⟩ := Option.map_eq_some_iff.mp h
          rw [← heq]
          exact (edits_executeFrameNoBreaks hu : u.edits = s.edits)
      | executeFrameNoBreaks lua =>
          obtain ⟨u, hu, heq⟩ := Option.map_eq_some_iff.mp h
          rw [← heq]
          exact (edits_executeFrameNoBreaks hu : u.edits = s.edits)
      | runHeadless limits =>
          obtain ⟨r, -, hr⟩ := Option.map_eq_some_iff.mp h
          cases hr
          rfl
      | host req =>
          cases req with
          | setIoPaletteEntry index hwColor =>
              cases h
              split <;> rfl
          | _ =>
              cases h
              rfl
      | keyHandling op devices => cases op <;> cases h <;> rfl
      | loadRom data addr autorun => exact (edits_loadRom h).1
      | mountFdd devices autoBoot => cases autoBoot <;> cases h <;> rfl
      | debugReset resetRecorder => cases resetRecorder <;> cases h <;> rfl
      | recorderDeserialize data =>
          obtain ⟨r, -, hr⟩ := Option.map_eq_some_iff.mp h
          split at hr <;> cases hr <;> rfl
      | memoryEdits op => exact absurd rfl (hother op)
      | scriptRunOnce scriptId run =>
          cases h
          rw [scriptRunOnce]
          rcases s.debugger.scripts.runOnce scriptId run with ⟨error | result, scripts⟩
          · rfl
          · dsimp only
            split <;> rfl
      | traceLogFilter texts addressPattern instructionPattern =>
          rw [handle] at h
          split at h <;> cases h <;> rfl
      | _ =>
          cases h
          rfl

theorem original_step {dev : Devices δ} {fuel : Nat} {s t : Emulator δ F} {input : Input δ F}
    (h : s.step dev fuel input = some t) {a : BitVec 32} {edit : MemoryEdit}
    (hedit : t.edits.lookup a = some edit) :
    (∃ old, s.edits.lookup a = some old ∧ old.originalValue = edit.originalValue) ∨
      (∃ req, input = .request (.memoryEdits (.add req)) ∧ req.globalAddr = a) ∧
        s.edits.lookup a = none ∧ s.ram.read a.toNat = edit.originalValue := by
  by_cases hother : ∀ op, input ≠ .request (.memoryEdits op)
  · rw [edits_step hother h] at hedit
    exact .inl ⟨edit, hedit, rfl⟩
  · obtain ⟨op, hop⟩ := not_forall.mp hother
    obtain rfl := not_not.mp hop
    obtain rfl : s.editMemory op = t := Option.some_inj.mp h
    cases op with
    | add req =>
        by_cases hrange : req.globalAddr.toNat < memoryGlobalLen
        · rw [(s.edits_editMemory_add hrange).1] at hedit
          by_cases ha : a = req.globalAddr
          · rw [ha, AList.lookup_insert, Option.some_inj] at hedit
            cases hlookup : s.edits.lookup a with
            | none =>
                refine .inr ⟨⟨req, rfl, ha.symm⟩, rfl, ?_⟩
                rw [← hedit, MemoryEdits.recordOf, ← ha, hlookup]
                rfl
            | some old =>
                refine .inl ⟨old, rfl, ?_⟩
                rw [← hedit, MemoryEdits.recordOf, ← ha, hlookup]
                rfl
          · rw [AList.lookup_insert_ne ha] at hedit
            exact .inl ⟨edit, hedit, rfl⟩
        · rw [editMemory_add_of_le s (Nat.le_of_not_lt hrange)] at hedit
          exact .inl ⟨edit, hedit, rfl⟩
    | del b => exact .inl ⟨edit, MemoryEdits.lookup_of_erase hedit, rfl⟩
    | delAll => cases hedit
    | restore b =>
        cases hlookup : s.edits.lookup b with
        | none =>
            rw [editMemory_restore_none hlookup] at hedit
            exact .inl ⟨edit, hedit, rfl⟩
        | some old =>
            rw [editMemory_restore hlookup] at hedit
            exact .inl ⟨edit, MemoryEdits.lookup_of_erase hedit, rfl⟩

theorem inRange_step {dev : Devices δ} {fuel : Nat} {s t : Emulator δ F} {input : Input δ F}
    (hs : s.edits.InRange) (h : s.step dev fuel input = some t) : t.edits.InRange := by
  by_cases hother : ∀ op, input ≠ .request (.memoryEdits op)
  · rw [edits_step hother h]
    exact hs
  · obtain ⟨op, hop⟩ := not_forall.mp hother
    obtain rfl := not_not.mp hop
    obtain rfl : s.editMemory op = t := Option.some_inj.mp h
    cases op with
    | add req =>
        by_cases hrange : req.globalAddr.toNat < memoryGlobalLen
        · rw [(s.edits_editMemory_add hrange).1]
          exact hs.insert hrange
        · rw [editMemory_add_of_le s (Nat.le_of_not_lt hrange)]
          exact hs
    | del b => exact hs.erase b
    | delAll => exact MemoryEdits.inRange_empty
    | restore b =>
        cases hlookup : s.edits.lookup b with
        | none =>
            rw [editMemory_restore_none hlookup]
            exact hs
        | some old =>
            rw [editMemory_restore hlookup]
            exact hs.erase b

/-! ## Runs -/

def runs (dev : Devices δ) (fuel : Nat) (start : Emulator δ F) (inputs : List (Input δ F)) (n : Nat) :
    Option (Emulator δ F) :=
  Runs.exec (step dev fuel) start (inputs.take n)

structure CreatedBy (dev : Devices δ) (fuel : Nat) (start : Emulator δ F)
    (inputs : List (Input δ F)) (n : Nat) (a : BitVec 32) (value : Byte) (m : Nat) : Prop where
  earlier : m < n
  request : ∃ req, inputs[m]? = some (.request (.memoryEdits (.add req))) ∧ req.globalAddr = a
  before : ∃ s, runs dev fuel start inputs m = some s ∧ s.edits.lookup a = none ∧
    s.ram.read a.toNat = value
  stays : ∀ k s, m < k → k ≤ n → runs dev fuel start inputs k = some s → (s.edits.lookup a).isSome

def Edited (s t : Emulator δ F) : MemoryEditOp → Prop
  | .add input =>
      (memoryGlobalLen ≤ input.globalAddr.toNat ∧ t = s) ∨
        ∃ edit, t.edits = s.edits.insert input.globalAddr edit ∧
          edit.enteredValue = input.enteredValue ∧ edit.active = input.active ∧
          t.ram = if MemoryEdits.Applies (s.edits.lookup input.globalAddr) edit then
              s.ram.write input.globalAddr.toNat edit.enteredValue
            else s.ram
  | .del a => t.edits = s.edits.erase a ∧ t.ram = s.ram
  | .delAll => t.edits = ∅ ∧ t.ram = s.ram
  | .restore a =>
      match s.edits.lookup a with
      | none => t = s
      | some edit => t = (s.setRam (s.ram.write a.toNat edit.originalValue)).setEdits (s.edits.erase a)

structure KeepsOriginals (dev : Devices δ) (fuel : Nat) (start : Emulator δ F)
    (inputs : List (Input δ F)) : Prop where
  original : ∀ n s a edit, runs dev fuel start inputs n = some s → s.edits.lookup a = some edit →
    ∃ m, CreatedBy dev fuel start inputs n a edit.originalValue m
  edited : ∀ n s t op, runs dev fuel start inputs n = some s →
    s.step dev fuel (.request (.memoryEdits op)) = some t → Edited s t op
  loaded : ∀ n s t data addr autorun, runs dev fuel start inputs n = some s →
    s.step dev fuel (.request (.loadRom data addr autorun)) = some t →
    ∀ a edit, t.edits.lookup a = some edit → edit.active = true →
      t.ram.read a.toNat = edit.enteredValue

theorem runs_succ {dev : Devices δ} {fuel : Nat} {start t : Emulator δ F}
    {inputs : List (Input δ F)} {n : Nat} (h : runs dev fuel start inputs (n + 1) = some t) :
    inputs.length ≤ n ∧ runs dev fuel start inputs n = some t ∨
      ∃ s input, inputs[n]? = some input ∧ runs dev fuel start inputs n = some s ∧
        s.step dev fuel input = some t := by
  rcases Nat.lt_or_ge n inputs.length with hlt | hge
  · have hinput : inputs[n]? = some inputs[n] := List.getElem?_eq_getElem hlt
    rw [runs, List.take_add_one, Runs.exec_append, hinput] at h
    obtain ⟨s, hs, ht⟩ := Option.bind_eq_some_iff.mp h
    refine .inr ⟨s, inputs[n], hinput, hs, ?_⟩
    rw [Option.toList_some, Runs.exec] at ht
    obtain ⟨u, hu, ht⟩ := Option.bind_eq_some_iff.mp ht
    rw [hu]
    exact ht
  · rw [runs, List.take_of_length_le (Nat.le_succ_of_le hge)] at h
    rw [runs, List.take_of_length_le hge]
    exact .inl ⟨hge, h⟩

theorem inRange_runs {dev : Devices δ} {fuel : Nat} {start s : Emulator δ F}
    {inputs : List (Input δ F)} (hstart : start.edits.InRange) {n : Nat}
    (h : runs dev fuel start inputs n = some s) : s.edits.InRange := by
  induction n generalizing s with
  | zero =>
      obtain rfl : start = s := Option.some_inj.mp h
      exact hstart
  | succ n ih =>
      rcases runs_succ h with ⟨-, hs⟩ | ⟨u, input, -, hu, hstep⟩
      · exact ih hs
      · exact inRange_step (ih hu) hstep

theorem CreatedBy.succ {dev : Devices δ} {fuel : Nat} {start t : Emulator δ F}
    {inputs : List (Input δ F)} {n : Nat} {a : BitVec 32} {value : Byte} {m : Nat}
    (h : CreatedBy dev fuel start inputs n a value m) (ht : runs dev fuel start inputs (n + 1) = some t)
    (hstays : (t.edits.lookup a).isSome) : CreatedBy dev fuel start inputs (n + 1) a value m where
  earlier := Nat.lt_succ_of_lt h.earlier
  request := h.request
  before := h.before
  stays k u hmk hk hu := by
    rcases Nat.lt_or_eq_of_le hk with hlt | rfl
    · exact h.stays k u hmk (Nat.le_of_lt_succ hlt) hu
    · rw [ht, Option.some_inj] at hu
      exact hu ▸ hstays

theorem createdBy_runs {dev : Devices δ} {fuel : Nat} {start s : Emulator δ F}
    {inputs : List (Input δ F)} (hstart : start.edits = ∅) {n : Nat}
    (h : runs dev fuel start inputs n = some s) {a : BitVec 32} {edit : MemoryEdit}
    (hedit : s.edits.lookup a = some edit) :
    ∃ m, CreatedBy dev fuel start inputs n a edit.originalValue m := by
  induction n generalizing s edit with
  | zero =>
      obtain rfl : start = s := Option.some_inj.mp h
      rw [hstart] at hedit
      cases hedit
  | succ n ih =>
      have hstays : (s.edits.lookup a).isSome := Option.isSome_of_mem hedit
      rcases runs_succ h with ⟨-, hs⟩ | ⟨u, input, hinput, hu, hstep⟩
      · obtain ⟨m, hm⟩ := ih hs hedit
        exact ⟨m, hm.succ h hstays⟩
      · rcases original_step hstep hedit with
          ⟨old, hold, horiginal⟩ | ⟨⟨req, rfl, hreq⟩, hnone, hbyte⟩
        · obtain ⟨m, hm⟩ := ih hu hold
          rw [← horiginal]
          exact ⟨m, hm.succ h hstays⟩
        · refine ⟨n, Nat.lt_succ_self n, ⟨req, hinput, hreq⟩, ⟨u, hu, hnone, hbyte⟩, ?_⟩
          intro k v hnk hk hv
          obtain rfl : k = n + 1 := Nat.le_antisymm hk hnk
          rw [h, Option.some_inj] at hv
          exact hv ▸ hstays

omit [BEq F] [Zero F] in
theorem edited_editMemory (s : Emulator δ F) (op : MemoryEditOp) :
    Edited s (s.editMemory op) op := by
  cases op with
  | add input =>
      by_cases hrange : input.globalAddr.toNat < memoryGlobalLen
      · obtain ⟨hedits, hram⟩ := s.edits_editMemory_add hrange
        exact .inr ⟨_, hedits, rfl, rfl, hram⟩
      · have hle := Nat.le_of_not_lt hrange
        exact .inl ⟨hle, editMemory_add_of_le s hle⟩
  | del a => exact ⟨rfl, rfl⟩
  | delAll => exact ⟨rfl, rfl⟩
  | restore a =>
      rw [Edited]
      cases hlookup : s.edits.lookup a with
      | none => exact editMemory_restore_none hlookup
      | some edit => exact editMemory_restore hlookup

/-- Whatever a new emulator executes and is asked, its memory edits keep the original bytes. -/
theorem memoryEdits_keepOriginals (dev : Devices δ) (fuel : Nat) (hardware : Hardware δ)
    (recordFrames : Nat) (enabled : Bool) (inputs : List (Input δ F)) :
    KeepsOriginals dev fuel (new hardware (.new recordFrames enabled)) inputs where
  original n s a edit h hedit := createdBy_runs rfl h hedit
  edited n s t op _ hstep := Option.some_inj.mp hstep ▸ edited_editMemory s op
  loaded n s t data addr autorun h hstep a edit hedit hactive := by
    have hstart : (new hardware (.new recordFrames enabled) : Emulator δ F).edits.InRange :=
      MemoryEdits.inRange_empty
    have hrange : s.edits.InRange := inRange_runs hstart h
    obtain ⟨hedits, ram, hram⟩ := edits_loadRom hstep
    rw [hedits] at hedit
    rw [hram]
    exact MemoryEdits.read_reapply hrange hedit hactive ram

end Steps

def replacedEdit : List (Input Unit Int) :=
  [.request (.memoryEdits (.add ⟨0x100, 7, "", false, true⟩)),
    .request (.memoryEdits (.add ⟨0x100, 9, "", true, true⟩)),
    .request (.memoryEdits (.restore 0x100))]

/-- A witness: the byte before the first edit comes back. -/
theorem memoryEdits_keepOriginals_replaced :
    let start : Emulator Unit Int := new (.ofRam (fun _ => 0xAA) ()) (.new 10 true)
    KeepsOriginals .silent 0 start replacedEdit ∧
      (List.range 4).map (fun n => (runs .silent 0 start replacedEdit n).map
        fun s => (s.ram.read 0x100, (s.edits.lookup 0x100).map (·.originalValue))) =
      [some (0xAA, none), some (7, some 0xAA), some (9, some 0xAA), some (0xAA, none)] :=
  ⟨memoryEdits_keepOriginals .silent 0 _ 10 true replacedEdit, by decide +kernel⟩

end Emulator

end V6Emul
