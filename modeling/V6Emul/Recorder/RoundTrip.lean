import V6Emul.Recorder.Format
import V6Emul.Recorder.Playback

/-!
# Saving and loading

What is read back of a saved recording, and when playback goes on from it as
from the original.
-/

namespace V6Emul

open Packed

/-! ## States -/

namespace HwState

def mergeLog (old s : HwState) : HwState := ⟨s.saved, if s.log = [] then old.log else s.log⟩

structure Encodable (s : HwState) : Prop where
  length_lt : s.log.length < 2 ^ 31
  addr_lt : ∀ e ∈ s.log, e.addr < 2 ^ 32

theorem entriesOf_map (log : List Store) (h : ∀ e ∈ log, e.addr < 2 ^ 32) :
    entriesOf (log.map fun e => BitVec.ofNat 32 e.addr) (log.map UndoLog.Entry.value)
      (log.map UndoLog.Entry.before) = log := by
  induction log with
  | nil => rfl
  | cons e log ih =>
      have haddr : (BitVec.ofNat 32 e.addr).toNat = e.addr := by
        rw [BitVec.toNat_ofNat, Nat.mod_eq_of_lt (h e List.mem_cons_self)]
      simp only [List.map_cons, entriesOf, haddr]
      rw [ih fun e' he' => h e' (List.mem_cons_of_mem _ he')]

theorem readLog_encode (log : List Store) (h : ∀ e ∈ log, e.addr < 2 ^ 32) (rest : List Byte) :
    readLog log.length
      (Layout.byte.encodeList (log.map UndoLog.Entry.value) ++
        (Layout.byte.encodeList (log.map UndoLog.Entry.before) ++
          ((Layout.uint 4).encodeList (log.map fun e => BitVec.ofNat 32 e.addr) ++ rest))) =
      some (log, rest) := by
  have hvalue := Layout.byte.readList_append (log.map UndoLog.Entry.value)
  have hbefore := Layout.byte.readList_append (log.map UndoLog.Entry.before)
  have haddr := (Layout.uint 4).readList_append (log.map fun e => BitVec.ofNat 32 e.addr)
  rw [List.length_map] at hvalue hbefore haddr
  rw [readLog, hvalue]
  simp only [Option.bind_eq_bind, Option.bind_some, hbefore, haddr]
  rw [entriesOf_map log h]
  rfl

theorem encode_eq (s : HwState) :
    ∃ rest, s.encode = (Layout.uint 8).encode s.saved.cpu.cc ++ rest := by
  have hcpu : (Layout.uint 8).encode s.saved.cpu.cc <+: Layouts.cpuState.encode s.saved.cpu :=
    List.prefix_append _ _
  have hsnapshot : Layouts.cpuState.encode s.saved.cpu <+: Layouts.snapshot.encode s.saved :=
    List.prefix_append _ _
  have hstate : Layouts.snapshot.encode s.saved <+: s.encode := List.prefix_append _ _
  obtain ⟨rest, hrest⟩ := (hcpu.trans hsnapshot).trans hstate
  exact ⟨rest, hrest.symm⟩

theorem read_encode (old s : HwState) (h : s.Encodable) (rest : List Byte) :
    read old (s.encode ++ rest) = some (mergeLog old s, rest) := by
  have hlength := h.length_lt
  rw [read, encode]
  simp only [List.append_assoc, Layout.read_append, Option.bind_eq_bind, Option.bind_some]
  by_cases hempty : s.log = []
  · simp [hempty, mergeLog, Layout.encodeList]
  · have hpos : 0 < s.log.length := List.length_pos_of_ne_nil hempty
    have hnat : (BitVec.ofNat 32 s.log.length).toNat = s.log.length := by
      rw [BitVec.toNat_ofNat, Nat.mod_eq_of_lt (by omega)]
    have hne : BitVec.ofNat 32 s.log.length ≠ 0 := by
      intro hzero
      rw [hzero] at hnat
      exact absurd hnat.symm (Nat.ne_of_gt hpos)
    have hmsb : (BitVec.ofNat 32 s.log.length).msb = false := by
      rw [BitVec.msb_eq_decide, hnat, decide_eq_false_iff_not]
      omega
    rw [if_neg hne, hmsb, if_neg Bool.false_ne_true, hnat, readLog_encode s.log h.addr_lt]
    rw [mergeLog, if_neg hempty]
    rfl

end HwState

namespace Recorder

theorem readStates_encode (l : List HwState) (hl : ∀ s ∈ l, s.Encodable) (i : Nat) (r : Recorder)
    (hfit : i + l.length ≤ r.recordFrames) :
    ∃ states : Nat → HwState, readStates l.length i r (l.flatMap HwState.encode) =
        some { r with states := states } ∧
      (∀ j (hj : j < l.length), states (i + j) = HwState.mergeLog (r.states (i + j)) l[j]) ∧
      ∀ k < i, states k = r.states k := by
  induction l generalizing i r with
  | nil => exact ⟨r.states, rfl, fun j hj => absurd hj (Nat.not_lt_zero j), fun _ _ => rfl⟩
  | cons s l ih =>
      rw [List.length_cons] at hfit
      have hslot : i % r.recordFrames = i := Nat.mod_eq_of_lt (by omega)
      let merged := HwState.mergeLog (r.states i) s
      obtain ⟨states, hread, hnew, hold⟩ := ih (fun x hx => hl x (List.mem_cons_of_mem _ hx)) (i + 1)
        { r with states := Function.update r.states i merged } (by
          change i + 1 + l.length ≤ r.recordFrames
          omega)
      refine ⟨states, ?_, ?_, ?_⟩
      · rw [List.length_cons, List.flatMap_cons, readStates, hslot,
          HwState.read_encode _ _ (hl s List.mem_cons_self)]
        exact hread
      · intro j hj
        cases j with
        | zero =>
            rw [Nat.add_zero, hold i (Nat.lt_succ_self i)]
            exact Function.update_self i merged r.states
        | succ j =>
            have hplace : i + (j + 1) = i + 1 + j := by
              omega
            have hother : Function.update r.states i merged (i + 1 + j) = r.states (i + 1 + j) :=
              Function.update_of_ne (by omega) _ _
            rw [hplace, hnew j (Nat.lt_of_succ_lt_succ hj), List.getElem_cons_succ]
            simp only [hother]
      · intro k hk
        rw [hold k (by omega)]
        exact Function.update_of_ne (by omega) _ _

/-! ## The whole recording -/

theorem memoryGlobalLen_eq : memoryGlobalLen = 2162688 := rfl

theorem copyRam_encode (ram ram₀ : Ram) (rest : List Byte) (i : Fin memoryGlobalLen) :
    copyRam ram₀ ((Layouts.ram.encode ram ++ rest).take (memoryGlobalLen - 4)) i =
      if i.val < memoryGlobalLen - 4 then ram i else ram₀ i := by
  have hram : Layouts.ram.encode ram = List.ofFn ram := Layout.encode_bytes ram
  have hlen : (List.ofFn ram).length = memoryGlobalLen := List.length_ofFn
  rw [hram, copyRam, List.getD_eq_getElem?_getD]
  split
  · rename_i hi
    rw [List.getElem?_take_of_lt hi, List.getElem?_append_left (by rw [hlen]; exact i.isLt),
      List.getElem?_ofFn, dif_pos i.isLt]
    rfl
  · rename_i hi
    have hshort : ((List.ofFn ram ++ rest).take (memoryGlobalLen - 4)).length ≤ i.val :=
      (List.length_take_le _ _).trans (Nat.le_of_not_lt hi)
    rw [List.getElem?_eq_none hshort]
    rfl

theorem read_flag (b : Bool) (cc : BitVec 64) (rest : List Byte) :
    ∃ flag : BitVec 64, (Layout.uint 8).read
        (Layout.bool.encode b ++ ((Layout.uint 8).encode cc ++ rest)) =
          some (flag, (Layout.bool.encode b ++ ((Layout.uint 8).encode cc ++ rest)).drop 8) ∧
      ((flag != 0) = true ↔ b = true ∨ cc.toNat % 2 ^ 56 ≠ 0) := by
  have hbool : Layout.bool.encode b = [if b then 1 else 0] := rfl
  have hcc : ((Layout.uint 8).encode cc).length = 8 := (Layout.uint 8).length_encode cc
  refine ⟨_, (Layout.uint 8).read_of_le ?_, ?_⟩
  · change 8 ≤ _
    rw [hbool, List.length_append, List.length_append, hcc, List.length_singleton]
    omega
  · have htake : (Layout.bool.encode b ++ ((Layout.uint 8).encode cc ++ rest)).take 8 =
        (if b then 1 else 0) :: toLE 7 cc.toNat := by
      rw [hbool, List.singleton_append, List.take_succ_cons,
        List.take_append_of_le_length (by rw [hcc]; omega)]
      exact congrArg _ (take_toLE 8 7 cc.toNat (by omega))
    have hvalue : ofLE ((if b then 1 else 0) :: toLE 7 cc.toNat) =
        (if b then 1 else 0) + 256 * (cc.toNat % 2 ^ 56) := by
      rw [ofLE, ofLE_toLE]
      cases b <;> rfl
    have hlt : ofLE ((if b then 1 else 0) :: toLE 7 cc.toNat) < 2 ^ 64 := by
      rw [hvalue]
      have hmod := Nat.mod_lt cc.toNat (Nat.two_pow_pos 56)
      split <;> omega
    change ((BitVec.ofNat 64 (ofLE (List.take 8 _)) != 0) = true) ↔ _
    rw [htake, bne_iff_ne, ne_eq, ← BitVec.toNat_inj, BitVec.toNat_ofNat, Nat.mod_eq_of_lt hlt,
      hvalue]
    change ¬_ = 0 ↔ _
    cases b with
    | true => simp
    | false => simp

def loadedRam (r r₀ : Recorder) : Ram :=
  fun i => if i.val < memoryGlobalLen - 4 then r.ram i else r₀.ram i

def loadedFlag (r : Recorder) (s : HwState) : Bool :=
  r.lastRecord || s.saved.cpu.cc.toNat % 2 ^ 56 != 0

theorem read_version (v : BitVec 32) (body : List Byte) (hbody : 4 ≤ body.length) :
    ∃ version : BitVec 64, (Layout.uint 8).read ((Layout.uint 4).encode v ++ body) =
        some (version, ((Layout.uint 4).encode v ++ body).drop 8) ∧ version.setWidth 32 = v := by
  have hv : ((Layout.uint 4).encode v).length = 4 := (Layout.uint 4).length_encode v
  have hlen : 8 ≤ ((Layout.uint 4).encode v ++ body).length := by
    rw [List.length_append, hv]
    omega
  refine ⟨_, (Layout.uint 8).read_of_le hlen, ?_⟩
  have htake : (((Layout.uint 4).encode v ++ body).take 8).take 4 = (Layout.uint 4).encode v := by
    rw [List.take_take, Nat.min_eq_left (by omega), List.take_left' hv]
  have hshort : 4 ≤ (((Layout.uint 4).encode v ++ body).take 8).length := by
    rw [List.length_take_of_le hlen]
    omega
  have hdecode := Layout.setWidth_decode_uint (n := 8) (by omega) hshort
  rw [htake, (Layout.uint 4).decode_encode] at hdecode
  exact hdecode

theorem readStates_serialized (r₀ : Recorder) (l : List HwState) (h : ∀ s ∈ l, s.Encodable)
    (hfit : l.length ≤ r₀.recordFrames) :
    ∃ states : Nat → HwState,
      readStates l.length 0 r₀ (l.flatMap HwState.encode) = some { r₀ with states := states } ∧
        ∀ j (hj : j < l.length), states j = HwState.mergeLog (r₀.states j) l[j] := by
  obtain ⟨states, hread, hnew, -⟩ := readStates_encode l h 0 r₀ (by omega)
  refine ⟨states, hread, ?_⟩
  intro j hj
  have hj' := hnew j hj
  rwa [Nat.zero_add] at hj'

theorem deserializeBody_eq {data bytes data₀ data₁ data₂ data₃ : List Byte}
    {stateRecorded stateCurrent lastRecord : BitVec 64} (r : Recorder) (m : Machine)
    (hbytes : Layout.byte.readList (memoryGlobalLen - 4) data = some (bytes, data₀))
    (hrecorded : (Layout.uint 8).read (data.drop memoryGlobalLen) = some (stateRecorded, data₁))
    (hcurrent : (Layout.uint 8).read data₁ = some (stateCurrent, data₂))
    (hflag : (Layout.uint 8).read data₂ = some (lastRecord, data₃)) :
    deserializeBody data r m =
      (readStates stateRecorded.toNat 0
        { r with
          ram := copyRam r.ram bytes
          stateRecorded := stateRecorded.toNat
          stateIdx := (stateRecorded.toNat + sizeT - 1) % sizeT
          stateCurrent := stateCurrent.toNat
          lastRecord := lastRecord != 0 } (data₂.drop 1)).bind fun loaded =>
        loaded.restoreState (m.setRam (copyRam r.ram bytes)) := by
  rw [deserializeBody, hbytes, hrecorded]
  simp only [Option.bind_eq_bind, Option.bind_some, hcurrent, hflag]

theorem restoreState_of_lt {r : Recorder} (h : r.stateIdx < r.recordFrames) (m : Machine) :
    r.restoreState m = some ({ r with ram := m.mem.ram }, m.restore r.state.saved) :=
  if_pos h

theorem deserialize_eq {data rest : List Byte} {version : BitVec 64} (r : Recorder) (m : Machine)
    (hversion : (Layout.uint 8).read data = some (version, rest)) :
    r.deserialize data m =
      if version.setWidth 32 &&& versionMask ≠ formatVersion then
        some ({ r with version := version.setWidth 32 }, m)
      else deserializeBody (data.drop 4) { r with version := version.setWidth 32 } m := by
  rw [deserialize, hversion]
  rfl

theorem deserializeBody_cases {data : List Byte} {r r' : Recorder} {m m' : Machine}
    (h : deserializeBody data r m = some (r', m')) :
    ∃ bytes stateRecorded stateCurrent lastRecord data₀ data₁ data₂ data₃ loaded,
      Layout.byte.readList (memoryGlobalLen - 4) data = some (bytes, data₀) ∧
      (Layout.uint 8).read (data.drop memoryGlobalLen) = some (stateRecorded, data₁) ∧
      (Layout.uint 8).read data₁ = some (stateCurrent, data₂) ∧
      (Layout.uint 8).read data₂ = some (lastRecord, data₃) ∧
      readStates stateRecorded.toNat 0
        { r with
          ram := copyRam r.ram bytes
          stateRecorded := stateRecorded.toNat
          stateIdx := (stateRecorded.toNat + sizeT - 1) % sizeT
          stateCurrent := stateCurrent.toNat
          lastRecord := lastRecord != 0 } (data₂.drop 1) = some loaded ∧
      loaded.restoreState (m.setRam (copyRam r.ram bytes)) = some (r', m') := by
  rw [deserializeBody] at h
  simp only [Option.bind_eq_bind, Option.bind_eq_some_iff] at h
  obtain ⟨⟨bytes, data₀⟩, hbytes, ⟨stateRecorded, data₁⟩, hrecorded, ⟨stateCurrent, data₂⟩, hcurrent,
    ⟨lastRecord, data₃⟩, hflag, loaded, hloaded, hrestore⟩ := h
  exact ⟨bytes, stateRecorded, stateCurrent, lastRecord, data₀, data₁, data₂, data₃, loaded, hbytes,
    hrecorded, hcurrent, hflag, hloaded, hrestore⟩

theorem restoreState_cases {r r' : Recorder} {m m' : Machine}
    (h : r.restoreState m = some (r', m')) :
    r.stateIdx < r.recordFrames ∧ r' = { r with ram := m.mem.ram } ∧
      m' = m.restore r.state.saved := by
  rw [restoreState] at h
  split at h
  · rename_i hidx
    rw [Option.some_inj, Prod.mk.injEq] at h
    exact ⟨hidx, h.1.symm, h.2.symm⟩
  · exact absurd h.symm (Option.some_ne_none _)

theorem deserialize_cases {data : List Byte} {r r' : Recorder} {m m' : Machine}
    (h : r.deserialize data m = some (r', m')) :
    ∃ version rest, (Layout.uint 8).read data = some (version, rest) ∧
      ((version.setWidth 32 &&& versionMask ≠ formatVersion ∧
          r' = { r with version := version.setWidth 32 } ∧ m' = m) ∨
        (version.setWidth 32 &&& versionMask = formatVersion ∧
          deserializeBody (data.drop 4) { r with version := version.setWidth 32 } m =
            some (r', m'))) := by
  cases hread : (Layout.uint 8).read data with
  | none =>
      rw [deserialize, hread] at h
      exact absurd h.symm (Option.some_ne_none _)
  | some p =>
      obtain ⟨version, rest⟩ := p
      rw [deserialize_eq r m hread] at h
      refine ⟨version, rest, rfl, ?_⟩
      by_cases hversion : version.setWidth 32 &&& versionMask = formatVersion
      · rw [if_neg (not_not.mpr hversion)] at h
        exact .inr ⟨hversion, h⟩
      · rw [if_pos hversion, Option.some_inj, Prod.mk.injEq] at h
        exact .inl ⟨hversion, h.1.symm, h.2.symm⟩

theorem deserialize_serialize (r r₀ : Recorder) (m₀ : Machine)
    (hversion : r.version &&& versionMask = formatVersion)
    (hcurrent : r.stateCurrent < sizeT) (hfit : r.stateRecorded ≤ r₀.recordFrames)
    (s : HwState) (l : List HwState) (hstates : r.serializedStates = s :: l)
    (hlen : r.stateRecorded = l.length + 1)
    (hencodable : ∀ x ∈ r.serializedStates, x.Encodable) :
    ∃ states : Nat → HwState,
      r₀.deserialize r.serialize m₀ = some
        ({ r₀ with
          version := r.version
          ram := r.loadedRam r₀
          stateRecorded := r.stateRecorded
          stateIdx := r.stateRecorded - 1
          stateCurrent := r.stateCurrent
          lastRecord := r.loadedFlag s
          states := states },
        (m₀.setRam (r.loadedRam r₀)).restore (states (r.stateRecorded - 1)).saved) ∧
      ∀ j (hj : j < r.serializedStates.length),
        states j = HwState.mergeLog (r₀.states j) r.serializedStates[j] := by
  have hle := r₀.recordFrames_le
  have hsize : r.stateRecorded < sizeT := lt_sizeT (by omega)
  have hsizeT : sizeT = 2 ^ 64 := rfl
  have hramLen : (Layouts.ram.encode r.ram).length = memoryGlobalLen :=
    Layouts.ram.length_encode r.ram
  have hglobal := memoryGlobalLen_eq
  have hlist : r.serializedStates.length = r.stateRecorded := by
    rw [hstates, hlen, List.length_cons]
  let states := r.serializedStates.flatMap HwState.encode
  let flag := Layout.bool.encode r.lastRecord ++ states
  let counters := (Layout.uint 8).encode (BitVec.ofNat 64 r.stateRecorded) ++
    ((Layout.uint 8).encode (BitVec.ofNat 64 r.stateCurrent) ++ flag)
  let body := Layouts.ram.encode r.ram ++ counters
  have hdata : r.serialize = (Layout.uint 4).encode r.version ++ body := by
    rw [serialize, if_neg (by omega)]
  have hbodyLen : memoryGlobalLen ≤ body.length := by
    change _ ≤ (Layouts.ram.encode r.ram ++ counters).length
    rw [List.length_append, hramLen]
    exact Nat.le_add_right _ _
  obtain ⟨version, hreadVersion, hv⟩ := read_version r.version body (by omega)
  have hdrop : ((Layout.uint 4).encode r.version ++ body).drop 4 = body :=
    List.drop_left' ((Layout.uint 4).length_encode r.version)
  have hcopy : copyRam r₀.ram (body.take (memoryGlobalLen - 4)) = r.loadedRam r₀ := by
    funext i
    exact copyRam_encode r.ram r₀.ram counters i
  have hcounters : body.drop memoryGlobalLen = counters := List.drop_left' hramLen
  have hnatRecorded : (BitVec.ofNat 64 r.stateRecorded).toNat = r.stateRecorded := by
    rw [BitVec.toNat_ofNat, Nat.mod_eq_of_lt (by omega)]
  have hnatCurrent : (BitVec.ofNat 64 r.stateCurrent).toNat = r.stateCurrent := by
    rw [BitVec.toNat_ofNat, Nat.mod_eq_of_lt (by omega)]
  have hreadRecorded : (Layout.uint 8).read counters =
      some (BitVec.ofNat 64 r.stateRecorded, _) := Layout.read_append _ _ _
  have hreadCurrent : (Layout.uint 8).read
      ((Layout.uint 8).encode (BitVec.ofNat 64 r.stateCurrent) ++ flag) =
      some (BitVec.ofNat 64 r.stateCurrent, flag) := Layout.read_append _ _ _
  obtain ⟨rest, hrest⟩ := s.encode_eq
  have hflag : flag = Layout.bool.encode r.lastRecord ++
      ((Layout.uint 8).encode s.saved.cpu.cc ++ (rest ++ l.flatMap HwState.encode)) := by
    change Layout.bool.encode r.lastRecord ++ r.serializedStates.flatMap HwState.encode = _
    rw [hstates, List.flatMap_cons, hrest, List.append_assoc]
  obtain ⟨value, hreadFlag, hvalue⟩ :=
    read_flag r.lastRecord s.saved.cpu.cc (rest ++ l.flatMap HwState.encode)
  rw [← hflag] at hreadFlag
  have hloaded : (value != 0) = r.loadedFlag s := by
    rw [Bool.eq_iff_iff, hvalue, loadedFlag, Bool.or_eq_true, bne_iff_ne]
  have hflagRest : flag.drop 1 = states :=
    List.drop_left' (Layout.bool.length_encode r.lastRecord)
  obtain ⟨slots, hreadStates, hslots⟩ := readStates_serialized
    { r₀ with
      version := r.version
      ram := r.loadedRam r₀
      stateRecorded := r.stateRecorded
      stateIdx := (r.stateRecorded + sizeT - 1) % sizeT
      stateCurrent := r.stateCurrent
      lastRecord := r.loadedFlag s } r.serializedStates hencodable (by rw [hlist]; exact hfit)
  rw [hlist] at hreadStates
  have hidx : (r.stateRecorded + sizeT - 1) % sizeT = r.stateRecorded - 1 := by
    have hsum : r.stateRecorded + sizeT - 1 = r.stateRecorded - 1 + sizeT := by
      omega
    rw [hsum, Nat.add_mod_right, Nat.mod_eq_of_lt (by omega)]
  have hbytes : Layout.byte.readList (memoryGlobalLen - 4) body =
      some (body.take (memoryGlobalLen - 4), body.drop (memoryGlobalLen - 4)) :=
    Layout.readList_byte _ ((Nat.sub_le _ _).trans hbodyLen)
  have hbody := deserializeBody_eq { r₀ with version := r.version } m₀ hbytes
    (by rw [hcounters]; exact hreadRecorded) hreadCurrent hreadFlag
  have hcopied : copyRam ({ r₀ with version := r.version } : Recorder).ram
      (body.take (memoryGlobalLen - 4)) = r.loadedRam r₀ := hcopy
  rw [hcopied, hloaded, hflagRest, hnatRecorded, hnatCurrent] at hbody
  have hstart : r₀.deserialize r.serialize m₀ =
      deserializeBody body { r₀ with version := r.version } m₀ := by
    rw [hdata, deserialize_eq r₀ m₀ hreadVersion, hv, if_neg (not_not.mpr hversion), hdrop]
  have hslot : r.stateRecorded - 1 < r₀.recordFrames := by
    omega
  refine ⟨slots, ?_, hslots⟩
  rw [hstart, hbody, hreadStates, Option.bind_some, hidx, restoreState_of_lt hslot]
  rfl

/-! ## Playing on from a load -/

structure Plays (r : Recorder) (l : List HwState) (base : Nat) : Prop where
  idx : r.stateIdx = Ring.slot r.recordFrames base (r.stateCurrent - 1)
  current_pos : 1 ≤ r.stateCurrent
  current_le : r.stateCurrent ≤ l.length
  recorded : r.stateRecorded = l.length
  window : Ring.Window r.states r.recordFrames base l
  safe : r.recordFrames ∣ sizeT ∨ ∀ i, 0 < i → i < l.length → 0 < Ring.slot r.recordFrames base i

namespace Plays

variable {r r' : Recorder} {m m' : Machine} {l : List HwState} {base base' : Nat}

theorem frames_pos (h : r.Plays l base) : 0 < r.recordFrames := by
  have hpos := h.current_pos
  have hle := h.current_le
  have hmax := h.window.length_le
  omega

theorem idx_lt (h : r.Plays l base) : r.stateIdx < r.recordFrames := by
  rw [h.idx]
  exact Ring.slot_lt h.frames_pos _ _

theorem current_lt_sizeT (h : r.Plays l base) : r.stateCurrent + 1 < sizeT := by
  have hle := h.current_le
  have hmax := h.window.length_le
  have hframes := r.recordFrames_le
  exact lt_sizeT (by omega)

theorem state (h : r.Plays l base) : l[r.stateCurrent - 1]? = some r.state := by
  have hpos := h.current_pos
  have hle := h.current_le
  have hlt : r.stateCurrent - 1 < l.length := by
    omega
  rw [Recorder.state, h.idx, h.window.get _ hlt]
  exact List.getElem?_eq_getElem hlt

theorem move (h : r.Plays l base) {c : Nat} (hpos : 1 ≤ c) (hle : c ≤ l.length) (b : Bool) :
    ({ r with
      stateIdx := Ring.slot r.recordFrames base (c - 1)
      stateCurrent := c
      lastRecord := b } : Recorder).Plays l base :=
  ⟨rfl, hpos, hle, h.recorded, h.window, h.safe⟩

theorem stepForward_eq (h : r.Plays l base) (m : Machine) :
    (r.stepForward m).1 = { r with
      stateIdx := Ring.slot r.recordFrames base (r.stateCurrent + 1 - 1)
      stateCurrent := r.stateCurrent + 1
      lastRecord := r.lastRecord } := by
  have hpos := h.current_pos
  have hnext : r.nextIdx = Ring.slot r.recordFrames base (r.stateCurrent + 1 - 1) := by
    have hsucc : r.stateCurrent + 1 - 1 = r.stateCurrent - 1 + 1 := by
      omega
    rw [r.nextIdx_eq h.idx_lt, h.idx, Ring.slot_succ, hsucc]
  rw [Recorder.stepForward, hnext, Nat.mod_eq_of_lt h.current_lt_sizeT]

theorem stepReverse_eq (h : r.Plays l base) (m : Machine)
    (hgo : ¬(r.stateCurrent = 1 ∧ r.lastRecord = false)) :
    ∃ c, 1 ≤ c ∧ c ≤ l.length ∧ c = (if r.lastRecord then r.stateCurrent else r.stateCurrent - 1) ∧
      (r.stepReverse m).1 = { r with
        stateIdx := Ring.slot r.recordFrames base (c - 1)
        stateCurrent := c
        lastRecord := false } := by
  have hpos := h.current_pos
  have hle := h.current_le
  cases hlast : r.lastRecord with
  | true =>
      refine ⟨r.stateCurrent, hpos, hle, rfl, ?_⟩
      rw [Recorder.stepReverse, if_pos hlast, ← h.idx]
  | false =>
      have htwo : 2 ≤ r.stateCurrent := by
        have hne : r.stateCurrent ≠ 1 := fun hone => hgo ⟨hone, hlast⟩
        omega
      have hslot : r.recordFrames ∣ sizeT ∨ 0 < r.stateIdx := by
        refine h.safe.imp_right ?_
        intro hsafe
        rw [h.idx]
        exact hsafe _ (by omega) (by omega)
      have hprev : r.prevIdx = Ring.slot r.recordFrames base (r.stateCurrent - 1 - 1) := by
        have hsucc : r.stateCurrent - 1 = r.stateCurrent - 1 - 1 + 1 := by
          omega
        rw [r.prevIdx_eq h.idx_lt hslot, h.idx]
        nth_rewrite 1 [hsucc]
        rw [Ring.slot_pred h.frames_pos]
      have hcurrent : (r.stateCurrent + sizeT - 1) % sizeT = r.stateCurrent - 1 := by
        have hsize := h.current_lt_sizeT
        have hsum : r.stateCurrent + sizeT - 1 = r.stateCurrent - 1 + sizeT := by
          omega
        rw [hsum, Nat.add_mod_right, Nat.mod_eq_of_lt (by omega)]
      refine ⟨r.stateCurrent - 1, by omega, by omega, rfl, ?_⟩
      rw [Recorder.stepReverse, if_neg (by rw [hlast]; exact Bool.false_ne_true), hprev, hcurrent,
        hlast]

end Plays

structure Alike (r r' : Recorder) (m m' : Machine) : Prop where
  same : ∃ l base base', r.Plays l base ∧ r'.Plays l base'
  current : r.stateCurrent = r'.stateCurrent
  last : r.lastRecord = r'.lastRecord
  frame : m.frame = m'.frame

namespace Alike

variable {r r' : Recorder} {m m' : Machine}

theorem recorded (h : r.Alike r' m m') : r.stateRecorded = r'.stateRecorded := by
  obtain ⟨l, base, base', hl, hl'⟩ := h.same
  rw [hl.recorded, hl'.recorded]

theorem state (h : r.Alike r' m m') : r.state = r'.state := by
  obtain ⟨l, base, base', hl, hl'⟩ := h.same
  have hstate := hl.state
  rw [h.current, hl'.state] at hstate
  exact (Option.some.inj hstate).symm

theorem mem (h : r.Alike r' m m') : m.mem.ram = m'.mem.ram :=
  congrArg UndoLog.Frame.mem h.frame

theorem stepForward (h : r.Alike r' m m') (hgo : r.stateCurrent ≠ r.stateRecorded) :
    (r.stepForward m).1.Alike (r'.stepForward m').1 (r.stepForward m).2 (r'.stepForward m').2 := by
  obtain ⟨l, base, base', hl, hl'⟩ := h.same
  have hle := hl.current_le
  have hrecorded := hl.recorded
  have hplays := hl.move (c := r.stateCurrent + 1) (by omega) (by omega) r.lastRecord
  have hplays' := hl'.move (c := r'.stateCurrent + 1) (by omega)
    (by rw [← h.current]; omega) r'.lastRecord
  rw [← hl.stepForward_eq m] at hplays
  rw [← hl'.stepForward_eq m'] at hplays'
  have hmoved : (r.stepForward m).1.stateCurrent = (r'.stepForward m').1.stateCurrent := by
    rw [hl.stepForward_eq m, hl'.stepForward_eq m']
    exact congrArg (· + 1) h.current
  have hstate : (r.stepForward m).1.state = (r'.stepForward m').1.state := by
    have hnew := hplays.state
    rw [hmoved, hplays'.state] at hnew
    exact (Option.some.inj hnew).symm
  refine ⟨⟨l, base, base', hplays, hplays'⟩, hmoved, h.last, ?_⟩
  change (⟨(r.stepForward m).1.state.saved, Ram.cells.redo m.mem.ram r.state.log⟩ : Frame) =
    ⟨(r'.stepForward m').1.state.saved, Ram.cells.redo m'.mem.ram r'.state.log⟩
  rw [hstate, h.state, h.mem]

theorem stepReverse (h : r.Alike r' m m')
    (hgo : ¬(r.stateCurrent = 1 ∧ r.lastRecord = false)) :
    (r.stepReverse m).1.Alike (r'.stepReverse m').1 (r.stepReverse m).2 (r'.stepReverse m').2 := by
  obtain ⟨l, base, base', hl, hl'⟩ := h.same
  obtain ⟨c, hpos, hle, hc, hstep⟩ := hl.stepReverse_eq m hgo
  obtain ⟨c', hpos', hle', hc', hstep'⟩ := hl'.stepReverse_eq m' (by rwa [← h.current, ← h.last])
  have hsame : c = c' := by
    rw [hc, hc', h.current, h.last]
  have hplays := hl.move hpos hle false
  have hplays' := hl'.move hpos' hle' false
  rw [← hstep] at hplays
  rw [← hstep'] at hplays'
  have hmoved : (r.stepReverse m).1.stateCurrent = (r'.stepReverse m').1.stateCurrent := by
    rw [hstep, hstep']
    exact hsame
  have hstate : (r.stepReverse m).1.state = (r'.stepReverse m').1.state := by
    have hnew := hplays.state
    rw [hmoved, hplays'.state] at hnew
    exact (Option.some.inj hnew).symm
  refine ⟨⟨l, base, base', hplays, hplays'⟩, hmoved, by rw [hstep, hstep'], ?_⟩
  change (⟨(r.stepReverse m).1.state.saved,
      Ram.cells.undo m.mem.ram (r.stepReverse m).1.state.log⟩ : Frame) =
    ⟨(r'.stepReverse m').1.state.saved,
      Ram.cells.undo m'.mem.ram (r'.stepReverse m').1.state.log⟩
  rw [hstate, h.mem]

theorem playForwardLoop (h : r.Alike r' m m') (n : Nat) :
    (r.playForwardLoop n m).1.Alike (r'.playForwardLoop n m').1
      (r.playForwardLoop n m).2 (r'.playForwardLoop n m').2 := by
  induction n generalizing r r' m m' with
  | zero => exact h
  | succ n ih =>
      rw [Recorder.playForwardLoop, Recorder.playForwardLoop]
      by_cases hedge : r.stateCurrent = r.stateRecorded
      · rw [if_pos hedge, if_pos (by rwa [← h.current, ← h.recorded])]
        obtain ⟨l, base, base', hl, hl'⟩ := h.same
        exact ⟨⟨l, base, base',
          ⟨hl.idx, hl.current_pos, hl.current_le, hl.recorded, hl.window, hl.safe⟩,
          ⟨hl'.idx, hl'.current_pos, hl'.current_le, hl'.recorded, hl'.window, hl'.safe⟩⟩,
          h.current, rfl, h.frame⟩
      · rw [if_neg hedge, if_neg (by rwa [← h.current, ← h.recorded])]
        exact ih (h.stepForward hedge)

theorem playReverseLoop (h : r.Alike r' m m') (n : Nat) :
    (r.playReverseLoop n m).1.Alike (r'.playReverseLoop n m').1
      (r.playReverseLoop n m).2 (r'.playReverseLoop n m').2 := by
  induction n generalizing r r' m m' with
  | zero => exact h
  | succ n ih =>
      rw [Recorder.playReverseLoop, Recorder.playReverseLoop]
      by_cases hstop : r.stateCurrent = 1 ∧ r.lastRecord = false
      · rw [if_pos hstop, if_pos (by rwa [← h.current, ← h.last])]
        exact h
      · rw [if_neg hstop, if_neg (by rwa [← h.current, ← h.last])]
        exact ih (h.stepReverse hstop)

end Alike

inductive Play where
  | forward (frames : Int)
  | reverse (frames : Int)

def play (r : Recorder) (m : Machine) : Play → Recorder × Machine
  | .forward frames => r.playForward frames m
  | .reverse frames => r.playReverse frames m

def playAll (r : Recorder) (m : Machine) : List Play → Recorder × Machine
  | [] => (r, m)
  | p :: ps => playAll (r.play m p).1 (r.play m p).2 ps

theorem Alike.playAll {r r' : Recorder} {m m' : Machine} (h : r.Alike r' m m') (ps : List Play) :
    (r.playAll m ps).2.frame = (r'.playAll m' ps).2.frame := by
  induction ps generalizing r r' m m' with
  | nil => exact h.frame
  | cons p ps ih =>
      cases p with
      | forward frames => exact ih (h.playForwardLoop frames.toNat)
      | reverse frames => exact ih (h.playReverseLoop frames.toNat)

/-! ## Reachable recorders -/

/--
`Reset`, `Update`, `PlayForward` and `PlayReverse` in any order.  The debug
record that `Update` is handed lists addresses of the array.
-/
inductive Reachable : Recorder → Machine → Prop where
  | new (n : Nat) (m : Machine) : 1 ≤ n → Reachable (new n) m
  | reset {r : Recorder} {m : Machine} : Reachable r m → Reachable (r.reset m) m
  | update {r : Recorder} {m : Machine} (m' : Machine) : Reachable r m →
      (∀ e ∈ m'.mem.debug.entries, e.addr < memoryGlobalLen) → Reachable (r.update m') m'
  | play {r : Recorder} {m : Machine} (p : Play) : Reachable r m →
      Reachable (r.play m p).1 (r.play m p).2

structure WellFormed (r : Recorder) : Prop where
  idx_lt : r.stateIdx < r.recordFrames
  version : r.version = formatVersion
  addr_lt : ∀ i, ∀ e ∈ (r.states i).log, e.addr < memoryGlobalLen

namespace WellFormed

variable {r : Recorder}

theorem frames_pos (h : r.WellFormed) : 0 < r.recordFrames :=
  Nat.lt_of_le_of_lt (Nat.zero_le _) h.idx_lt

theorem setLog (h : r.WellFormed) {log : List Store} (hlog : ∀ e ∈ log, e.addr < memoryGlobalLen) :
    (r.setState { r.state with log := log }).WellFormed := by
  refine ⟨h.idx_lt, h.version, ?_⟩
  intro i
  rw [setState]
  by_cases hi : i = r.stateIdx
  · subst hi
    simpa using hlog
  · simpa [Function.update_of_ne hi] using h.addr_lt i

theorem resumed (h : r.WellFormed) : r.resumed.WellFormed := by
  unfold Recorder.resumed
  split
  · exact h
  · have hdropped : ({ r with lastRecord := true, stateRecorded := r.stateCurrent } :
        Recorder).WellFormed := ⟨h.idx_lt, h.version, h.addr_lt⟩
    exact hdropped.setLog fun e he => absurd he List.not_mem_nil

theorem storeState (h : r.WellFormed) (m : Machine) : (r.storeState m).WellFormed := by
  refine ⟨r.nextIdx_lt h.frames_pos, h.version, ?_⟩
  intro i
  by_cases hi : i = r.nextIdx
  · subst hi
    simp [Recorder.storeState]
  · simpa [Recorder.storeState, Function.update_of_ne hi] using h.addr_lt i

theorem reset (h : r.WellFormed) (m : Machine) : (r.reset m).WellFormed := by
  have hcleared : ({ r with
      stateIdx := 0
      stateRecorded := 0
      stateCurrent := 0
      lastRecord := true
      frameNum := m.display.frameNum } : Recorder).WellFormed := ⟨h.frames_pos, h.version, h.addr_lt⟩
  exact hcleared.storeState m

theorem update (h : r.WellFormed) {m : Machine}
    (hm : ∀ e ∈ m.mem.debug.entries, e.addr < memoryGlobalLen) : (r.update m).WellFormed := by
  have hdiff : (r.resumed.storeMemoryDiff m).WellFormed := by
    refine h.resumed.setLog ?_
    intro e he
    rcases List.mem_append.mp he with hold | hnew
    · exact h.resumed.addr_lt _ e hold
    · exact hm e hnew
  rw [update_eq]
  split
  · have hstore := hdiff.storeState m
    exact ⟨hstore.idx_lt, hstore.version, hstore.addr_lt⟩
  · exact hdiff

theorem playForwardLoop (h : r.WellFormed) (n : Nat) (m : Machine) :
    (r.playForwardLoop n m).1.WellFormed := by
  induction n generalizing r m with
  | zero => exact h
  | succ n ih =>
      rw [Recorder.playForwardLoop]
      split
      · exact ⟨h.idx_lt, h.version, h.addr_lt⟩
      · have hstep : (r.stepForward m).1.WellFormed :=
          ⟨r.nextIdx_lt h.frames_pos, h.version, h.addr_lt⟩
        exact ih hstep _

theorem stepReverse (h : r.WellFormed) (m : Machine) : (r.stepReverse m).1.WellFormed := by
  rw [stepReverse_fst]
  split
  · exact ⟨h.idx_lt, h.version, h.addr_lt⟩
  · have hidx := r.prevIdx_lt h.frames_pos
    generalize (r.stateCurrent + sizeT - 1) % sizeT = current
    exact ⟨hidx, h.version, h.addr_lt⟩

theorem playReverseLoop (h : r.WellFormed) (n : Nat) (m : Machine) :
    (r.playReverseLoop n m).1.WellFormed := by
  induction n generalizing r m with
  | zero => exact h
  | succ n ih =>
      rw [Recorder.playReverseLoop]
      split
      · exact h
      · exact ih (h.stepReverse m) _

end WellFormed

theorem Reachable.wellFormed {r : Recorder} {m : Machine} (h : Reachable r m) : r.WellFormed := by
  induction h with
  | new n m hn =>
      have hframes : 0 < min n recordFramesMax := Nat.lt_min.mpr ⟨hn, by decide⟩
      refine ⟨hframes, rfl, ?_⟩
      intro i e he
      exact absurd he List.not_mem_nil
  | reset _ ih => exact ih.reset _
  | update m' _ hm ih => exact ih.update hm
  | play p _ ih =>
      cases p with
      | forward frames => exact ih.playForwardLoop _ _
      | reverse frames => exact ih.playReverseLoop _ _

end Recorder

end V6Emul
