import V6Emul.Recorder.RoundTrip

/-!
# Which data can be loaded

`Deserialize` checks the low byte of the version, after it has stored the
version, and nothing else.  It stays inside the data and the ring, and changes
nothing for data that is no recording, exactly when the data is a recording that
the ring has room for.
-/

namespace V6Emul

open Packed

/-! ## Complete recordings -/

def stateLen : Nat := 83

def memUpdates (data : List Byte) : BitVec 32 :=
  (Layout.uint 4).decode ((data.drop 79).take 4)

/-- The data consists of `count` states, each as long as its count of memory updates says. -/
def StatesFill : Nat → List Byte → Prop
  | 0, data => data = []
  | count + 1, data =>
      stateLen + 6 * (memUpdates data).toNat ≤ data.length ∧ (memUpdates data).msb = false ∧
        StatesFill count (data.drop (stateLen + 6 * (memUpdates data).toNat))

def headerLen : Nat := 4 + memoryGlobalLen + 17

def statesCount (data : List Byte) : Nat :=
  ((Layout.uint 8).decode ((data.drop (4 + memoryGlobalLen)).take 8)).toNat

structure IsRecording (data : List Byte) : Prop where
  header : headerLen ≤ data.length
  version : (Layout.uint 4).decode (data.take 4) &&& Recorder.versionMask = Recorder.formatVersion
  states_pos : 1 ≤ statesCount data
  states : StatesFill (statesCount data) (data.drop headerLen)

namespace HwState

theorem read_of_le (old : HwState) {data : List Byte}
    (hlen : stateLen + 6 * (memUpdates data).toNat ≤ data.length)
    (hcount : (memUpdates data).msb = false) :
    ∃ s, old.read data = some (s, data.drop (stateLen + 6 * (memUpdates data).toNat)) := by
  have hsize : Layouts.snapshot.size = 79 := Layouts.size_snapshot
  rw [stateLen] at hlen ⊢
  have hfirst : Layouts.snapshot.size ≤ data.length := by
    omega
  have hsaved := Layouts.snapshot.read_of_le hfirst
  rw [hsize] at hsaved
  have hupdates : (Layout.uint 4).read (data.drop 79) =
      some (memUpdates data, (data.drop 79).drop 4) :=
    (Layout.uint 4).read_of_le (by
      change 4 ≤ (data.drop 79).length
      rw [List.length_drop]
      omega)
  rw [List.drop_drop] at hupdates
  rw [read, hsaved]
  simp only [Option.bind_eq_bind, Option.bind_some, hupdates]
  by_cases hzero : memUpdates data = 0
  · rw [if_pos hzero, hzero]
    exact ⟨_, rfl⟩
  · rw [if_neg hzero, hcount, if_neg Bool.false_ne_true]
    generalize (memUpdates data).toNat = n at hlen
    have hwritesLen : n * Layout.byte.size ≤ (data.drop 83).length := by
      change n * 1 ≤ _
      rw [List.length_drop]
      omega
    obtain ⟨writes, -, hwrites⟩ := Layout.byte.readList_of_le n hwritesLen
    have hbeforesLen : n * Layout.byte.size ≤
        ((data.drop 83).drop (n * Layout.byte.size)).length := by
      change n * 1 ≤ ((data.drop 83).drop (n * 1)).length
      rw [List.length_drop, List.length_drop]
      omega
    obtain ⟨befores, -, hbefores⟩ := Layout.byte.readList_of_le n hbeforesLen
    have haddrsLen : n * (Layout.uint 4).size ≤
        (((data.drop 83).drop (n * Layout.byte.size)).drop (n * Layout.byte.size)).length := by
      change n * 4 ≤ (((data.drop 83).drop (n * 1)).drop (n * 1)).length
      rw [List.length_drop, List.length_drop, List.length_drop]
      omega
    obtain ⟨addrs, -, haddrs⟩ := (Layout.uint 4).readList_of_le n haddrsLen
    have hend : (((data.drop 83).drop (n * Layout.byte.size)).drop (n * Layout.byte.size)).drop
        (n * (Layout.uint 4).size) = data.drop (83 + 6 * n) := by
      change (((data.drop 83).drop (n * 1)).drop (n * 1)).drop (n * 4) = _
      rw [List.drop_drop, List.drop_drop, List.drop_drop]
      congr 1
      omega
    rw [hend] at haddrs
    refine ⟨⟨Layouts.snapshot.decode (data.take 79), entriesOf addrs writes befores⟩, ?_⟩
    rw [readLog]
    simp only [Option.bind_eq_bind, hwrites, hbefores, haddrs, Option.bind_some, Option.pure_def]

end HwState

namespace Recorder

theorem readStates_cases {count stateIdx : Nat} {r r' : Recorder} {data : List Byte}
    (h : readStates count stateIdx r data = some r') :
    ∃ states, r' = { r with states := states } := by
  induction count generalizing stateIdx r data with
  | zero => exact ⟨r.states, (Option.some.inj h).symm⟩
  | succ count ih =>
      rw [readStates, Option.bind_eq_bind, Option.bind_eq_some_iff] at h
      obtain ⟨⟨s, rest⟩, -, hrest⟩ := h
      obtain ⟨states, hstates⟩ := ih hrest
      exact ⟨states, hstates⟩

theorem readStates_of_fill {count stateIdx : Nat} {data : List Byte} (r : Recorder)
    (h : StatesFill count data) : ∃ r', readStates count stateIdx r data = some r' := by
  induction count generalizing stateIdx r data with
  | zero => exact ⟨r, rfl⟩
  | succ count ih =>
      obtain ⟨hlen, hcount, hrest⟩ := h
      obtain ⟨s, hread⟩ := (r.states (stateIdx % r.recordFrames)).read_of_le hlen hcount
      rw [readStates, hread, Option.bind_eq_bind, Option.bind_some]
      exact ih _ hrest

theorem decode_version {data : List Byte} (hlen : 8 ≤ data.length) :
    ((Layout.uint 8).decode (data.take 8)).setWidth 32 = (Layout.uint 4).decode (data.take 4) := by
  have hlong : 4 ≤ (data.take 8).length := by
    rw [List.length_take_of_le hlen]
    omega
  have hlow := Layout.setWidth_decode_uint (by omega : 4 ≤ 8) hlong
  rw [List.take_take, Nat.min_eq_left (by omega)] at hlow
  exact hlow

theorem newestIdx_eq {n : Nat} (hpos : 1 ≤ n) (hlt : n < sizeT) :
    (n + sizeT - 1) % sizeT = n - 1 := by
  have hsum : n + sizeT - 1 = n - 1 + sizeT := by
    omega
  have hmod : (n - 1) % sizeT = n - 1 := Nat.mod_eq_of_lt (by omega)
  rw [hsum, Nat.add_mod_right, hmod]

theorem deserialize_version {data : List Byte} {r r' : Recorder} {m m' : Machine}
    (h : r.deserialize data m = some (r', m')) :
    r'.version = (Layout.uint 4).decode (data.take 4) := by
  obtain ⟨version, rest, hread, hcases⟩ := deserialize_cases h
  obtain ⟨hlen, hvalue, -⟩ := (Layout.uint 8).read_cases hread
  have hversion : version.setWidth 32 = (Layout.uint 4).decode (data.take 4) := by
    rw [hvalue]
    exact decode_version hlen
  rcases hcases with ⟨-, rfl, -⟩ | ⟨-, hbody⟩
  · exact hversion
  · obtain ⟨_, _, _, _, _, _, _, _, loaded, -, -, -, -, hloaded, hrestore⟩ :=
      deserializeBody_cases hbody
    obtain ⟨states, rfl⟩ := readStates_cases hloaded
    obtain ⟨-, rfl, -⟩ := restoreState_cases hrestore
    exact hversion

/-- `Deserialize` is defined on the data, and takes over nothing that is no recording. -/
def LoadsSafely (r : Recorder) (data : List Byte) : Prop :=
  ∀ (r₀ : Recorder) (m₀ : Machine), r₀.recordFrames = r.recordFrames →
    ∃ r' m', r₀.deserialize data m₀ = some (r', m') ∧ (¬IsRecording data → r' = r₀ ∧ m' = m₀)

theorem deserialize_of_isRecording {data : List Byte} (h : IsRecording data) (r : Recorder)
    (m : Machine) (hfits : statesCount data ≤ r.recordFrames) :
    ∃ r' m', r.deserialize data m = some (r', m') := by
  have hheader := h.header
  have hpos := h.states_pos
  have hfill := h.states
  have hmax := r.recordFrames_le
  have hstate : 83 ≤ (data.drop headerLen).length := by
    obtain ⟨n, hn⟩ := Nat.exists_eq_add_of_le' hpos
    rw [hn] at hfill
    have hlen := hfill.1
    rw [stateLen] at hlen
    omega
  rw [List.length_drop] at hstate
  rw [headerLen] at hheader hstate
  have hread : (Layout.uint 8).read data =
      some ((Layout.uint 8).decode (data.take 8), data.drop 8) :=
    (Layout.uint 8).read_of_le (by change 8 ≤ data.length; omega)
  have hbytes : Layout.byte.readList (memoryGlobalLen - 4) (data.drop 4) =
      some ((data.drop 4).take (memoryGlobalLen - 4), (data.drop 4).drop (memoryGlobalLen - 4)) :=
    Layout.readList_byte _ (by rw [List.length_drop]; omega)
  have hrecorded : (Layout.uint 8).read ((data.drop 4).drop memoryGlobalLen) =
      some ((Layout.uint 8).decode ((data.drop (4 + memoryGlobalLen)).take 8),
        data.drop (4 + memoryGlobalLen + 8)) := by
    rw [List.drop_drop, (Layout.uint 8).read_of_le]
    · change some (_, (data.drop (4 + memoryGlobalLen)).drop 8) = _
      rw [List.drop_drop]
      rfl
    · change 8 ≤ _
      rw [List.length_drop]
      omega
  have hcurrent : (Layout.uint 8).read (data.drop (4 + memoryGlobalLen + 8)) =
      some ((Layout.uint 8).decode ((data.drop (4 + memoryGlobalLen + 8)).take 8),
        data.drop (4 + memoryGlobalLen + 8 + 8)) := by
    rw [(Layout.uint 8).read_of_le]
    · change some (_, (data.drop (4 + memoryGlobalLen + 8)).drop 8) = _
      rw [List.drop_drop]
      rfl
    · change 8 ≤ _
      rw [List.length_drop]
      omega
  have hflag : (Layout.uint 8).read (data.drop (4 + memoryGlobalLen + 8 + 8)) =
      some ((Layout.uint 8).decode ((data.drop (4 + memoryGlobalLen + 8 + 8)).take 8),
        (data.drop (4 + memoryGlobalLen + 8 + 8)).drop 8) :=
    (Layout.uint 8).read_of_le (by
      change 8 ≤ _
      rw [List.length_drop]
      omega)
  have hrest : (data.drop (4 + memoryGlobalLen + 8 + 8)).drop 1 = data.drop headerLen := by
    rw [List.drop_drop, headerLen]
  have hload := r.deserialize_eq m hread
  rw [decode_version (by omega), if_neg (not_not.mpr h.version),
    deserializeBody_eq _ m hbytes hrecorded hcurrent hflag, hrest] at hload
  have hsize : statesCount data < sizeT := lt_sizeT (by omega)
  rw [← statesCount, newestIdx_eq hpos hsize] at hload
  generalize hstart : ({ r with
      version := _
      ram := _
      stateRecorded := _
      stateIdx := _
      stateCurrent := _
      lastRecord := _ } : Recorder) = start at hload
  have hidx : start.stateIdx = statesCount data - 1 := by
    rw [← hstart]
  have hframes : start.recordFrames = r.recordFrames := by
    rw [← hstart]
  obtain ⟨loaded, hloaded⟩ := @readStates_of_fill _ 0 _ start hfill
  obtain ⟨states, hring⟩ := readStates_cases hloaded
  have hslot : loaded.stateIdx < loaded.recordFrames := by
    rw [hring]
    change start.stateIdx < start.recordFrames
    omega
  rw [hloaded, Option.bind_some, restoreState_of_lt hslot] at hload
  exact ⟨_, _, hload⟩

theorem loadsSafely_iff (r : Recorder) (data : List Byte) :
    r.LoadsSafely data ↔ IsRecording data ∧ statesCount data ≤ r.recordFrames := by
  constructor
  · intro h
    have hrecording : IsRecording data := by
      by_contra hnot
      let v := (Layout.uint 4).decode (data.take 4)
      obtain ⟨r', m', hload, hsame⟩ := h { r with version := v + 1 } (machineAt 0 fun _ => 0) rfl
      obtain ⟨rfl, -⟩ := hsame hnot
      have hversion : v + 1 = v := deserialize_version hload
      have hne : v + 1 ≠ v := by
        bv_omega
      exact hne hversion
    refine ⟨hrecording, ?_⟩
    obtain ⟨r', m', hload, -⟩ := h r (machineAt 0 fun _ => 0) rfl
    obtain ⟨version, rest, hread, ⟨hwrong, -, -⟩ | ⟨-, hbody⟩⟩ := deserialize_cases hload
    · obtain ⟨hlen, hvalue, -⟩ := (Layout.uint 8).read_cases hread
      rw [hvalue] at hwrong
      exact absurd hrecording.version (decode_version hlen ▸ hwrong)
    · obtain ⟨_, stateRecorded, _, _, _, _, _, _, loaded, -, hrecorded, -, -, hloaded, hrestore⟩ :=
        deserializeBody_cases hbody
      obtain ⟨states, rfl⟩ := readStates_cases hloaded
      obtain ⟨hidx, -, -⟩ := restoreState_cases hrestore
      obtain ⟨-, hcount, -⟩ := (Layout.uint 8).read_cases hrecorded
      have hstates : stateRecorded.toNat = statesCount data := by
        rw [hcount, List.drop_drop]
        rfl
      have hlt : stateRecorded.toNat < sizeT := stateRecorded.isLt
      have hpos := hrecording.states_pos
      change (stateRecorded.toNat + sizeT - 1) % sizeT < r.recordFrames at hidx
      rw [newestIdx_eq (by omega) hlt, hstates] at hidx
      omega
  · rintro ⟨hrecording, hfits⟩ r₀ m₀ hring
    obtain ⟨r', m', hload⟩ := deserialize_of_isRecording hrecording r₀ m₀ (by rwa [hring])
    exact ⟨r', m', hload, fun hnot => absurd hrecording hnot⟩

/-- Empty data is read out of bounds, and a wrong version replaces the recorder's own. -/
theorem loadsSafely_fails :
    ¬ (new 4).LoadsSafely [] ∧ ¬ (new 4).LoadsSafely [2, 0, 0, 0, 0, 0, 0, 0] := by
  constructor
  · intro h
    obtain ⟨r', m', hload, -⟩ := h (new 4) (machineAt 0 fun _ => 0) rfl
    exact absurd hload.symm (Option.some_ne_none _)
  · intro h
    have hshort : ¬ IsRecording [2, 0, 0, 0, 0, 0, 0, 0] := by
      intro hrecording
      have hheader := hrecording.header
      rw [headerLen] at hheader
      simp only [List.length_cons, List.length_nil] at hheader
      omega
    obtain ⟨r', m', hload, hsame⟩ := h (new 4) (machineAt 0 fun _ => 0) rfl
    have hversion := deserialize_version hload
    rw [(hsame hshort).1] at hversion
    revert hversion
    decide

end Recorder

end V6Emul
