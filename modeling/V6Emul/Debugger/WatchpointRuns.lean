import V6Emul.Debugger.Collections

/-!
# Watchpoints over runs

The accesses that each watchpoint has seen since it was configured or the last stop,
kept beside the collection, say which accesses match.  The two bits that a watchpoint
accumulates are a function of these accesses.
-/

namespace V6Emul

structure ByteAccess where
  access : WatchpointAccess
  globalAddr : BitVec 32
  value : Byte
  oldValue : Option Byte

namespace Watchpoint

structure Schema (wp : Watchpoint) : Prop where
  type : wp.type ≠ .count
  fits : wp.globalAddr.toNat + wp.len.toNat ≤ memoryGlobalLen
  word_len : wp.type = .word → wp.len = 2

structure Accepted (wp : Watchpoint) : Prop extends Schema wp where
  fresh : wp.breakL = false ∧ wp.breakH = false

def Eligible (wp : Watchpoint) (a : ByteAccess) : Prop :=
  wp.active ∧ (wp.access = .rw ∨ wp.access = a.access) ∧
    wp.globalAddr.toNat ≤ a.globalAddr.toNat ∧
      a.globalAddr.toNat < wp.globalAddr.toNat + wp.len.toNat

instance (wp : Watchpoint) (a : ByteAccess) : Decidable (wp.Eligible a) := by
  unfold Eligible
  infer_instance

def Holds (wp : Watchpoint) (value byte : Byte) : Prop :=
  wp.cond = .any ∨ wp.cond.compare value byte

instance (wp : Watchpoint) (value byte : Byte) : Decidable (wp.Holds value byte) := by
  unfold Holds
  infer_instance

def lowByte (wp : Watchpoint) : Byte := wp.value.extractLsb' 0 8

def highByte (wp : Watchpoint) : Byte := wp.value.extractLsb' 8 8

def Latest (wp : Watchpoint) (accesses : List ByteAccess) (addr : Nat) (byte : Byte) : Prop :=
  ∃ a, (accesses.filter fun a => wp.Eligible a ∧ a.globalAddr.toNat = addr).getLast? = some a ∧
    wp.Holds a.value byte

def Matches (wp : Watchpoint) (accesses : List ByteAccess) (a : ByteAccess) : Prop :=
  wp.Eligible a ∧
    match wp.type with
    | .len => wp.Holds a.value wp.lowByte
    | .word =>
        wp.Latest (accesses ++ [a]) wp.globalAddr.toNat wp.lowByte ∧
          wp.Latest (accesses ++ [a]) (wp.globalAddr.toNat + 1) wp.highByte
    | .count => False

theorem not_latest_nil (wp : Watchpoint) (addr : Nat) (byte : Byte) : ¬ wp.Latest [] addr byte := by
  rintro ⟨a, ha, -⟩
  cases ha

theorem latest_append (wp : Watchpoint) (accesses : List ByteAccess) (a : ByteAccess) (addr : Nat)
    (byte : Byte) :
    wp.Latest (accesses ++ [a]) addr byte ↔
      if wp.Eligible a ∧ a.globalAddr.toNat = addr then wp.Holds a.value byte
      else wp.Latest accesses addr byte := by
  rw [Latest, List.filter_append]
  split_ifs with h
  · simp [h]
  · simp [h, Latest]

structure Sees (wp : Watchpoint) (accesses : List ByteAccess) : Prop where
  low : wp.type = .word → (wp.breakL ↔ wp.Latest accesses wp.globalAddr.toNat wp.lowByte)
  high : wp.type = .word → (wp.breakH ↔ wp.Latest accesses (wp.globalAddr.toNat + 1) wp.highByte)

theorem Accepted.sees {wp : Watchpoint} (h : wp.Accepted) : wp.Sees [] where
  low _ := by simp [h.fresh.1, not_latest_nil]
  high _ := by simp [h.fresh.2, not_latest_nil]

theorem sees_reset (wp : Watchpoint) : wp.reset.Sees [] where
  low _ := by simp [reset, not_latest_nil]
  high _ := by simp [reset, not_latest_nil]

theorem Schema.of_reset {wp wp' : Watchpoint} (h : wp.Schema) (hreset : wp'.reset = wp.reset) :
    wp'.Schema := by
  have hcopy : wp'.reset.Schema := hreset ▸ ⟨h.type, h.fits, h.word_len⟩
  exact ⟨hcopy.type, hcopy.fits, hcopy.word_len⟩

theorem not_holds_of_invalid {wp : Watchpoint} (h : wp.cond = .invalid) (value byte : Byte) :
    ¬ wp.Holds value byte := by
  rw [Holds, h]
  simp [MatchCondition.compare]

theorem not_latest_of_invalid {wp : Watchpoint} (h : wp.cond = .invalid)
    (accesses : List ByteAccess) (addr : Nat) (byte : Byte) : ¬ wp.Latest accesses addr byte :=
  fun ⟨_, _, hholds⟩ => not_holds_of_invalid h _ _ hholds

def checkAccess (wp : Watchpoint) (a : ByteAccess) : Bool × Watchpoint :=
  wp.check a.access a.globalAddr a.value

theorem inRange_iff {wp : Watchpoint} (hwp : wp.Schema) (addr : BitVec 32) :
    ¬ (addr < wp.globalAddr ∨ wp.globalAddr + wp.len ≤ addr) ↔
      wp.globalAddr.toNat ≤ addr.toNat ∧ addr.toNat < wp.globalAddr.toNat + wp.len.toNat := by
  have hfits := hwp.fits
  have hlen : memoryGlobalLen = 2162688 := by decide
  rw [hlen] at hfits
  have hsum : (wp.globalAddr + wp.len).toNat = wp.globalAddr.toNat + wp.len.toNat := by
    rw [BitVec.toNat_add, Nat.mod_eq_of_lt (by omega)]
  rw [BitVec.lt_def, BitVec.le_def, hsum]
  omega

theorem checkAccess_of_not_eligible {wp : Watchpoint} (hwp : wp.Schema) {a : ByteAccess}
    (h : ¬ wp.Eligible a) : wp.checkAccess a = (false, wp) := by
  rw [checkAccess, check]
  by_cases hactive : wp.active
  · rw [if_neg (by simp [hactive])]
    by_cases haccess : wp.access ≠ .rw ∧ wp.access ≠ a.access
    · rw [if_pos haccess]
    · have hkind : wp.access = .rw ∨ wp.access = a.access := by
        by_cases hrw : wp.access = .rw
        · exact .inl hrw
        · exact .inr (not_not.mp fun hne => haccess ⟨hrw, hne⟩)
      rw [if_neg haccess, if_pos]
      by_contra hrange
      exact h ⟨hactive, hkind, (inRange_iff hwp _).mp hrange⟩
  · rw [if_pos (by simp [hactive])]

theorem checkAccess_of_eligible {wp : Watchpoint} (hwp : wp.Schema) {a : ByteAccess}
    (h : wp.Eligible a) : wp.checkAccess a =
      if wp.cond = .invalid then (false, wp)
      else if wp.type = .len ∨ a.globalAddr = wp.globalAddr then
        let holds := decide (wp.Holds a.value wp.lowByte)
        (holds && (wp.type = .len || wp.breakH), { wp with breakL := holds })
      else
        let holds := decide (wp.Holds a.value wp.highByte)
        (wp.breakL && (wp.type = .len || holds), { wp with breakH := holds }) := by
  have haccess : ¬ (wp.access ≠ .rw ∧ wp.access ≠ a.access) := by
    rintro ⟨hrw, hne⟩
    exact h.2.1.elim hrw hne
  have hholds : ∀ byte : Byte, (wp.cond = .any || wp.cond.compare a.value byte) =
      decide (wp.Holds a.value byte) := by
    intro byte
    rw [Bool.eq_iff_iff, decide_eq_true_iff, Holds]
    simp
  rw [checkAccess, check]
  simp only [h.1, Bool.not_true, Bool.false_eq_true, if_false, if_neg haccess,
    if_neg ((inRange_iff hwp _).mpr h.2.2), hholds]
  split_ifs <;> rfl

theorem high_of_eligible {wp : Watchpoint} (hwp : wp.Schema) (hword : wp.type = .word)
    {a : ByteAccess} (h : wp.Eligible a) :
    a.globalAddr.toNat = wp.globalAddr.toNat + 1 ↔ ¬ a.globalAddr = wp.globalAddr := by
  have hlen : wp.len.toNat = 2 := by rw [hwp.word_len hword]; rfl
  have hrange := h.2.2
  rw [hlen] at hrange
  rw [← BitVec.toNat_inj]
  omega

structure Checked (wp : Watchpoint) (accesses : List ByteAccess) (a : ByteAccess) : Prop where
  answer : (wp.checkAccess a).1 ↔ wp.Matches accesses a
  config : (wp.checkAccess a).2.reset = wp.reset
  sees : (wp.checkAccess a).2.Sees (accesses ++ [a])

theorem checked_len {wp : Watchpoint} (hwp : wp.Schema) (hvalid : wp.cond ≠ .invalid)
    (htype : wp.type = .len) {a : ByteAccess} (h : wp.Eligible a) (accesses : List ByteAccess) :
    wp.Checked accesses a := by
  have hcheck : wp.checkAccess a = (decide (wp.Holds a.value wp.lowByte),
      { wp with breakL := decide (wp.Holds a.value wp.lowByte) }) := by
    rw [checkAccess_of_eligible hwp h, if_neg hvalid, if_pos (.inl htype)]
    simp [htype]
  refine ⟨?_, by rw [hcheck]; rfl, ?_, ?_⟩
  · rw [hcheck, Matches, htype]
    simp [h]
  · intro hword
    rw [hcheck] at hword
    exact absurd (htype.symm.trans hword) (by decide)
  · intro hword
    rw [hcheck] at hword
    exact absurd (htype.symm.trans hword) (by decide)

theorem checked_word {wp : Watchpoint} (hwp : wp.Schema) (hvalid : wp.cond ≠ .invalid)
    (htype : wp.type = .word) {a : ByteAccess} (h : wp.Eligible a) {accesses : List ByteAccess}
    (hsees : wp.Sees accesses) : wp.Checked accesses a := by
  have hnotLen : ¬ wp.type = .len := by rw [htype]; decide
  have hhighAddr := high_of_eligible hwp htype h
  by_cases hlow : a.globalAddr = wp.globalAddr
  · have hlatestLow : wp.Latest (accesses ++ [a]) wp.globalAddr.toNat wp.lowByte ↔
        wp.Holds a.value wp.lowByte := by
      rw [latest_append, if_pos ⟨h, congrArg BitVec.toNat hlow⟩]
    have hlatestHigh : wp.Latest (accesses ++ [a]) (wp.globalAddr.toNat + 1) wp.highByte ↔
        wp.breakH := by
      rw [latest_append, if_neg fun hhigh => hhighAddr.mp hhigh.2 hlow, hsees.high htype]
    have hcheck : wp.checkAccess a = (decide (wp.Holds a.value wp.lowByte) && wp.breakH,
        { wp with breakL := decide (wp.Holds a.value wp.lowByte) }) := by
      rw [checkAccess_of_eligible hwp h, if_neg hvalid, if_pos (.inr hlow)]
      simp [hnotLen]
    refine ⟨?_, by rw [hcheck]; rfl, fun _ => ?_, fun _ => ?_⟩
    · rw [hcheck, Matches, htype]
      simp [h, hlatestLow, hlatestHigh]
    · rw [hcheck]
      exact decide_eq_true_iff.trans hlatestLow.symm
    · rw [hcheck]
      exact hlatestHigh.symm
  · have hlatestLow : wp.Latest (accesses ++ [a]) wp.globalAddr.toNat wp.lowByte ↔ wp.breakL := by
      rw [latest_append, if_neg fun heq => hlow (BitVec.eq_of_toNat_eq heq.2), hsees.low htype]
    have hlatestHigh : wp.Latest (accesses ++ [a]) (wp.globalAddr.toNat + 1) wp.highByte ↔
        wp.Holds a.value wp.highByte := by
      rw [latest_append, if_pos ⟨h, hhighAddr.mpr hlow⟩]
    have hcheck : wp.checkAccess a = (wp.breakL && decide (wp.Holds a.value wp.highByte),
        { wp with breakH := decide (wp.Holds a.value wp.highByte) }) := by
      rw [checkAccess_of_eligible hwp h, if_neg hvalid, if_neg (not_or.mpr ⟨hnotLen, hlow⟩)]
      simp [hnotLen]
    refine ⟨?_, by rw [hcheck]; rfl, fun _ => ?_, fun _ => ?_⟩
    · rw [hcheck, Matches, htype]
      simp [h, hlatestLow, hlatestHigh]
    · rw [hcheck]
      exact hlatestLow.symm
    · rw [hcheck]
      exact decide_eq_true_iff.trans hlatestHigh.symm

theorem checked {wp : Watchpoint} (hwp : wp.Schema) {accesses : List ByteAccess}
    (hsees : wp.Sees accesses) (a : ByteAccess) : wp.Checked accesses a := by
  by_cases h : wp.Eligible a
  · by_cases hinvalid : wp.cond = .invalid
    · have hcheck : wp.checkAccess a = (false, wp) := by
        rw [checkAccess_of_eligible hwp h, if_pos hinvalid]
      have hnever := not_latest_of_invalid hinvalid
      refine ⟨?_, by rw [hcheck], ?_, ?_⟩
      · rw [hcheck, Matches]
        cases htype : wp.type <;> simp [hnever, not_holds_of_invalid hinvalid]
      · intro hword
        rw [hcheck] at hword ⊢
        rw [hsees.low hword]
        simp [hnever]
      · intro hword
        rw [hcheck] at hword ⊢
        rw [hsees.high hword]
        simp [hnever]
    · cases htype : wp.type with
      | len => exact checked_len hwp hinvalid htype h accesses
      | word => exact checked_word hwp hinvalid htype h hsees
      | count => exact absurd htype hwp.type
  · have hcheck := checkAccess_of_not_eligible hwp h
    refine ⟨?_, by rw [hcheck], ?_, ?_⟩
    · rw [hcheck]
      simp [Matches, h]
    · intro hword
      rw [hcheck] at hword ⊢
      rw [latest_append, if_neg fun hlow => h hlow.1]
      exact hsees.low hword
    · intro hword
      rw [hcheck] at hword ⊢
      rw [latest_append, if_neg fun hhigh => h hhigh.1]
      exact hsees.high hword

end Watchpoint

/-! ## The collection -/

structure CheckedAccess where
  access : ByteAccess
  ids : Set Id

/--
Beside the collection: the watchpoints as they were configured, each with the accesses
since then or since the last stop, and the accesses since the last `CheckBreak`.
-/
structure Vigil where
  watched : Id → Option (Watchpoint × List ByteAccess)
  checks : List CheckedAccess

namespace Vigil

def start : Vigil := ⟨fun _ => none, []⟩

def matched (v : Vigil) (a : ByteAccess) : Set Id :=
  {id | ∃ wp accesses, v.watched id = some (wp, accesses) ∧ wp.Matches accesses a}

def configure (v : Vigil) (id : Id) (wp : Option Watchpoint) : Vigil :=
  { v with watched := Function.update v.watched id (wp.map fun wp => (wp, [])) }

@[simp] theorem configure_watched_self (v : Vigil) (id : Id) (wp : Option Watchpoint) :
    (v.configure id wp).watched id = wp.map fun wp => (wp, []) :=
  Function.update_self ..

theorem configure_watched_of_ne (v : Vigil) {id k : Id} (h : k ≠ id) (wp : Option Watchpoint) :
    (v.configure id wp).watched k = v.watched k :=
  Function.update_of_ne h ..

def see (v : Vigil) (a : ByteAccess) : Vigil where
  watched id := (v.watched id).map fun e => (e.1, e.2 ++ [a])
  checks := v.checks ++ [⟨a, v.matched a⟩]

def Matched (v : Vigil) : Prop := ∃ c ∈ v.checks, c.ids.Nonempty

open Classical in
noncomputable def checkBreak (v : Vigil) : Vigil where
  watched id := if v.Matched then (v.watched id).map fun e => (e.1, []) else v.watched id
  checks := []

open Classical in
/-- The collection before the operation says which id is allocated. -/
noncomputable def next (w : Watchpoints) (v : Vigil) : WatchpointOp → Vigil
  | .clear => { v with watched := fun _ => none }
  | .add wp => v.configure wp.id (some wp)
  | .addNew wp =>
      let id := Watchpoints.firstFree w.wps (Table.size w.wps) w.nextId
      v.configure id (some { wp with id := id })
  | .edit wp => if (v.watched wp.id).isSome then v.configure wp.id (some wp) else v
  | .addJson j => (Watchpoint.ofFields j).elim v fun wp => v.configure wp.id (some wp)
  | .del id => v.configure id none
  | .check access globalAddr value oldValue => v.see ⟨access, globalAddr, value, oldValue⟩
  | .checkBreak => v.checkBreak

end Vigil

namespace Watchpoints

/-- The watchpoint of an operation is one that the protocol accepts. -/
def Accepts : WatchpointOp → Prop
  | .add wp | .addNew wp | .edit wp => wp.Accepted
  | .addJson j => ∀ wp, Watchpoint.ofFields j = some wp → wp.Accepted
  | .clear | .del _ | .check .. | .checkBreak => True

/-- The hit of a list of accesses: the first one that matched, and all it matched. -/
def Recorded (checks : List CheckedAccess) : Option WatchpointHit → Prop
  | none => ∀ c ∈ checks, c.ids = ∅
  | some hit => ∃ before c after, checks = before ++ c :: after ∧
      (∀ b ∈ before, b.ids = ∅) ∧ c.ids.Nonempty ∧
        hit.access = c.access.access ∧ hit.globalAddr = c.access.globalAddr ∧
          hit.value = c.access.value ∧ hit.oldValue = c.access.oldValue ∧
            hit.ids.Pairwise (· < ·) ∧ ∀ id, id ∈ hit.ids ↔ id ∈ c.ids

structure Tracked (w : Watchpoints) (v : Vigil) : Prop where
  watched : ∀ id, v.watched id = none ↔ w.wps.lookup id = none
  sees : ∀ id wp, w.wps.lookup id = some wp →
    ∃ accesses, v.watched id = some (wp.reset, accesses) ∧ wp.Schema ∧ wp.Sees accesses
  hit : Recorded v.checks w.hit
  wpBreak : w.wpBreak = w.hit.isSome

theorem recorded_isSome_iff {checks : List CheckedAccess} {hit : Option WatchpointHit}
    (h : Recorded checks hit) : hit.isSome ↔ ∃ c ∈ checks, c.ids.Nonempty := by
  cases hit with
  | none =>
      simp only [Option.isSome_none, Bool.false_eq_true, false_iff]
      rintro ⟨c, hc, hids⟩
      exact hids.ne_empty (h c hc)
  | some hit =>
      obtain ⟨before, c, after, rfl, -, hids, -⟩ := h
      simp only [Option.isSome_some, true_iff]
      exact ⟨c, by simp, hids⟩

theorem Recorded.snoc_unmatched {checks : List CheckedAccess} {hit : Option WatchpointHit}
    (h : Recorded checks hit) {c : CheckedAccess} (hc : c.ids = ∅) :
    Recorded (checks ++ [c]) hit := by
  cases hit with
  | none =>
      intro c' hc'
      rcases List.mem_append.mp hc' with hold | hnew
      · exact h c' hold
      · rw [List.mem_singleton.mp hnew, hc]
  | some hit =>
      obtain ⟨before, first, after, rfl, hrest⟩ := h
      exact ⟨before, first, after ++ [c], by simp, hrest⟩

theorem Recorded.snoc_matched {checks : List CheckedAccess} {hit : Option WatchpointHit}
    (h : Recorded checks hit) {a : ByteAccess} {ids : Set Id} (hids : ids.Nonempty) {l : List Id}
    (hsorted : l.Pairwise (· < ·)) (hmem : ∀ id, id ∈ l ↔ id ∈ ids) :
    Recorded (checks ++ [⟨a, ids⟩])
      (hit.or (some ⟨l, a.access, a.globalAddr, a.value, a.oldValue⟩)) := by
  cases hit with
  | none => exact ⟨checks, ⟨a, ids⟩, [], rfl, h, hids, rfl, rfl, rfl, rfl, hsorted, hmem⟩
  | some hit =>
      obtain ⟨before, first, after, rfl, hrest⟩ := h
      exact ⟨before, first, after ++ [⟨a, ids⟩], by simp, hrest⟩

theorem tracked_new : Tracked new Vigil.start where
  watched _ := by simp [Vigil.start, new]
  sees id wp h := by simp [new] at h
  hit := fun c hc => by cases hc
  wpBreak := rfl

theorem Tracked.insert {w : Watchpoints} {v : Vigil} (h : Tracked w v) {id : Id} {wp : Watchpoint}
    (hwp : wp.Accepted) {w' : Watchpoints} (hwps : w'.wps = w.wps.insert id wp)
    (hhit : w'.hit = w.hit) (hbreak : w'.wpBreak = w.wpBreak) :
    Tracked w' (v.configure id (some wp)) := by
  have hreset : wp.reset = wp := by
    obtain ⟨hlow, hhigh⟩ := hwp.fresh
    cases wp
    cases hlow
    cases hhigh
    rfl
  refine ⟨fun k => ?_, fun k new hnew => ?_, ?_, ?_⟩
  · rw [hwps]
    by_cases hk : k = id
    · simp [hk]
    · rw [v.configure_watched_of_ne hk, AList.lookup_insert_ne hk]
      exact h.watched k
  · rw [hwps] at hnew
    by_cases hk : k = id
    · rw [hk, AList.lookup_insert, Option.some_inj] at hnew
      subst hk hnew
      exact ⟨[], by simp [hreset], hwp.toSchema, hwp.sees⟩
    · rw [AList.lookup_insert_ne hk] at hnew
      rw [v.configure_watched_of_ne hk]
      exact h.sees k new hnew
  · rw [hhit]
    exact h.hit
  · rw [hhit, hbreak]
    exact h.wpBreak

theorem Tracked.congr {w : Watchpoints} {v : Vigil} (h : Tracked w v) {w' : Watchpoints}
    (hwps : w'.wps = w.wps) (hhit : w'.hit = w.hit) (hbreak : w'.wpBreak = w.wpBreak) :
    Tracked w' v := by
  refine ⟨?_, ?_, ?_, ?_⟩
  · rw [hwps]
    exact h.watched
  · rw [hwps]
    exact h.sees
  · rw [hhit]
    exact h.hit
  · rw [hhit, hbreak]
    exact h.wpBreak

theorem Tracked.clear {w : Watchpoints} {v : Vigil} (h : Tracked w v) :
    Tracked w.clear { v with watched := fun _ => none } := by
  have hempty : w.clear.wps = ∅ := by
    rw [Watchpoints.clear]
    split_ifs with hnil
    · exact AList.ext (List.isEmpty_iff.mp hnil)
    · rfl
  have hrest : w.clear.hit = w.hit ∧ w.clear.wpBreak = w.wpBreak := by
    rw [Watchpoints.clear]
    split_ifs
    · exact ⟨rfl, rfl⟩
    · exact ⟨rfl, rfl⟩
  refine ⟨fun id => ?_, fun id wp hwp => ?_, ?_, ?_⟩
  · simp [hempty]
  · rw [hempty, AList.lookup_empty] at hwp
    cases hwp
  · rw [hrest.1]
    exact h.hit
  · rw [hrest.1, hrest.2]
    exact h.wpBreak

theorem Tracked.del {w : Watchpoints} {v : Vigil} (h : Tracked w v) (id : Id) :
    Tracked (w.del id) (v.configure id none) := by
  have herase : (w.del id).wps = w.wps.erase id := by
    rw [Watchpoints.del]
    cases hid : w.wps.lookup id with
    | none => exact (Table.erase_of_notMem (AList.lookup_eq_none.mp hid)).symm
    | some wp => rfl
  have hrest : (w.del id).hit = w.hit ∧ (w.del id).wpBreak = w.wpBreak := by
    rw [Watchpoints.del]
    split
    · exact ⟨rfl, rfl⟩
    · exact ⟨rfl, rfl⟩
  refine ⟨fun k => ?_, fun k wp hwp => ?_, ?_, ?_⟩
  · rw [herase]
    by_cases hk : k = id
    · rw [hk, v.configure_watched_self, AList.lookup_erase]
      exact iff_of_true rfl rfl
    · rw [v.configure_watched_of_ne hk, AList.lookup_erase_ne hk]
      exact h.watched k
  · rw [herase] at hwp
    by_cases hk : k = id
    · rw [hk, AList.lookup_erase] at hwp
      cases hwp
    · rw [AList.lookup_erase_ne hk] at hwp
      rw [v.configure_watched_of_ne hk]
      exact h.sees k wp hwp
  · rw [hrest.1]
    exact h.hit
  · rw [hrest.1, hrest.2]
    exact h.wpBreak

theorem Tracked.matched_iff {w : Watchpoints} {v : Vigil} (h : Tracked w v) (a : ByteAccess)
    (id : Id) :
    id ∈ v.matched a ↔ ∃ wp, w.wps.lookup id = some wp ∧ (wp.checkAccess a).1 := by
  constructor
  · rintro ⟨c, accesses, hwatched, hmatches⟩
    cases hwp : w.wps.lookup id with
    | none =>
        rw [(h.watched id).mpr hwp] at hwatched
        cases hwatched
    | some wp =>
        obtain ⟨accesses', hwatched', hschema, hsees⟩ := h.sees id wp hwp
        rw [hwatched', Option.some_inj, Prod.mk.injEq] at hwatched
        obtain ⟨rfl, rfl⟩ := hwatched
        exact ⟨wp, rfl, (Watchpoint.checked hschema hsees a).answer.mpr hmatches⟩
  · rintro ⟨wp, hwp, hanswer⟩
    obtain ⟨accesses, hwatched, hschema, hsees⟩ := h.sees id wp hwp
    exact ⟨wp.reset, accesses, hwatched, (Watchpoint.checked hschema hsees a).answer.mp hanswer⟩

def matchedIds (w : Watchpoints) (a : ByteAccess) : List Id :=
  ((w.wps.entries.filter fun e => (e.2.checkAccess a).1).map Sigma.fst).mergeSort (· ≤ ·)

theorem mem_matchedIds {w : Watchpoints} {a : ByteAccess} {id : Id} :
    id ∈ w.matchedIds a ↔ ∃ wp, w.wps.lookup id = some wp ∧ (wp.checkAccess a).1 := by
  rw [matchedIds, List.mem_mergeSort, List.mem_map]
  constructor
  · rintro ⟨e, he, rfl⟩
    obtain ⟨hentry, hanswer⟩ := List.mem_filter.mp he
    exact ⟨e.2, AList.mem_lookup_iff.mpr hentry, hanswer⟩
  · rintro ⟨wp, hwp, hanswer⟩
    exact ⟨⟨id, wp⟩, List.mem_filter.mpr ⟨AList.mem_lookup_iff.mp hwp, hanswer⟩, rfl⟩

theorem matchedIds_ascending (w : Watchpoints) (a : ByteAccess) :
    (w.matchedIds a).Pairwise (· < ·) := by
  have hsorted : (w.matchedIds a).Pairwise (· ≤ ·) := by
    have htrans : ∀ x y z : Id, decide (x ≤ y) → decide (y ≤ z) → decide (x ≤ z) :=
      fun x y z hxy hyz => by simpa using le_trans (of_decide_eq_true hxy) (of_decide_eq_true hyz)
    have htotal : ∀ x y : Id, decide (x ≤ y) || decide (y ≤ x) :=
      fun x y => by simpa using le_total x y
    have hle := List.pairwise_mergeSort htrans htotal
      ((w.wps.entries.filter fun e => (e.2.checkAccess a).1).map Sigma.fst)
    exact hle.imp fun h => of_decide_eq_true h
  have hnodup : (w.matchedIds a).Nodup := by
    rw [matchedIds, (List.mergeSort_perm _ _).nodup_iff]
    exact List.NodupKeys.sublist List.filter_sublist w.wps.nodupKeys
  exact (hsorted.and hnodup).imp fun h => lt_of_le_of_ne h.1 h.2

theorem check_eq (w : Watchpoints) (a : ByteAccess) :
    w.check a.access a.globalAddr a.value a.oldValue =
      { w with
        wps := Table.mapValues (fun _ wp => (wp.checkAccess a).2) w.wps
        wpBreak := w.wpBreak || !(w.matchedIds a).isEmpty
        hit := if (w.matchedIds a).isEmpty then w.hit
          else w.hit.or (some ⟨w.matchedIds a, a.access, a.globalAddr, a.value, a.oldValue⟩) } := by
  have hempty : (w.matchedIds a).isEmpty =
      ((w.wps.entries.filter fun e => (e.2.checkAccess a).1).map Sigma.fst).isEmpty := by
    rw [Bool.eq_iff_iff, List.isEmpty_iff_length_eq_zero, List.isEmpty_iff_length_eq_zero,
      matchedIds, List.length_mergeSort]
  rw [check]
  dsimp only
  change (if ((w.wps.entries.filter fun e => (e.2.checkAccess a).1).map Sigma.fst).isEmpty then _
    else _) = _
  rw [← hempty]
  cases (w.matchedIds a).isEmpty with
  | true => simp [Watchpoint.checkAccess]
  | false => simp [Watchpoint.checkAccess, matchedIds]

theorem Tracked.check {w : Watchpoints} {v : Vigil} (h : Tracked w v) (a : ByteAccess) :
    Tracked (w.check a.access a.globalAddr a.value a.oldValue) (v.see a) := by
  have hmem : ∀ id, id ∈ w.matchedIds a ↔ id ∈ v.matched a := fun id =>
    mem_matchedIds.trans (h.matched_iff a id).symm
  rw [check_eq]
  refine ⟨fun id => ?_, fun id wp hwp => ?_, ?_, ?_⟩
  · dsimp only
    rw [Table.lookup_mapValues, Option.map_eq_none_iff, Vigil.see, Option.map_eq_none_iff]
    exact h.watched id
  · rw [Table.lookup_mapValues, Option.map_eq_some_iff] at hwp
    obtain ⟨old, hold, rfl⟩ := hwp
    obtain ⟨accesses, hwatched, hschema, hsees⟩ := h.sees id old hold
    have hchecked := Watchpoint.checked hschema hsees a
    refine ⟨accesses ++ [a], ?_, hschema.of_reset hchecked.config, hchecked.sees⟩
    change (v.watched id).map _ = _
    rw [hwatched, hchecked.config]
    rfl
  · dsimp only
    rw [Vigil.see]
    split_ifs with hempty
    · apply h.hit.snoc_unmatched
      apply Set.eq_empty_of_forall_notMem
      intro id hid
      have hmatched := (hmem id).mpr hid
      rw [List.isEmpty_iff.mp hempty] at hmatched
      cases hmatched
    · have hids : (v.matched a).Nonempty := by
        obtain ⟨id, hid⟩ := List.exists_mem_of_ne_nil _ (mt List.isEmpty_iff.mpr hempty)
        exact ⟨id, (hmem id).mp hid⟩
      exact h.hit.snoc_matched hids (w.matchedIds_ascending a) hmem
  · dsimp only
    rw [h.wpBreak]
    cases (w.matchedIds a).isEmpty with
    | true => simp
    | false => cases w.hit <;> rfl

theorem Tracked.matched_iff_wpBreak {w : Watchpoints} {v : Vigil} (h : Tracked w v) :
    w.wpBreak ↔ v.Matched := by
  rw [h.wpBreak]
  exact recorded_isSome_iff h.hit

theorem Tracked.checkBreak {w : Watchpoints} {v : Vigil} (h : Tracked w v) :
    Tracked w.checkBreak.2 v.checkBreak := by
  rw [Watchpoints.checkBreak, Vigil.checkBreak]
  by_cases hbreak : w.wpBreak
  · have hmatched := h.matched_iff_wpBreak.mp hbreak
    simp only [hbreak, hmatched, Bool.not_true, Bool.false_eq_true, if_false, if_true]
    refine ⟨fun id => ?_, fun id wp hwp => ?_, fun c hc => ?_, rfl⟩
    · rw [Table.lookup_mapValues, Option.map_eq_none_iff, Option.map_eq_none_iff]
      exact h.watched id
    · rw [Table.lookup_mapValues, Option.map_eq_some_iff] at hwp
      obtain ⟨old, hold, rfl⟩ := hwp
      obtain ⟨accesses, hwatched, hschema, -⟩ := h.sees id old hold
      refine ⟨[], ?_, hschema.of_reset rfl, old.sees_reset⟩
      change (v.watched id).map _ = _
      rw [hwatched]
      rfl
    · cases hc
  · have hmatched : ¬ v.Matched := mt h.matched_iff_wpBreak.mpr hbreak
    rw [Bool.not_eq_true] at hbreak
    have hnone : w.hit = none := by
      rw [h.wpBreak] at hbreak
      exact Option.not_isSome_iff_eq_none.mp (by simp [hbreak])
    simp only [hbreak, hmatched, Bool.not_false, if_true, if_false]
    refine ⟨h.watched, h.sees, ?_, h.wpBreak⟩
    rw [hnone]
    intro c hc
    cases hc

theorem Tracked.apply {w : Watchpoints} {v : Vigil} (h : Tracked w v) {op : WatchpointOp}
    (hop : Accepts op) : Tracked (Watchpoints.apply op w).2 (v.next w op) := by
  cases op with
  | clear => exact h.clear
  | add wp => exact h.insert hop rfl rfl rfl
  | addNew wp =>
      have hnew : { wp with id := firstFree w.wps (Table.size w.wps) w.nextId }.Accepted :=
        ⟨⟨hop.type, hop.fits, hop.word_len⟩, hop.fresh⟩
      exact h.insert hnew rfl rfl rfl
  | edit wp =>
      have hwatched := h.watched wp.id
      rw [Vigil.next]
      change Tracked (w.edit wp).2 _
      rw [edit]
      cases hid : w.wps.lookup wp.id with
      | none =>
          rw [if_neg (by simp [hwatched.mpr hid])]
          exact h
      | some old =>
          have hsome : (v.watched wp.id).isSome := by
            rw [Option.isSome_iff_ne_none]
            intro hnone
            rw [hwatched.mp hnone] at hid
            cases hid
          rw [if_pos hsome]
          exact h.insert hop rfl rfl rfl
  | addJson j =>
      rw [Vigil.next]
      change Tracked (w.addJson j).2 _
      rw [addJson]
      cases hj : Watchpoint.ofFields j with
      | none => exact h.congr rfl rfl rfl
      | some wp => exact h.insert (hop wp hj) rfl rfl rfl
  | del id => exact h.del id
  | check access globalAddr value oldValue =>
      exact Tracked.check h ⟨access, globalAddr, value, oldValue⟩
  | checkBreak => exact h.checkBreak

/-- The collection and what is kept beside it, after a list of operations. -/
noncomputable def watch (ops : List WatchpointOp) : Watchpoints × Vigil :=
  ops.foldl (fun s op => ((apply op s.1).2, s.2.next s.1 op)) (new, Vigil.start)

theorem tracked_watch {ops : List WatchpointOp} (hops : ∀ op ∈ ops, Accepts op) :
    Tracked (watch ops).1 (watch ops).2 := by
  have hrun : ∀ (ops : List WatchpointOp) (s : Watchpoints × Vigil),
      (∀ op ∈ ops, Accepts op) → Tracked s.1 s.2 →
        Tracked (ops.foldl (fun s op => ((apply op s.1).2, s.2.next s.1 op)) s).1
          (ops.foldl (fun s op => ((apply op s.1).2, s.2.next s.1 op)) s).2 := by
    intro ops
    induction ops with
    | nil => exact fun s _ h => h
    | cons op ops ih =>
        intro s hops h
        exact ih _ (fun op hop => hops op (List.mem_cons_of_mem _ hop))
          (h.apply (hops op List.mem_cons_self))
  exact hrun ops _ hops tracked_new

/-- What the collection answers, by the accesses that its watchpoints have seen. -/
structure Follows (w : Watchpoints) (v : Vigil) : Prop where
  configured : ∀ id, (w.wps.lookup id).map Watchpoint.reset = (v.watched id).map Prod.fst
  matching : ∀ id wp, w.wps.lookup id = some wp →
    ∀ a, (wp.check a.access a.globalAddr a.value).1 ↔ id ∈ v.matched a
  hit : Recorded v.checks w.hit
  stops : w.checkBreak.1 ↔ v.Matched
  clears : w.checkBreak.1 → ∀ id wp, w.checkBreak.2.wps.lookup id = some wp →
    wp.breakL = false ∧ wp.breakH = false

/--
Which accesses match, the hit that is recorded and the answer of `CheckBreak` are
those of the accesses since the last stop.
-/
theorem watchpoints_follow_accesses {ops : List WatchpointOp} (hops : ∀ op ∈ ops, Accepts op) :
    Follows (watch ops).1 (watch ops).2 := by
  have h := tracked_watch hops
  refine ⟨fun id => ?_, fun id wp hwp a => ?_, h.hit, ?_, fun hstop id wp hwp => ?_⟩
  · cases hid : (watch ops).1.wps.lookup id with
    | none => rw [(h.watched id).mpr hid]; rfl
    | some wp =>
        obtain ⟨accesses, hwatched, -⟩ := h.sees id wp hid
        rw [hwatched]
        rfl
  · rw [h.matched_iff a id]
    constructor
    · exact fun hanswer => ⟨wp, hwp, hanswer⟩
    · rintro ⟨wp', hwp', hanswer⟩
      rw [hwp, Option.some_inj] at hwp'
      exact hwp' ▸ hanswer
  · rw [← h.matched_iff_wpBreak, Watchpoints.checkBreak]
    cases (watch ops).1.wpBreak <;> simp
  · rw [Watchpoints.checkBreak] at hstop hwp
    cases hbreak : (watch ops).1.wpBreak with
    | false => simp [hbreak] at hstop
    | true =>
        simp only [hbreak, Bool.not_true, Bool.false_eq_true, if_false] at hwp
        rw [Table.lookup_mapValues, Option.map_eq_some_iff] at hwp
        obtain ⟨old, -, rfl⟩ := hwp
        exact ⟨rfl, rfl⟩

def wordWatch (globalAddr : BitVec 32) (value : BitVec 16) : Watchpoint where
  globalAddr := globalAddr
  id := -1
  len := 2
  value := value
  access := .w
  cond := .equ
  type := .word
  active := true
  breakL := false
  breakH := false
  comment := ""

theorem watchpoints_follow_accesses_word :
    Follows
      (watch [.addNew (wordWatch 0x8000 0x1234), .check .w 0x8000 0x34 none,
        .check .w 0x8001 0x12 none, .checkBreak]).1
      (watch [.addNew (wordWatch 0x8000 0x1234), .check .w 0x8000 0x34 none,
        .check .w 0x8001 0x12 none, .checkBreak]).2 := by
  apply watchpoints_follow_accesses
  intro op hop
  simp only [List.mem_cons, List.not_mem_nil, or_false] at hop
  rcases hop with rfl | rfl | rfl | rfl
  · exact ⟨⟨by decide, by decide, fun _ => rfl⟩, rfl, rfl⟩
  · trivial
  · trivial
  · trivial

end Watchpoints

end V6Emul
