import V6Emul.Debugger.CodePerf
import V6Emul.Debugger.Collections
import V6Emul.Foundation.Issued

/-!
# Allocated ids

The server numbers the code performance records, the scripts and the watchpoints that
are added.  Two of the three counters stop at the last id; that of the watchpoints does
not, and an addition of a script uses up an id before it reads the fields.
-/

namespace V6Emul

structure Records (F : Type) where
  codePerfs : CodePerfs
  scripts : Scripts F
  watchpoints : Watchpoints

inductive RecordKind where
  | codePerf
  | script
  | watchpoint
  deriving DecidableEq, Repr

inductive RecordOp where
  | addCodePerf (input : CodePerfInput)
  | editCodePerf (id : Id) (input : CodePerfInput)
  | delCodePerf (id : Id)
  | delAllCodePerfs
  | addScript (input : Option ScriptInput) (source : SourceFile) (load : Option String)
  | editScript (scriptId : Id) (input : Option ScriptInput) (source : SourceFile)
      (load : Option String)
  | delScript (scriptId : Id)
  | clearScripts
  | addWatchpoint (wp : Watchpoint)
  | editWatchpoint (wp : Watchpoint)
  | delWatchpoint (id : Id)
  | clearWatchpoints

inductive RecordReply where
  | added (kind : RecordKind) (id : Id)
  | idExhausted
  | failed
  | done
  deriving DecidableEq

def RecordReply.Fails : RecordReply → Prop
  | .idExhausted | .failed => True
  | _ => False

def RecordOp.addsTo : RecordOp → Option RecordKind
  | .addCodePerf .. => some .codePerf
  | .addScript .. => some .script
  | .addWatchpoint .. => some .watchpoint
  | _ => none

namespace Records

variable {F : Type}

def new (enabled : Bool) : Records F := ⟨.new, .new enabled, .new⟩

def codePerfReply (id : Id) : Option CodePerfsError → RecordReply
  | none => .added .codePerf id
  | some .idExhausted => .idExhausted
  | some _ => .failed

def scriptReply (id : Id) : Option ScriptsError → RecordReply
  | none => .added .script id
  | some .idExhausted => .idExhausted
  | some _ => .failed

def editReply {E : Type} : Option E → RecordReply
  | none => .done
  | some _ => .failed

def apply (s : Records F) : RecordOp → RecordReply × Records F
  | .addCodePerf input =>
      let (error, codePerfs) := s.codePerfs.addCodePerf input
      (codePerfReply s.codePerfs.nextCodePerfId error, { s with codePerfs := codePerfs })
  | .editCodePerf id input =>
      let (error, codePerfs) := s.codePerfs.editCodePerf id input
      (editReply error, { s with codePerfs := codePerfs })
  | .delCodePerf id => (.done, { s with codePerfs := s.codePerfs.delCodePerf id })
  | .delAllCodePerfs => (.done, { s with codePerfs := s.codePerfs.delAllCodePerfs })
  | .addScript input source load =>
      let (error, scripts) := s.scripts.add input source load
      (scriptReply s.scripts.nextScriptId error, { s with scripts := scripts })
  | .editScript scriptId input source load =>
      let (error, scripts) := s.scripts.edit scriptId input source load
      (editReply error, { s with scripts := scripts })
  | .delScript scriptId => (.done, { s with scripts := s.scripts.del scriptId })
  | .clearScripts => (.done, { s with scripts := s.scripts.clear })
  | .addWatchpoint wp =>
      (.added .watchpoint (Watchpoints.firstFree s.watchpoints.wps
        (Table.size s.watchpoints.wps) s.watchpoints.nextId),
        { s with watchpoints := s.watchpoints.addNew wp })
  | .editWatchpoint wp =>
      let (found, watchpoints) := s.watchpoints.edit wp
      (if found then .done else .failed, { s with watchpoints := watchpoints })
  | .delWatchpoint id => (.done, { s with watchpoints := s.watchpoints.del id })
  | .clearWatchpoints => (.done, { s with watchpoints := s.watchpoints.clear })

def nextId? (s : Records F) : RecordKind → Option Id
  | .codePerf => if s.codePerfs.idsExhausted then none else some s.codePerfs.nextCodePerfId
  | .script => if s.scripts.idsExhausted then none else some s.scripts.nextScriptId
  | .watchpoint => some s.watchpoints.nextId

def updates (s : Records F) : RecordKind → BitVec 32
  | .codePerf => s.codePerfs.updates
  | .script => s.scripts.updates
  | .watchpoint => s.watchpoints.updates

structure Unchanged (s t : Records F) : Prop where
  codePerfs : t.codePerfs.codePerfs = s.codePerfs.codePerfs
  scripts : t.scripts.scripts = s.scripts.scripts
  watchpoints : t.watchpoints.wps = s.watchpoints.wps
  nextId : t.nextId? = s.nextId?
  updates : t.updates = s.updates

end Records

/-! ## Runs -/

/-- The records with the ids that successful additions have returned, newest last. -/
structure RecordRun (F : Type) extends Records F where
  given : RecordKind → List Id

namespace RecordRun

variable {F : Type}

def new (enabled : Bool) : RecordRun F := ⟨.new enabled, fun _ => []⟩

def reply (u : RecordRun F) (op : RecordOp) : RecordReply := (u.toRecords.apply op).1

def next (u : RecordRun F) (op : RecordOp) : RecordRun F where
  toRecords := (u.toRecords.apply op).2
  given :=
    match u.reply op with
    | .added kind id => Function.update u.given kind (u.given kind ++ [id])
    | _ => u.given

def Full (u : RecordRun F) : RecordKind → Prop
  | .codePerf => maxRecords ≤ Table.size u.codePerfs.codePerfs
  | .script => maxRecords ≤ Table.size u.scripts.scripts
  | .watchpoint => False

/--
What an operation must do: an addition that succeeds returns an id above all before,
none succeeds when the last id has been given, what fails leaves everything, and the
collections keep their bounds.
-/
structure Lawful (u : RecordRun F) (op : RecordOp) : Prop where
  fresh : ∀ kind id, u.reply op = .added kind id →
    0 ≤ id ∧ ∀ earlier ∈ u.given kind, earlier < id
  exhausted : ∀ kind, op.addsTo = some kind → idMax ∈ u.given kind →
    u.reply op = .idExhausted ∨ u.Full kind ∧ u.reply op = .failed
  unchanged : (u.reply op).Fails → u.toRecords.Unchanged (u.next op).toRecords
  fewCodePerfs : Table.size (u.next op).codePerfs.codePerfs ≤ maxRecords
  fewScripts : Table.size (u.next op).scripts.scripts ≤ maxRecords

/--
No watchpoint is added when the counter has wrapped, and no script without its fields
when it would get an id.
-/
def Within (u : RecordRun F) : RecordOp → Prop
  | .addWatchpoint _ => 0 ≤ u.watchpoints.nextId
  | .addScript none _ _ =>
      u.scripts.enabled = false ∨ u.Full .script ∨ u.scripts.idsExhausted = true
  | _ => True

/-! ## The collections -/

structure WatchpointsAt (w : Watchpoints) (n : Nat) : Prop where
  bound : n ≤ 2 ^ 31
  nextId : w.nextId = if n < 2 ^ 31 then (n : Int) else -2 ^ 31
  keys : ∀ id ∈ w.wps, id ∈ Issued.first n

structure Ordered (u : RecordRun F) : Prop where
  codePerfs : ∃ n, u.given .codePerf = Issued.first n ∧
    Issued.Counts idMax u.codePerfs.nextCodePerfId u.codePerfs.idsExhausted n
  scripts : ∃ n, u.given .script = Issued.first n ∧
    Issued.Counts idMax u.scripts.nextScriptId u.scripts.idsExhausted n
  disabled : u.scripts.enabled = false → u.given .script = []
  watchpoints : ∃ n, u.given .watchpoint = Issued.first n ∧ WatchpointsAt u.watchpoints n
  fewCodePerfs : Table.size u.codePerfs.codePerfs ≤ maxRecords
  fewScripts : Table.size u.scripts.scripts ≤ maxRecords

theorem ordered_new (enabled : Bool) : (new enabled : RecordRun F).Ordered where
  codePerfs := ⟨0, rfl, Issued.counts_zero (by decide)⟩
  scripts := ⟨0, rfl, Issued.counts_zero (by decide)⟩
  disabled _ := rfl
  watchpoints := ⟨0, rfl, by decide, rfl, fun id h => absurd h (AList.notMem_empty id)⟩
  fewCodePerfs := Nat.zero_le _
  fewScripts := Nat.zero_le _

theorem size_emplace_le (id : Id) (r : CodePerf) (s : CodePerfs) :
    Table.size (s.emplace id r).codePerfs ≤ Table.size s.codePerfs + 1 := by
  rw [CodePerfs.emplace]
  split
  · exact Nat.le_succ _
  · rename_i hnone
    exact Nat.le_of_eq (Table.size_insert_of_notMem (AList.lookup_eq_none.mp hnone) r)

theorem counter_emplace (id : Id) (r : CodePerf) (s : CodePerfs) :
    (s.emplace id r).nextCodePerfId = s.nextCodePerfId ∧
      (s.emplace id r).idsExhausted = s.idsExhausted := by
  rw [CodePerfs.emplace]
  split <;> exact ⟨rfl, rfl⟩

theorem addCodePerf_cases (s : CodePerfs) (input : CodePerfInput) :
    (maxRecords ≤ Table.size s.codePerfs ∧ s.addCodePerf input = (some .capacity, s)) ∨
    (s.idsExhausted = true ∧ s.addCodePerf input = (some .idExhausted, s)) ∨
    (s.idsExhausted = false ∧ ∃ t, s.addCodePerf input = (none, t) ∧
      t.nextCodePerfId = (Issued.advance idMax s.nextCodePerfId).1 ∧
      t.idsExhausted = (Issued.advance idMax s.nextCodePerfId).2 ∧
      Table.size t.codePerfs ≤ maxRecords) := by
  rw [CodePerfs.addCodePerf]
  split
  · rename_i hfull
    exact .inl ⟨hfull, rfl⟩
  · rename_i hroom
    split
    · rename_i hexhausted
      exact .inr (.inl ⟨hexhausted, rfl⟩)
    · rename_i hmore
      have hfew : Table.size s.codePerfs + 1 ≤ maxRecords := Nat.lt_of_not_le hroom
      refine .inr (.inr ⟨Bool.eq_false_iff.mpr hmore, _, rfl, ?_⟩)
      by_cases hlast : s.nextCodePerfId = idMax
      · simp only [Issued.advance, if_pos hlast]
        obtain ⟨hnext, hexhausted⟩ := counter_emplace s.nextCodePerfId (.ofInput input)
          { s with idsExhausted := true }
        exact ⟨hnext, hexhausted, (size_emplace_le _ _ _).trans hfew⟩
      · simp only [Issued.advance, if_neg hlast]
        obtain ⟨hnext, hexhausted⟩ := counter_emplace s.nextCodePerfId (.ofInput input)
          { s with nextCodePerfId := s.nextCodePerfId + 1 }
        exact ⟨hnext, hexhausted.trans (Bool.eq_false_iff.mpr hmore),
          (size_emplace_le _ _ _).trans hfew⟩

theorem addScript_cases (s : Scripts F) (input : Option ScriptInput) (source : SourceFile)
    (load : Option String) :
    ((s.enabled = false ∨ maxRecords ≤ Table.size s.scripts) ∧
      ∃ error, error ≠ .idExhausted ∧ s.add input source load = (some error, s)) ∨
    (s.idsExhausted = true ∧ s.add input source load = (some .idExhausted, s)) ∨
    (s.enabled = true ∧ Table.size s.scripts < maxRecords ∧ s.idsExhausted = false ∧
      ∃ t, s.add input source load = (if input.isSome then none else some .missingField, t) ∧
        t.nextScriptId = (Issued.advance idMax s.nextScriptId).1 ∧
        t.idsExhausted = (Issued.advance idMax s.nextScriptId).2 ∧ t.enabled = true ∧
        Table.size t.scripts ≤ maxRecords) := by
  rw [Scripts.add]
  split
  · rename_i hdisabled
    exact .inl ⟨.inl (by simpa using hdisabled), .unavailable, by decide, rfl⟩
  · rename_i henabled
    split
    · rename_i hfull
      exact .inl ⟨.inr hfull, .capacity, by decide, rfl⟩
    · rename_i hroom
      split
      · rename_i hexhausted
        exact .inr (.inl ⟨hexhausted, rfl⟩)
      · rename_i hmore
        have hless : Table.size s.scripts < maxRecords := Nat.lt_of_not_le hroom
        have hon : s.enabled = true := by simpa using henabled
        refine .inr (.inr ⟨hon, hless, Bool.eq_false_iff.mpr hmore, ?_⟩)
        have hfew : ∀ script : Script,
            Table.size (s.scripts.insert s.nextScriptId script) ≤ maxRecords := by
          intro script
          by_cases hmem : s.nextScriptId ∈ s.scripts
          · rw [Table.size_insert_of_mem hmem]
            exact Nat.le_of_lt hless
          · rw [Table.size_insert_of_notMem hmem]
            exact hless
        have hexhausted := Bool.eq_false_iff.mpr hmore
        cases input with
        | none =>
            refine ⟨_, rfl, ?_⟩
            by_cases hlast : s.nextScriptId = idMax
            · rw [if_pos hlast, Issued.advance, if_pos hlast]
              exact ⟨rfl, rfl, hon, Nat.le_of_lt hless⟩
            · rw [if_neg hlast, Issued.advance, if_neg hlast]
              exact ⟨rfl, hexhausted, hon, Nat.le_of_lt hless⟩
        | some fields =>
            refine ⟨_, rfl, ?_⟩
            by_cases hlast : s.nextScriptId = idMax
            · rw [if_pos hlast, Issued.advance, if_pos hlast]
              exact ⟨rfl, rfl, hon, hfew _⟩
            · rw [if_neg hlast, Issued.advance, if_neg hlast]
              exact ⟨rfl, hexhausted, hon, hfew _⟩

theorem nextId_addNew (w : Watchpoints) (wp : Watchpoint) : (w.addNew wp).nextId =
    Watchpoints.succId (Watchpoints.firstFree w.wps (Table.size w.wps) w.nextId) := max_self _

theorem mem_addNew {w : Watchpoints} {wp : Watchpoint} {id : Id} (h : id ∈ (w.addNew wp).wps) :
    id = Watchpoints.firstFree w.wps (Table.size w.wps) w.nextId ∨ id ∈ w.wps :=
  (AList.mem_insert w.wps).mp h

theorem WatchpointsAt.addNew {w : Watchpoints} {n : Nat} (h : WatchpointsAt w n)
    (hpos : 0 ≤ w.nextId) (wp : Watchpoint) :
    n < 2 ^ 31 ∧ Watchpoints.firstFree w.wps (Table.size w.wps) w.nextId = n ∧
      WatchpointsAt (w.addNew wp) (n + 1) := by
  have hnext := h.nextId
  have hlt : n < 2 ^ 31 := by
    by_contra hmore
    rw [hnext, if_neg hmore] at hpos
    exact absurd hpos (by decide)
  rw [if_pos hlt] at hnext
  have hfree : Watchpoints.firstFree w.wps (Table.size w.wps) w.nextId = n := by
    rw [hnext]
    cases Table.size w.wps with
    | zero => rfl
    | succ fuel =>
        rw [Watchpoints.firstFree, if_neg]
        exact fun hmem => absurd (Issued.mem_first.mp (h.keys n hmem)).2 (Int.lt_irrefl _)
  refine ⟨hlt, hfree, hlt, ?_, ?_⟩
  · rw [nextId_addNew, hfree, Watchpoints.succId]
    split
    · rename_i hmore
      exact Int.bmod_eq_of_le (by omega) (by omega)
    · rename_i hwrap
      obtain rfl : n = 2147483647 := by omega
      decide
  · intro id hid
    rw [Issued.first_succ, List.mem_append, List.mem_singleton]
    rcases mem_addNew hid with hnew | hold
    · exact .inr (hnew.trans hfree)
    · exact .inl (h.keys id hold)

/-! ## Operations that allocate nothing -/

structure QuietCodePerfs (s t : CodePerfs) : Prop where
  next : t.nextCodePerfId = s.nextCodePerfId
  exhausted : t.idsExhausted = s.idsExhausted
  size : Table.size t.codePerfs ≤ Table.size s.codePerfs

structure QuietScripts (s t : Scripts F) : Prop where
  next : t.nextScriptId = s.nextScriptId
  exhausted : t.idsExhausted = s.idsExhausted
  enabled : t.enabled = s.enabled
  size : Table.size t.scripts ≤ Table.size s.scripts

structure QuietWatchpoints (w v : Watchpoints) : Prop where
  next : v.nextId = w.nextId
  keys : ∀ id ∈ v.wps, id ∈ w.wps

theorem QuietCodePerfs.refl (s : CodePerfs) : QuietCodePerfs s s := ⟨rfl, rfl, Nat.le_refl _⟩

theorem QuietScripts.refl (s : Scripts F) : QuietScripts s s := ⟨rfl, rfl, rfl, Nat.le_refl _⟩

theorem QuietWatchpoints.refl (w : Watchpoints) : QuietWatchpoints w w := ⟨rfl, fun _ => id⟩

theorem size_insert_le {K V : Type} [DecidableEq K] {t : Table K V} {k : K} {v : V}
    (h : t.lookup k = some v) (v' : V) : Table.size (t.insert k v') ≤ Table.size t :=
  Nat.le_of_eq (Table.size_insert_of_mem (Table.mem_of_lookup h) v')

theorem quiet_editCodePerf (s : CodePerfs) (id : Id) (input : CodePerfInput) :
    (∃ error, s.editCodePerf id input = (some error, s)) ∨
      ∃ t, s.editCodePerf id input = (none, t) ∧ QuietCodePerfs s t := by
  rw [CodePerfs.editCodePerf]
  split
  · exact .inl ⟨_, rfl⟩
  · rename_i r hr
    exact .inr ⟨_, rfl, rfl, rfl, size_insert_le hr _⟩

theorem quiet_delCodePerf (s : CodePerfs) (id : Id) : QuietCodePerfs s (s.delCodePerf id) := by
  rw [CodePerfs.delCodePerf]
  split
  · exact .refl s
  · exact ⟨rfl, rfl, Table.size_erase_le _ id⟩

theorem quiet_delAllCodePerfs (s : CodePerfs) : QuietCodePerfs s s.delAllCodePerfs := by
  rw [CodePerfs.delAllCodePerfs]
  split
  · exact .refl s
  · exact ⟨rfl, rfl, Nat.zero_le _⟩

theorem quiet_editScript (s : Scripts F) (scriptId : Id) (input : Option ScriptInput)
    (source : SourceFile) (load : Option String) :
    (∃ error, s.edit scriptId input source load = (some error, s)) ∨
      ∃ t, s.edit scriptId input source load = (none, t) ∧ QuietScripts s t := by
  unfold Scripts.edit
  split
  · exact .inl ⟨_, rfl⟩
  · exact .inl ⟨_, rfl⟩
  · rename_i script fields hscript
    right
    split
    · refine ⟨_, rfl, ?_⟩
      split <;> exact ⟨rfl, rfl, rfl, Nat.le_refl _⟩
    · refine ⟨_, rfl, ?_⟩
      split
      · exact ⟨rfl, rfl, rfl, size_insert_le hscript _⟩
      · exact ⟨rfl, rfl, rfl, size_insert_le hscript _⟩

theorem quiet_delScript (s : Scripts F) (scriptId : Id) : QuietScripts s (s.del scriptId) := by
  rw [Scripts.del]
  split
  · exact .refl s
  · exact ⟨rfl, rfl, rfl, Table.size_erase_le _ scriptId⟩

theorem quiet_clearScripts (s : Scripts F) : QuietScripts s s.clear := by
  rw [Scripts.clear]
  split
  · exact .refl s
  · exact ⟨rfl, rfl, rfl, Nat.zero_le _⟩

theorem quiet_editWatchpoint (w : Watchpoints) (wp : Watchpoint) :
    w.edit wp = (false, w) ∨ ∃ v, w.edit wp = (true, v) ∧ QuietWatchpoints w v := by
  rw [Watchpoints.edit]
  split
  · exact .inl rfl
  · rename_i old hold
    refine .inr ⟨_, rfl, rfl, fun id hid => ?_⟩
    rcases (AList.mem_insert w.wps).mp hid with rfl | hmem
    · exact Table.mem_of_lookup hold
    · exact hmem

theorem quiet_delWatchpoint (w : Watchpoints) (id : Id) : QuietWatchpoints w (w.del id) := by
  rw [Watchpoints.del]
  split
  · exact .refl w
  · exact ⟨rfl, fun a ha => (AList.mem_erase.mp ha).2⟩

theorem quiet_clearWatchpoints (w : Watchpoints) : QuietWatchpoints w w.clear := by
  rw [Watchpoints.clear]
  split
  · exact .refl w
  · exact ⟨rfl, fun a ha => absurd ha (AList.notMem_empty a)⟩

theorem Ordered.quiet {u v : RecordRun F} (h : u.Ordered) (hgiven : v.given = u.given)
    (hcodePerfs : QuietCodePerfs u.codePerfs v.codePerfs)
    (hscripts : QuietScripts u.scripts v.scripts)
    (hwatchpoints : QuietWatchpoints u.watchpoints v.watchpoints) : v.Ordered := by
  obtain ⟨⟨a, hgivenA, ha⟩, ⟨b, hgivenB, hb⟩, hdisabled, ⟨c, hgivenC, hc⟩, hfew, hfew'⟩ := h
  refine ⟨⟨a, ?_, ?_⟩, ⟨b, ?_, ?_⟩, ?_, ⟨c, ?_, ?_⟩, ?_, ?_⟩
  · rw [hgiven, hgivenA]
  · rw [hcodePerfs.next, hcodePerfs.exhausted]
    exact ha
  · rw [hgiven, hgivenB]
  · rw [hscripts.next, hscripts.exhausted]
    exact hb
  · rw [hgiven, hscripts.enabled]
    exact hdisabled
  · rw [hgiven, hgivenC]
  · exact ⟨hc.bound, hwatchpoints.next.trans hc.nextId,
      fun id hid => hc.keys id (hwatchpoints.keys id hid)⟩
  · exact hcodePerfs.size.trans hfew
  · exact hscripts.size.trans hfew'

/-! ## Replies -/

theorem next_of_added {u : RecordRun F} {op : RecordOp} {kind : RecordKind} {id : Id}
    {s : Records F} (h : u.toRecords.apply op = (.added kind id, s)) :
    u.next op = ⟨s, Function.update u.given kind (u.given kind ++ [id])⟩ := by
  rw [next, reply, h]

theorem next_of_done {u : RecordRun F} {op : RecordOp} {s : Records F}
    (h : u.toRecords.apply op = (.done, s)) : u.next op = ⟨s, u.given⟩ := by
  rw [next, reply, h]

theorem next_of_fails {u : RecordRun F} {op : RecordOp} {r : RecordReply} {s : Records F}
    (h : u.toRecords.apply op = (r, s)) (hr : r.Fails) : u.next op = ⟨s, u.given⟩ := by
  rw [next, reply, h]
  cases r with
  | added => exact hr.elim
  | idExhausted => rfl
  | failed => rfl
  | done => rfl

theorem idMax_toNat {n : Nat} (h : idMax ∈ Issued.first n) : 2 ^ 31 ≤ n := by
  have hlt : (2147483647 : Int) < n := (Issued.mem_first.mp h).2
  omega

theorem lawful_of_added {u : RecordRun F} {op : RecordOp} {kind : RecordKind} {n : Nat}
    {s : Records F} (h : u.toRecords.apply op = (.added kind n, s))
    (hadds : op.addsTo = some kind) (hgiven : u.given kind = Issued.first n) (hn : n < 2 ^ 31)
    (hnext : (u.next op).Ordered) : u.Lawful op := by
  have hreply : u.reply op = .added kind n := congrArg Prod.fst h
  refine ⟨?_, ?_, ?_, hnext.fewCodePerfs, hnext.fewScripts⟩
  · intro kind' id hadded
    rw [hreply] at hadded
    cases hadded
    refine ⟨Int.natCast_nonneg n, fun earlier hmem => ?_⟩
    rw [hgiven] at hmem
    exact (Issued.mem_first.mp hmem).2
  · intro kind' hkind hmax
    rw [hadds] at hkind
    cases hkind
    rw [hgiven] at hmax
    exact absurd (idMax_toNat hmax) (Nat.not_le.mpr hn)
  · intro hfails
    rw [hreply] at hfails
    exact hfails.elim

theorem lawful_of_done {u : RecordRun F} {op : RecordOp} {s : Records F}
    (h : u.toRecords.apply op = (.done, s)) (hadds : op.addsTo = none)
    (hnext : (u.next op).Ordered) : u.Lawful op := by
  have hreply : u.reply op = .done := congrArg Prod.fst h
  refine ⟨?_, ?_, ?_, hnext.fewCodePerfs, hnext.fewScripts⟩
  · intro kind id hadded
    rw [hreply] at hadded
    cases hadded
  · intro kind hkind
    rw [hadds] at hkind
    cases hkind
  · intro hfails
    rw [hreply] at hfails
    exact hfails.elim

/-- A request that is refused; one for an id is so when the ids are exhausted or there is no
room. -/
theorem step_of_refused {u : RecordRun F} {op : RecordOp} {r : RecordReply} (hu : u.Ordered)
    (h : u.toRecords.apply op = (r, u.toRecords)) (hr : r.Fails)
    (hfull : ∀ kind, op.addsTo = some kind → idMax ∈ u.given kind →
      r = .idExhausted ∨ u.Full kind ∧ r = .failed) :
    u.Lawful op ∧ (u.next op).Ordered := by
  have hreply : u.reply op = r := congrArg Prod.fst h
  have hnext : u.next op = u := next_of_fails h hr
  rw [hnext]
  refine ⟨⟨?_, ?_, ?_, ?_, ?_⟩, hu⟩
  · intro kind id hadded
    rw [hreply] at hadded
    rw [hadded] at hr
    exact hr.elim
  · rw [hreply]
    exact hfull
  · intro _
    rw [hnext]
    exact ⟨rfl, rfl, rfl, rfl, rfl⟩
  · rw [hnext]
    exact hu.fewCodePerfs
  · rw [hnext]
    exact hu.fewScripts

/-! ## Additions -/

theorem step_addCodePerf {u : RecordRun F} (h : u.Ordered) (input : CodePerfInput) :
    u.Lawful (.addCodePerf input) ∧ (u.next (.addCodePerf input)).Ordered := by
  obtain ⟨n, hgiven, hcounts⟩ := h.codePerfs
  rcases addCodePerf_cases u.codePerfs input with ⟨hfull, hadd⟩ | ⟨hexhausted, hadd⟩ |
    ⟨hmore, t, hadd, hnext, hexhausted, hfew⟩
  · have happly : u.toRecords.apply (.addCodePerf input) = (.failed, u.toRecords) := by
      rw [Records.apply, hadd]
      rfl
    refine step_of_refused h happly trivial fun kind hkind _ => ?_
    cases hkind
    exact .inr ⟨hfull, rfl⟩
  · have happly : u.toRecords.apply (.addCodePerf input) = (.idExhausted, u.toRecords) := by
      rw [Records.apply, hadd]
      rfl
    exact step_of_refused h happly trivial fun _ _ _ => .inl rfl
  · rw [hmore] at hcounts
    have happly : u.toRecords.apply (.addCodePerf input) =
        (.added .codePerf n, { u.toRecords with codePerfs := t }) := by
      rw [Records.apply, hadd]
      exact Prod.ext (congrArg (RecordReply.added .codePerf) hcounts.next_eq) rfl
    have hordered : (u.next (.addCodePerf input)).Ordered := by
      rw [next_of_added happly]
      refine ⟨⟨n + 1, ?_, ?_⟩, h.scripts, h.disabled, h.watchpoints, hfew, h.fewScripts⟩
      · rw [Issued.first_succ, ← hgiven]
        rfl
      · rw [hnext, hexhausted]
        exact hcounts.advance
    have hn : n < 2 ^ 31 := by
      have hle : (n : Int) ≤ 2147483647 := hcounts.2
      omega
    exact ⟨lawful_of_added happly rfl hgiven hn hordered, hordered⟩

theorem step_addScript {u : RecordRun F} (h : u.Ordered) {input : Option ScriptInput}
    {source : SourceFile} {load : Option String}
    (hwithin : u.Within (.addScript input source load)) :
    u.Lawful (.addScript input source load) ∧ (u.next (.addScript input source load)).Ordered := by
  obtain ⟨n, hgiven, hcounts⟩ := h.scripts
  rcases addScript_cases u.scripts input source load with ⟨hrefused, error, herror, hadd⟩ |
    ⟨hexhausted, hadd⟩ | ⟨henabled, hroom, hmore, t, hadd, hnext, hexhausted, hon, hfew⟩
  · have happly : u.toRecords.apply (.addScript input source load) = (.failed, u.toRecords) := by
      rw [Records.apply, hadd]
      cases error with
      | idExhausted => exact absurd rfl herror
      | _ => rfl
    refine step_of_refused h happly trivial fun kind hkind hmax => ?_
    cases hkind
    rcases hrefused with hdisabled | hfull
    · rw [h.disabled hdisabled] at hmax
      cases hmax
    · exact .inr ⟨hfull, rfl⟩
  · have happly : u.toRecords.apply (.addScript input source load) =
        (.idExhausted, u.toRecords) := by
      rw [Records.apply, hadd]
      rfl
    exact step_of_refused h happly trivial fun _ _ _ => .inl rfl
  · cases input with
    | none =>
        rcases hwithin with hdisabled | hfull | hexhausted
        · rw [hdisabled] at henabled
          cases henabled
        · exact absurd hroom (Nat.not_lt.mpr hfull)
        · rw [hexhausted] at hmore
          cases hmore
    | some fields =>
        rw [hmore] at hcounts
        have happly : u.toRecords.apply (.addScript (some fields) source load) =
            (.added .script n, { u.toRecords with scripts := t }) := by
          rw [Records.apply, hadd]
          exact Prod.ext (congrArg (RecordReply.added .script) hcounts.next_eq) rfl
        have hordered : (u.next (.addScript (some fields) source load)).Ordered := by
          rw [next_of_added happly]
          refine ⟨h.codePerfs, ⟨n + 1, ?_, ?_⟩, ?_, h.watchpoints, h.fewCodePerfs, hfew⟩
          · rw [Issued.first_succ, ← hgiven]
            rfl
          · rw [hnext, hexhausted]
            exact hcounts.advance
          · intro hdisabled
            rw [hon] at hdisabled
            cases hdisabled
        have hn : n < 2 ^ 31 := by
          have hle : (n : Int) ≤ 2147483647 := hcounts.2
          omega
        exact ⟨lawful_of_added happly rfl hgiven hn hordered, hordered⟩

theorem within_addScript {u : RecordRun F} {input : Option ScriptInput} {source : SourceFile}
    {load : Option String} (h : u.Lawful (.addScript input source load)) :
    u.Within (.addScript input source load) := by
  cases input with
  | some => exact trivial
  | none =>
      rcases addScript_cases u.scripts none source load with ⟨hrefused, -⟩ | ⟨hexhausted, -⟩ |
        ⟨henabled, hroom, hmore, t, hadd, hnext, hexhausted, -⟩
      · rcases hrefused with hdisabled | hfull
        · exact .inl hdisabled
        · exact .inr (.inl hfull)
      · exact .inr (.inr hexhausted)
      · exfalso
        have happly : u.toRecords.apply (.addScript none source load) =
            (.failed, { u.toRecords with scripts := t }) := by
          rw [Records.apply, hadd]
          rfl
        have hfails : (u.reply (.addScript none source load)).Fails := by
          rw [reply, happly]
          trivial
        have hsame := congrFun (h.unchanged hfails).nextId .script
        rw [next_of_fails happly trivial] at hsame
        simp only [Records.nextId?, hmore, hnext, hexhausted, Issued.advance] at hsame
        split at hsame
        · cases hsame
        · have hsucc : u.scripts.nextScriptId + 1 = u.scripts.nextScriptId :=
            Option.some_inj.mp hsame
          exact absurd hsucc (Int.ne_of_gt (Int.lt_succ _))

theorem step_addWatchpoint {u : RecordRun F} (h : u.Ordered) {wp : Watchpoint}
    (hwithin : u.Within (.addWatchpoint wp)) :
    u.Lawful (.addWatchpoint wp) ∧ (u.next (.addWatchpoint wp)).Ordered := by
  obtain ⟨n, hgiven, hat⟩ := h.watchpoints
  obtain ⟨hn, hfree, hnext⟩ := hat.addNew hwithin wp
  have happly : u.toRecords.apply (.addWatchpoint wp) =
      (.added .watchpoint n, { u.toRecords with watchpoints := u.watchpoints.addNew wp }) :=
    Prod.ext (congrArg (RecordReply.added .watchpoint) hfree) rfl
  have hordered : (u.next (.addWatchpoint wp)).Ordered := by
    rw [next_of_added happly]
    refine ⟨h.codePerfs, h.scripts, h.disabled, ⟨n + 1, ?_, hnext⟩, h.fewCodePerfs, h.fewScripts⟩
    rw [Issued.first_succ, ← hgiven]
    rfl
  exact ⟨lawful_of_added happly rfl hgiven hn hordered, hordered⟩

theorem within_addWatchpoint {u : RecordRun F} (h : u.Ordered) {wp : Watchpoint}
    (hlawful : u.Lawful (.addWatchpoint wp)) : u.Within (.addWatchpoint wp) := by
  obtain ⟨n, hgiven, hat⟩ := h.watchpoints
  change 0 ≤ u.watchpoints.nextId
  rw [hat.nextId]
  split
  · exact Int.natCast_nonneg n
  · rename_i hwrapped
    have hmax : idMax ∈ u.given .watchpoint := by
      rw [hgiven, Issued.mem_first]
      refine ⟨by decide, ?_⟩
      change (2147483647 : Int) < n
      omega
    rcases hlawful.exhausted .watchpoint rfl hmax with hreply | ⟨hfull, -⟩
    · cases hreply
    · exact hfull.elim

/-! ## Edits and deletions -/

theorem step_of_done {u : RecordRun F} {op : RecordOp} {s : Records F} (h : u.Ordered)
    (happly : u.toRecords.apply op = (.done, s)) (hadds : op.addsTo = none)
    (hcodePerfs : QuietCodePerfs u.codePerfs s.codePerfs)
    (hscripts : QuietScripts u.scripts s.scripts)
    (hwatchpoints : QuietWatchpoints u.watchpoints s.watchpoints) :
    u.Lawful op ∧ (u.next op).Ordered := by
  have hordered : (u.next op).Ordered := by
    rw [next_of_done happly]
    exact Ordered.quiet (v := ⟨s, u.given⟩) h rfl hcodePerfs hscripts hwatchpoints
  exact ⟨lawful_of_done happly hadds hordered, hordered⟩

theorem step_of_missing {u : RecordRun F} {op : RecordOp} (h : u.Ordered)
    (happly : u.toRecords.apply op = (.failed, u.toRecords)) (hadds : op.addsTo = none) :
    u.Lawful op ∧ (u.next op).Ordered := by
  refine step_of_refused h happly trivial fun kind hkind _ => ?_
  rw [hadds] at hkind
  cases hkind

theorem step_editCodePerf {u : RecordRun F} (h : u.Ordered) (id : Id) (input : CodePerfInput) :
    u.Lawful (.editCodePerf id input) ∧ (u.next (.editCodePerf id input)).Ordered := by
  rcases quiet_editCodePerf u.codePerfs id input with ⟨error, hedit⟩ | ⟨t, hedit, ht⟩
  · refine step_of_missing h ?_ rfl
    rw [Records.apply, hedit]
    rfl
  · refine step_of_done h (s := { u.toRecords with codePerfs := t }) ?_ rfl ht (.refl _) (.refl _)
    rw [Records.apply, hedit]
    rfl

theorem step_editScript {u : RecordRun F} (h : u.Ordered) (scriptId : Id)
    (input : Option ScriptInput) (source : SourceFile) (load : Option String) :
    u.Lawful (.editScript scriptId input source load) ∧
      (u.next (.editScript scriptId input source load)).Ordered := by
  rcases quiet_editScript u.scripts scriptId input source load with ⟨error, hedit⟩ |
    ⟨t, hedit, ht⟩
  · refine step_of_missing h ?_ rfl
    rw [Records.apply, hedit]
    rfl
  · refine step_of_done h (s := { u.toRecords with scripts := t }) ?_ rfl (.refl _) ht (.refl _)
    rw [Records.apply, hedit]
    rfl

theorem step_editWatchpoint {u : RecordRun F} (h : u.Ordered) (wp : Watchpoint) :
    u.Lawful (.editWatchpoint wp) ∧ (u.next (.editWatchpoint wp)).Ordered := by
  rcases quiet_editWatchpoint u.watchpoints wp with hedit | ⟨v, hedit, hv⟩
  · refine step_of_missing h ?_ rfl
    rw [Records.apply, hedit]
    rfl
  · refine step_of_done h (s := { u.toRecords with watchpoints := v }) ?_ rfl (.refl _) (.refl _) hv
    rw [Records.apply, hedit]
    rfl

/-! ## Steps and runs -/

theorem step_within {u : RecordRun F} (h : u.Ordered) {op : RecordOp} (hwithin : u.Within op) :
    u.Lawful op ∧ (u.next op).Ordered := by
  cases op with
  | addCodePerf input => exact step_addCodePerf h input
  | editCodePerf id input => exact step_editCodePerf h id input
  | delCodePerf id =>
      exact step_of_done h rfl rfl (quiet_delCodePerf _ id) (.refl _) (.refl _)
  | delAllCodePerfs => exact step_of_done h rfl rfl (quiet_delAllCodePerfs _) (.refl _) (.refl _)
  | addScript input source load => exact step_addScript h hwithin
  | editScript scriptId input source load => exact step_editScript h scriptId input source load
  | delScript scriptId =>
      exact step_of_done h rfl rfl (.refl _) (quiet_delScript _ scriptId) (.refl _)
  | clearScripts => exact step_of_done h rfl rfl (.refl _) (quiet_clearScripts _) (.refl _)
  | addWatchpoint wp => exact step_addWatchpoint h hwithin
  | editWatchpoint wp => exact step_editWatchpoint h wp
  | delWatchpoint id =>
      exact step_of_done h rfl rfl (.refl _) (.refl _) (quiet_delWatchpoint _ id)
  | clearWatchpoints => exact step_of_done h rfl rfl (.refl _) (.refl _) (quiet_clearWatchpoints _)

theorem within_of_lawful {u : RecordRun F} (h : u.Ordered) {op : RecordOp} (hop : u.Lawful op) :
    u.Within op := by
  cases op with
  | addScript => exact within_addScript hop
  | addWatchpoint => exact within_addWatchpoint h hop
  | _ => exact trivial

theorem along_within {u : RecordRun F} (h : u.Ordered) {ops : List RecordOp}
    (hops : Runs.Along (fun u op => some (u.next op)) Lawful u ops) :
    Runs.Along (fun u op => some (u.next op)) Within u ops := by
  refine hops.invariant Ordered (fun u op hu hop => ?_) h
  have hwithin := within_of_lawful hu hop
  refine ⟨hwithin, fun v hv => ?_⟩
  rw [Option.some_inj] at hv
  exact hv ▸ (step_within hu hwithin).2

theorem replicate_within {u : RecordRun F} {n k : Nat} {wp : Watchpoint}
    (h : WatchpointsAt u.watchpoints n)
    (hops : Runs.Along (fun u op => some (u.next op)) Within u
      (List.replicate k (.addWatchpoint wp))) : n + k ≤ 2 ^ 31 := by
  induction k generalizing u n with
  | zero => exact h.bound
  | succ k ih =>
      rw [List.replicate_succ] at hops
      obtain ⟨-, -, hnext⟩ := h.addNew hops.1 wp
      have hle := ih (u := u.next (.addWatchpoint wp)) hnext (hops.2 _ rfl)
      omega

end RecordRun

/-- The operations all do what they must exactly when none goes beyond the limits. -/
theorem recordIds_lawful {F : Type} (enabled : Bool) (ops : List RecordOp) :
    Runs.Along (fun u op => some (u.next op)) RecordRun.Lawful
        (RecordRun.new enabled : RecordRun F) ops ↔
      Runs.Along (fun u op => some (u.next op)) RecordRun.Within
        (RecordRun.new enabled : RecordRun F) ops := by
  constructor
  · exact RecordRun.along_within (RecordRun.ordered_new enabled)
  · intro hops
    refine hops.invariant RecordRun.Ordered (fun u op hu hop => ?_) (RecordRun.ordered_new enabled)
    obtain ⟨hlawful, hordered⟩ := RecordRun.step_within hu hop
    refine ⟨hlawful, fun v hv => ?_⟩
    rw [Option.some_inj] at hv
    exact hv ▸ hordered

/-- One watchpoint more than there are ids, and a script without its fields. -/
theorem recordIds_not_lawful :
    ¬ Runs.Along (fun u op => some (u.next op)) RecordRun.Lawful
      (RecordRun.new true : RecordRun Int) (List.replicate (2 ^ 31 + 1) (.addWatchpoint
        ⟨0, -1, 1, 0, .rw, .any, .len, true, false, false, ""⟩)) ∧
    ¬ Runs.Along (fun u op => some (u.next op)) RecordRun.Lawful
      (RecordRun.new true : RecordRun Int)
      [.addScript none ⟨true, some 0, true, some []⟩ none] := by
  constructor
  · intro hops
    have hle := RecordRun.replicate_within (n := 0) ⟨by decide, rfl, fun id h =>
      absurd h (AList.notMem_empty id)⟩ (RecordRun.along_within (RecordRun.ordered_new true) hops)
    omega
  · intro hops
    have hwithin := (RecordRun.along_within (RecordRun.ordered_new true) hops).1
    rcases hwithin with hdisabled | hfull | hexhausted
    · cases hdisabled
    · exact absurd (show maxRecords ≤ 0 from hfull) (by decide)
    · cases hexhausted

end V6Emul
