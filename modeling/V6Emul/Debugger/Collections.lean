import V6Emul.Debugger.Overlays
import V6Emul.Debugger.Watchpoints
import V6Emul.Foundation.Revision
import V6Emul.Foundation.Runs

/-!
# The revisions of the debugger's collections

The breakpoints, the watchpoints and the scripts each count their updates, and a
client asks for a collection again when its count has changed.  Every operation
counts what it changes.  Only the two `Add` operations on JSON count before they can
throw.
-/

namespace V6Emul

open Revision

/-! ## Breakpoints -/

inductive BreakpointOp where
  | clear
  | setStatus (addr : Addr) (status : BreakpointStatus)
  | add (bp : Breakpoint)
  | addJson (j : BreakpointFields)
  | del (addr : Addr)
  | check (cpu : CpuState) (mem : Update)

namespace Breakpoints

def apply (op : BreakpointOp) (b : Breakpoints) : Bool × Breakpoints :=
  match op with
  | .clear => (false, b.clear)
  | .setStatus addr status => (false, b.setStatus addr status)
  | .add bp => (false, b.add bp)
  | .addJson j => b.addJson j
  | .del addr => (false, b.del addr)
  | .check cpu mem => (false, (b.check cpu mem).2)

def Missing (op : BreakpointOp) (b : Breakpoints) : Prop :=
  match op with
  | .setStatus addr _ => addr.setWidth 32 ∉ b.bps
  | .del addr => addr.setWidth 32 ∉ b.bps
  | .check cpu _ => cpu.pc.word.setWidth 32 ∉ b.bps
  | _ => False

def Converts : BreakpointOp → Prop
  | .addJson j => (Breakpoint.ofFields j).isSome
  | _ => True

def Idle (op : BreakpointOp) (b : Breakpoints) : Prop := (apply op b).1 = true ∨ Missing op b

theorem not_idle {op : BreakpointOp} {b : Breakpoints} (hrejected : (apply op b).1 = false)
    (hmissing : ¬ Missing op b) : ¬ Idle op b := by
  rintro (hthrown | hgone)
  · rw [hrejected] at hthrown
    cases hthrown
  · exact hmissing hgone

theorem apply_accounted {op : BreakpointOp} (hop : Converts op) (b : Breakpoints) :
    Accounted getAll updates 1 (Idle op b) b (apply op b).2 := by
  cases op with
  | clear =>
      by_cases hempty : b.bps.entries.isEmpty
      · exact .same (by simp [apply, clear, hempty])
      · exact .counted (Nat.le_refl 1) (by simp [apply, clear, hempty]) (not_idle rfl id)
  | setStatus addr status =>
      cases hbp : b.bps.lookup (addr.setWidth 32) with
      | none => exact .same (by simp [apply, setStatus, hbp])
      | some bp =>
          by_cases hsame : bp.status = status
          · exact .same (by simp [apply, setStatus, hbp, hsame])
          · exact .counted (Nat.le_refl 1) (by simp [apply, setStatus, hbp, hsame])
              (not_idle rfl fun hgone => hgone (Table.mem_of_lookup hbp))
  | add bp => exact .counted (Nat.le_refl 1) rfl (not_idle rfl id)
  | addJson j =>
      obtain ⟨bp, hbp⟩ := Option.isSome_iff_exists.mp hop
      exact .counted (Nat.le_refl 1) (by simp [apply, addJson, hbp])
        (not_idle (by simp [apply, addJson, hbp]) id)
  | del addr =>
      cases hbp : b.bps.lookup (addr.setWidth 32) with
      | none => exact .same (by simp [apply, del, hbp])
      | some bp =>
          exact .counted (Nat.le_refl 1) (by simp [apply, del, hbp])
            (not_idle rfl fun hgone => hgone (Table.mem_of_lookup hbp))
  | check cpu mem =>
      cases hbp : b.bps.lookup (cpu.pc.word.setWidth 32) with
      | none => exact .same (by simp [apply, check, hbp])
      | some bp =>
          by_cases hactive : bp.checkStatus cpu mem
          · have hcases : (apply (.check cpu mem) b).2 = b ∨
                (apply (.check cpu mem) b).2.updates = b.updates + 1 := by
              simp only [apply, check, hbp, hactive]
              split_ifs <;> simp
            rcases hcases with hsame | hupdates
            · exact .same hsame
            · exact .counted (Nat.le_refl 1) hupdates
                (not_idle rfl fun hgone => hgone (Table.mem_of_lookup hbp))
          · exact .same (by simp [apply, check, hbp, hactive])

theorem touched_of_not_converts {op : BreakpointOp} (hop : ¬ Converts op) (b : Breakpoints) :
    Idle op b ∧ ¬ Untouched getAll updates b (apply op b).2 := by
  cases op with
  | addJson j =>
      have hbp : Breakpoint.ofFields j = none := Option.not_isSome_iff_eq_none.mp hop
      constructor
      · exact .inl (by simp [apply, addJson, hbp])
      · rintro ⟨-, hupdates⟩
        simp [apply, addJson, hbp] at hupdates
  | _ => exact absurd trivial hop

end Breakpoints

/-! ## Watchpoints -/

inductive WatchpointOp where
  | clear
  | add (wp : Watchpoint)
  | addNew (wp : Watchpoint)
  | edit (wp : Watchpoint)
  | addJson (j : WatchpointFields)
  | del (id : Id)
  | check (access : WatchpointAccess) (globalAddr : BitVec 32) (value : Byte)
      (oldValue : Option Byte)
  | checkBreak

namespace Watchpoints

def apply (op : WatchpointOp) (w : Watchpoints) : Bool × Watchpoints :=
  match op with
  | .clear => (false, w.clear)
  | .add wp => (false, w.add wp)
  | .addNew wp => (false, w.addNew wp)
  | .edit wp => (!(w.edit wp).1, (w.edit wp).2)
  | .addJson j => w.addJson j
  | .del id => (false, w.del id)
  | .check access globalAddr value oldValue => (false, w.check access globalAddr value oldValue)
  | .checkBreak => (false, w.checkBreak.2)

def Missing (op : WatchpointOp) (w : Watchpoints) : Prop :=
  match op with
  | .edit wp => wp.id ∉ w.wps
  | .del id => id ∉ w.wps
  | _ => False

def Converts : WatchpointOp → Prop
  | .addJson j => (Watchpoint.ofFields j).isSome
  | _ => True

def Keyed (w : Watchpoints) : Prop := Table.Keyed Watchpoint.id id w.wps

theorem toJson_check (wp : Watchpoint) (access : WatchpointAccess) (globalAddr : BitVec 32)
    (value : Byte) : (wp.check access globalAddr value).2.toJson = wp.toJson := by
  rw [Watchpoint.check]
  dsimp only
  split_ifs <;> rfl

theorem getAll_mapValues {w v : Watchpoints} (hw : w.Keyed) {f : Watchpoint → Watchpoint}
    (hf : ∀ wp, (f wp).toJson = wp.toJson) (hv : v.wps = Table.mapValues (fun _ => f) w.wps) :
    v.getAll = w.getAll ∧ v.Keyed := by
  have hid : ∀ wp, (f wp).id = wp.id := fun wp => congrArg WatchpointJson.id (hf wp)
  constructor
  · symm
    apply Table.sorted_congr (fun _ => rfl : ∀ wp, WatchpointJson.id (Watchpoint.toJson wp) = wp.id) hw
    intro k
    rw [hv, Table.lookup_mapValues]
    cases w.wps.lookup k with
    | none => rfl
    | some wp => exact congrArg some (hf wp).symm
  · rw [Keyed, hv]
    exact Table.Keyed.mapValues hw fun _ => hid

def Idle (op : WatchpointOp) (w : Watchpoints) : Prop := (apply op w).1 = true ∨ Missing op w

theorem not_idle {op : WatchpointOp} {w : Watchpoints} (hrejected : (apply op w).1 = false)
    (hmissing : ¬ Missing op w) : ¬ Idle op w := by
  rintro (hthrown | hgone)
  · rw [hrejected] at hthrown
    cases hthrown
  · exact hmissing hgone

theorem apply_accounted {op : WatchpointOp} (hop : Converts op) {w : Watchpoints} (hw : w.Keyed) :
    Accounted getAll updates 1 (Idle op w) w (apply op w).2 := by
  cases op with
  | clear =>
      by_cases hempty : w.wps.entries.isEmpty
      · exact .same (by simp [apply, clear, hempty])
      · exact .counted (Nat.le_refl 1) (by simp [apply, clear, hempty]) (not_idle rfl id)
  | add wp => exact .counted (Nat.le_refl 1) rfl (not_idle rfl id)
  | addNew wp => exact .counted (Nat.le_refl 1) rfl (not_idle rfl id)
  | edit wp =>
      cases hwp : w.wps.lookup wp.id with
      | none => exact .same (by simp [apply, edit, hwp])
      | some old =>
          exact .counted (Nat.le_refl 1) (by simp [apply, edit, hwp])
            (not_idle (by simp [apply, edit, hwp]) fun hgone => hgone (Table.mem_of_lookup hwp))
  | addJson j =>
      obtain ⟨wp, hwp⟩ := Option.isSome_iff_exists.mp hop
      exact .counted (Nat.le_refl 1) (by simp [apply, addJson, hwp])
        (not_idle (by simp [apply, addJson, hwp]) id)
  | del id =>
      cases hwp : w.wps.lookup id with
      | none => exact .same (by simp [apply, del, hwp])
      | some wp =>
          exact .counted (Nat.le_refl 1) (by simp [apply, del, hwp])
            (not_idle rfl fun hgone => hgone (Table.mem_of_lookup hwp))
  | check access globalAddr value oldValue =>
      have hviews : ∀ wp : Watchpoint, (wp.check access globalAddr value).2.toJson = wp.toJson :=
        fun wp => toJson_check wp access globalAddr value
      apply Accounted.kept
      · apply (getAll_mapValues hw hviews _).1
        dsimp only [apply, check]
        split <;> rfl
      · dsimp only [apply, check]
        split <;> rfl
  | checkBreak =>
      by_cases hbreak : w.wpBreak
      · apply Accounted.kept
        · apply (getAll_mapValues hw (f := Watchpoint.reset) (fun _ => rfl) _).1
          simp [apply, checkBreak, hbreak]
        · simp [apply, checkBreak, hbreak]
      · exact .same (by simp [apply, checkBreak, hbreak])

theorem touched_of_not_converts {op : WatchpointOp} (hop : ¬ Converts op) (w : Watchpoints) :
    Idle op w ∧ ¬ Untouched getAll updates w (apply op w).2 := by
  cases op with
  | addJson j =>
      have hwp : Watchpoint.ofFields j = none := Option.not_isSome_iff_eq_none.mp hop
      constructor
      · exact .inl (by simp [apply, addJson, hwp])
      · rintro ⟨-, hupdates⟩
        simp [apply, addJson, hwp] at hupdates
  | _ => exact absurd trivial hop

theorem keyed_apply (op : WatchpointOp) {w : Watchpoints} (hw : w.Keyed) :
    (apply op w).2.Keyed := by
  cases op with
  | clear =>
      by_cases hempty : w.wps.entries.isEmpty
      · simpa [apply, clear, hempty] using hw
      · simpa [apply, clear, hempty, Keyed] using Table.keyed_empty Watchpoint.id id
  | add wp => exact Table.Keyed.insert hw rfl
  | addNew wp => exact Table.Keyed.insert hw rfl
  | edit wp =>
      cases hwp : w.wps.lookup wp.id with
      | none => simpa [apply, edit, hwp] using hw
      | some old =>
          simp only [apply, edit, hwp]
          exact Table.Keyed.insert hw rfl
  | addJson j =>
      cases hwp : Watchpoint.ofFields j with
      | none => simpa [apply, addJson, hwp, Keyed] using hw
      | some wp =>
          simp only [apply, addJson, hwp]
          exact Table.Keyed.insert hw rfl
  | del id =>
      cases hwp : w.wps.lookup id with
      | none => simpa [apply, del, hwp] using hw
      | some wp =>
          simp only [apply, del, hwp]
          exact Table.Keyed.erase hw id
  | check access globalAddr value oldValue =>
      have hviews : ∀ wp : Watchpoint, (wp.check access globalAddr value).2.toJson = wp.toJson :=
        fun wp => toJson_check wp access globalAddr value
      apply (getAll_mapValues hw hviews _).2
      dsimp only [apply, check]
      split <;> rfl
  | checkBreak =>
      by_cases hbreak : w.wpBreak
      · apply (getAll_mapValues hw (f := Watchpoint.reset) (fun _ => rfl) _).2
        simp [apply, checkBreak, hbreak]
      · simpa [apply, checkBreak, hbreak] using hw

end Watchpoints

/-! ## Scripts -/

/-- A scheduled check visits the scripts in the order of a rank, which may be any. -/
inductive ScriptOp (F : Type) where
  | add (input : Option ScriptInput) (source : SourceFile) (load : Option String)
  | edit (scriptId : Id) (input : Option ScriptInput) (source : SourceFile) (load : Option String)
  | compile (scriptId : Id) (source : SourceFile) (load : Option String)
  | runOnce (scriptId : Id) (run : LuaRun F)
  | check (rank : Id → Nat) (runs : Id → LuaRun F)
  | disable (scriptId : Id)
  | disableAll
  | del (scriptId : Id)
  | clear
  | getOverlayUpdates
  | markAllOverlaysUpdated

namespace Scripts

variable {F : Type}

def visited (s : Scripts F) (rank : Id → Nat) : List Id :=
  s.scripts.keys.mergeSort fun a b => rank a ≤ rank b

def Missing (op : ScriptOp F) (s : Scripts F) : Prop :=
  match op with
  | .edit scriptId .. => scriptId ∉ s.scripts
  | .compile scriptId .. => scriptId ∉ s.scripts
  | .runOnce scriptId _ => scriptId ∉ s.scripts
  | .disable scriptId => scriptId ∉ s.scripts
  | .del scriptId => scriptId ∉ s.scripts
  | _ => False

def apply [BEq F] [Zero F] (op : ScriptOp F) (s : Scripts F) : Bool × Scripts F :=
  match op with
  | .add input source load => ((s.add input source load).1.isSome, (s.add input source load).2)
  | .edit scriptId input source load =>
      ((s.edit scriptId input source load).1.isSome, (s.edit scriptId input source load).2)
  | .compile scriptId source load =>
      ((s.compile scriptId source load).1.isSome, (s.compile scriptId source load).2)
  | .runOnce scriptId run => (!(s.runOnce scriptId run).1.isOk, (s.runOnce scriptId run).2)
  | .check rank runs => (false, (s.check (s.visited rank) runs).2)
  | .disable scriptId => ((s.disable scriptId).1.isSome, (s.disable scriptId).2)
  | .disableAll => (false, s.disableAll.2)
  | .del scriptId => (false, s.del scriptId)
  | .clear => (false, s.clear)
  | .getOverlayUpdates => (false, s.getOverlayUpdates.2)
  | .markAllOverlaysUpdated => (false, s.markAllOverlaysUpdated)

def Idle [BEq F] [Zero F] (op : ScriptOp F) (s : Scripts F) : Prop :=
  (apply op s).1 = true ∨ Missing op s

structure Sound (s : Scripts F) : Prop where
  keyed : Table.Keyed Script.scriptId id s.scripts
  callable : ∀ scriptId script, s.scripts.lookup scriptId = some script → script.Callable
  few : Table.size s.scripts ≤ maxRecords

theorem sound_new (enabled : Bool) : (new enabled : Scripts F).Sound where
  keyed := Table.keyed_empty _ _
  callable := fun _ _ h => absurd h (by simp [new])
  few := Nat.zero_le _

theorem Sound.congr {s t : Scripts F} (hs : s.Sound) (h : t.scripts = s.scripts) : t.Sound := by
  constructor
  · rw [h]
    exact hs.keyed
  · rw [h]
    exact hs.callable
  · rw [h]
    exact hs.few

theorem Sound.insert {s t : Scripts F} (hs : s.Sound) {scriptId : Id} {script : Script}
    (hkey : script.scriptId = scriptId) (hcallable : script.Callable)
    (hfew : Table.size (s.scripts.insert scriptId script) ≤ maxRecords)
    (ht : t.scripts = s.scripts.insert scriptId script) : t.Sound := by
  constructor
  · rw [ht]
    exact hs.keyed.insert hkey
  · intro a other hother
    rw [ht] at hother
    by_cases ha : a = scriptId
    · rw [ha, AList.lookup_insert, Option.some_inj] at hother
      exact hother ▸ hcallable
    · rw [AList.lookup_insert_ne ha] at hother
      exact hs.callable a other hother
  · rw [ht]
    exact hfew

theorem Sound.replace {s t : Scripts F} (hs : s.Sound) {scriptId : Id} {old script : Script}
    (hold : s.scripts.lookup scriptId = some old) (hkey : script.scriptId = old.scriptId)
    (hcallable : script.Callable) (ht : t.scripts = s.scripts.insert scriptId script) :
    t.Sound := by
  apply hs.insert (hkey.trans (hs.keyed scriptId old hold)) hcallable _ ht
  rw [Table.size_insert_of_mem (Table.mem_of_lookup hold)]
  exact hs.few

theorem getAll_congr {s t : Scripts F} (hs : s.Sound)
    (h : ∀ a, (t.scripts.lookup a).map Script.toJson = (s.scripts.lookup a).map Script.toJson) :
    t.getAll = s.getAll := by
  symm
  exact Table.sorted_congr (fun _ => rfl : ∀ x, ScriptJson.scriptId (Script.toJson x) = x.scriptId)
    hs.keyed fun a => (h a).symm

theorem getAll_of_scripts {s t : Scripts F} (h : t.scripts = s.scripts) : t.getAll = s.getAll := by
  rw [getAll, getAll, h]

/-! ### Running -/

theorem afterRun_callable {script : Script} (h : script.Callable) (run : LuaRun F) :
    (afterRun script run).Callable := by
  rw [afterRun]
  split <;> exact h

theorem afterRun_scriptId (script : Script) (run : LuaRun F) :
    (afterRun script run).scriptId = script.scriptId := by
  rw [afterRun]
  split <;> rfl

theorem afterRun_eq {script : Script} {run : LuaRun F}
    (hstatus : script.runtimeStatus = (afterRun script run).runtimeStatus)
    (herror : script.runtimeError = (afterRun script run).runtimeError) :
    afterRun script run = script := by
  rw [afterRun] at hstatus herror ⊢
  cases script
  split at hstatus
  · simp_all
  · simp_all

variable [BEq F] [Zero F]

theorem not_idle {op : ScriptOp F} {s : Scripts F} (hrejected : (apply op s).1 = false)
    (hmissing : ¬ Missing op s) : ¬ Idle op s := by
  rintro (hthrown | hgone)
  · rw [hrejected] at hthrown
    cases hthrown
  · exact hmissing hgone

theorem runScript_cases (s : Scripts F) (key : Id) (script : Script) (run : LuaRun F) :
    (∃ error, s.runScript key script run = (.error error, s) ∧
        ¬ (script.compilationStatus = .compiled ∧ script.ref = true)) ∨
      ∃ result t, s.runScript key script run = (.ok result, t) ∧
        t.scripts = s.scripts.insert key (afterRun script run) ∧
        (t.updates = s.updates + 1 ∨ (t.updates = s.updates ∧ afterRun script run = script)) := by
  rw [runScript]
  split
  · rename_i hrefused
    refine .inl ⟨_, rfl, fun hcompiled => ?_⟩
    rcases hrefused with hstatus | href
    · exact hstatus hcompiled.1
    · rw [hcompiled.2] at href
      cases href
  · obtain ⟨overlays, hdrawn⟩ :=
      drawAll_frame { s with break_ := false, currentScriptId := script.scriptId } run.draws
    refine .inr ⟨_, _, rfl, ?_, ?_⟩
    · simp only [hdrawn, setScript, countUpdate]
      split_ifs <;> rfl
    · by_cases hdiffers : script.runtimeStatus ≠ (afterRun script run).runtimeStatus ∨
          script.runtimeError ≠ (afterRun script run).runtimeError
      · left
        simp only [hdrawn, setScript, countUpdate, if_pos hdiffers]
        split_ifs <;> rfl
      · right
        rw [not_or, not_not, not_not] at hdiffers
        refine ⟨?_, afterRun_eq hdiffers.1 hdiffers.2⟩
        simp only [hdrawn, setScript, hdiffers, ne_eq, not_true_eq_false, or_self, if_false]
        split_ifs <;> rfl

theorem runScript_accounted {s : Scripts F} (hs : s.Sound) {key : Id} {script : Script}
    (hscript : s.scripts.lookup key = some script) (run : LuaRun F) :
    Accounted getAll updates 1 ((s.runScript key script run).1.isOk = false) s
        (s.runScript key script run).2 ∧
      (s.runScript key script run).2.Sound := by
  have hcallable := hs.callable key script hscript
  rcases s.runScript_cases key script run with ⟨error, hrun, -⟩ | ⟨result, t, hrun, hscripts, hcount⟩
  · rw [hrun]
    exact ⟨.same rfl, hs⟩
  · rw [hrun]
    have hsound : t.Sound := hs.replace hscript (afterRun_scriptId script run)
      (afterRun_callable hcallable run) hscripts
    refine ⟨?_, hsound⟩
    rcases hcount with hcounted | ⟨hupdates, hrecord⟩
    · exact .counted (Nat.le_refl 1) hcounted (by simp [Except.isOk, Except.toBool])
    · apply Accounted.kept _ hupdates
      apply getAll_congr hs
      intro a
      rw [hscripts, hrecord]
      by_cases ha : a = key
      · rw [ha, AList.lookup_insert, hscript]
      · rw [AList.lookup_insert_ne ha]

theorem runScript_ok {s : Scripts F} (hs : s.Sound) {key : Id} {script : Script}
    (hscript : s.scripts.lookup key = some script) (hscheduled : scheduled script = true)
    (run : LuaRun F) : (s.runScript key script run).1.isOk = true := by
  rcases s.runScript_cases key script run with ⟨error, -, hrefused⟩ | ⟨result, t, hrun, -⟩
  · simp only [scheduled, Bool.and_eq_true, beq_iff_eq] at hscheduled
    exact absurd ⟨hscheduled.1.2, hs.callable key script hscript hscheduled.1.2⟩ hrefused
  · rw [hrun]
    rfl

theorem checkLoop_accounted {s : Scripts F} (hs : s.Sound) (runs : Id → LuaRun F)
    (order : List Id) :
    Accounted getAll updates order.length False s (s.checkLoop runs order).2 ∧
      (s.checkLoop runs order).2.Sound := by
  induction order generalizing s with
  | nil => exact ⟨.same rfl, hs⟩
  | cons scriptId order ih =>
      have hskip : Accounted getAll updates (order.length + 1) False s (s.checkLoop runs order).2 ∧
          (s.checkLoop runs order).2.Sound := by
        obtain ⟨haccounted, hsound⟩ := ih hs
        exact ⟨haccounted.mono (Nat.le_succ _), hsound⟩
      rw [checkLoop]
      split
      · exact hskip
      · rename_i script hscript
        split
        · rename_i hscheduled
          obtain ⟨hrun, hsound⟩ := runScript_accounted hs hscript (runs scriptId)
          split
          · rename_i heq
            have hok := runScript_ok hs hscript hscheduled (runs scriptId)
            rw [heq] at hok
            cases hok
          · rename_i result t heq
            rw [heq] at hrun hsound
            obtain ⟨hrest, hsoundRest⟩ := ih hsound
            refine ⟨?_, hsoundRest⟩
            rw [List.length_cons, Nat.add_comm]
            exact (hrun.imp False.elim).trans hrest
        · exact hskip

theorem sound_apply (op : ScriptOp F) {s : Scripts F} (hs : s.Sound) : (apply op s).2.Sound := by
  cases op with
  | add input source load =>
      rcases s.add_cases input source load with ⟨error, t, hadd, hscripts, -⟩ |
        ⟨script, t, hkey, hcallable, hroom, hadd, hscripts, -⟩
      · rw [apply, hadd]
        exact hs.congr hscripts
      · rw [apply, hadd]
        apply hs.insert hkey hcallable _ hscripts
        by_cases hmem : s.nextScriptId ∈ s.scripts
        · rw [Table.size_insert_of_mem hmem]
          exact hs.few
        · rw [Table.size_insert_of_notMem hmem]
          exact hroom
  | edit scriptId input source load =>
      rcases s.edit_cases scriptId input source load with ⟨error, hedit⟩ |
        ⟨script, fields, t, hscript, -, hedit, -, hscripts⟩
      · rw [apply, hedit]
        exact hs
      · rw [apply, hedit]
        rcases hscripts with ⟨hsame, -⟩ | ⟨edited, hid, hcallable, hinsert, -⟩
        · exact hs.congr hsame
        · exact hs.replace hscript hid (hcallable (hs.callable scriptId script hscript)) hinsert
  | compile scriptId source load =>
      cases hscript : s.scripts.lookup scriptId with
      | none => simpa [apply, compile, hscript] using hs
      | some script =>
          simp only [apply, compile, hscript]
          exact hs.replace hscript (compile_scriptId script source load)
            (compile_callable script source load) rfl
  | runOnce scriptId run =>
      cases hscript : s.scripts.lookup scriptId with
      | none => simpa [apply, runOnce, hscript] using hs
      | some script =>
          simp only [apply, runOnce, hscript]
          exact (runScript_accounted hs hscript run).2
  | check rank runs =>
      dsimp only [apply, check]
      split
      · exact (checkLoop_accounted hs runs _).2
      · exact hs
  | disable scriptId =>
      cases hscript : s.scripts.lookup scriptId with
      | none => simpa [apply, disable, hscript] using hs
      | some script =>
          simp only [apply, disable, hscript]
          split
          · exact @Sound.replace F s _ hs scriptId script { script with active := false } hscript rfl
              (hs.callable scriptId script hscript) rfl
          · exact hs.congr rfl
  | disableAll =>
      have hdisabled : ({ s with
          scripts := Table.mapValues (fun _ script => { script with active := false }) s.scripts
          } : Scripts F).Sound := by
        constructor
        · exact hs.keyed.mapValues fun _ _ => rfl
        · intro a script hscript
          dsimp only at hscript
          rw [Table.lookup_mapValues, Option.map_eq_some_iff] at hscript
          obtain ⟨before, hbefore, rfl⟩ := hscript
          exact hs.callable a before hbefore
        · rw [Table.size_mapValues]
          exact hs.few
      dsimp only [apply, disableAll]
      split <;> exact hdisabled.congr rfl
  | del scriptId =>
      cases hscript : s.scripts.lookup scriptId with
      | none => simpa [apply, del, hscript] using hs
      | some script =>
          simp only [apply, del, hscript]
          constructor
          · exact hs.keyed.erase scriptId
          · intro a other hother
            apply hs.callable a other
            by_cases ha : a = scriptId
            · rw [countUpdate, ha, AList.lookup_erase] at hother
              cases hother
            · rwa [countUpdate, AList.lookup_erase_ne ha] at hother
          · exact (Table.size_erase_le s.scripts scriptId).trans hs.few
  | clear =>
      dsimp only [apply, clear]
      split
      · exact hs
      · exact (sound_new false).congr rfl
  | getOverlayUpdates => exact hs.congr rfl
  | markAllOverlaysUpdated => exact hs.congr rfl

theorem apply_accounted (op : ScriptOp F) {s : Scripts F} (hs : s.Sound) :
    Accounted getAll updates maxRecords (Idle op s) s (apply op s).2 := by
  have hone : 1 ≤ maxRecords := by decide
  cases op with
  | add input source load =>
      rcases s.add_cases input source load with ⟨error, t, hadd, hscripts, -, hupdates⟩ |
        ⟨script, t, -, -, -, hadd, -, -, hupdates⟩
      · apply Accounted.kept
        · rw [apply, hadd]
          exact getAll_of_scripts hscripts
        · rw [apply, hadd]
          exact hupdates
      · refine .counted hone ?_ (not_idle ?_ id)
        · rw [apply, hadd]
          exact hupdates
        · rw [apply, hadd]
          rfl
  | edit scriptId input source load =>
      rcases s.edit_cases scriptId input source load with ⟨error, hedit⟩ |
        ⟨script, fields, t, hscript, -, hedit, -, hscripts⟩
      · exact .same (by rw [apply, hedit])
      · rcases hscripts with ⟨hsame, hupdates⟩ | ⟨edited, -, -, -, hupdates⟩
        · apply Accounted.kept
          · rw [apply, hedit]
            exact getAll_of_scripts hsame
          · rw [apply, hedit]
            exact hupdates
        · refine .counted hone ?_ (not_idle ?_ fun hgone => hgone (Table.mem_of_lookup hscript))
          · rw [apply, hedit]
            exact hupdates
          · rw [apply, hedit]
            rfl
  | compile scriptId source load =>
      cases hscript : s.scripts.lookup scriptId with
      | none => exact .same (by simp [apply, compile, hscript])
      | some script =>
          exact .counted hone (by simp [apply, compile, hscript, countUpdate, setScript])
            (not_idle (by simp [apply, compile, hscript]) fun hgone =>
              hgone (Table.mem_of_lookup hscript))
  | runOnce scriptId run =>
      cases hscript : s.scripts.lookup scriptId with
      | none => exact .same (by simp [apply, runOnce, hscript])
      | some script =>
          have hrun := (runScript_accounted hs hscript run).1
          have hidle : Idle (.runOnce scriptId run) s →
              (s.runScript scriptId script run).1.isOk = false := by
            rintro (hthrown | hgone)
            · simpa [apply, runOnce, hscript] using hthrown
            · exact absurd (Table.mem_of_lookup hscript) hgone
          simp only [apply, runOnce, hscript]
          exact (hrun.mono hone).imp hidle
  | check rank runs =>
      have hfew : (s.visited rank).length ≤ maxRecords := by
        rw [visited, List.length_mergeSort, AList.keys, List.keys, List.length_map]
        exact hs.few
      have hidle : Idle (.check rank runs) s → False := not_idle rfl id
      dsimp only [apply, check]
      split
      · exact ((checkLoop_accounted hs runs _).1.mono hfew).imp hidle
      · exact .same rfl
  | disable scriptId =>
      cases hscript : s.scripts.lookup scriptId with
      | none => exact .same (by simp [apply, disable, hscript])
      | some script =>
          by_cases hactive : script.active
          · exact .counted hone
              (by simp [apply, disable, hscript, hactive, countUpdate, setScript, removeOverlays])
              (not_idle (by simp [apply, disable, hscript]) fun hgone =>
                hgone (Table.mem_of_lookup hscript))
          · exact .kept (by simp [apply, disable, hscript, hactive, getAll, removeOverlays])
              (by simp [apply, disable, hscript, hactive, removeOverlays])
  | disableAll =>
      by_cases hany : 0 < (s.scripts.entries.filter fun e => e.2.active).length
      · exact .counted hone (by simp [apply, disableAll, hany, countUpdate]) (not_idle rfl id)
      · apply Accounted.kept
        · apply getAll_congr hs
          intro a
          have hinactive : ∀ script, s.scripts.lookup a = some script → script.active = false := by
            intro script hscript
            have hmem := AList.mem_lookup_iff.mp hscript
            have hnone := List.eq_nil_of_length_eq_zero (Nat.eq_zero_of_not_pos hany)
            simpa using List.filter_eq_nil_iff.mp hnone ⟨a, script⟩ hmem
          simp only [apply, disableAll, hany, if_false, Table.lookup_mapValues]
          cases hscript : s.scripts.lookup a with
          | none => rfl
          | some script => simp [Script.toJson, Script.compilationToJson, Script.runtimeToJson,
              hinactive script hscript]
        · simp [apply, disableAll, hany]
  | del scriptId =>
      cases hscript : s.scripts.lookup scriptId with
      | none => exact .same (by simp [apply, del, hscript])
      | some script =>
          exact .counted hone (by simp [apply, del, hscript, countUpdate, removeOverlays])
            (not_idle rfl fun hgone => hgone (Table.mem_of_lookup hscript))
  | clear =>
      by_cases hempty : s.scripts.entries.isEmpty
      · exact .same (by simp [apply, clear, hempty])
      · exact .counted hone (by simp [apply, clear, hempty, countUpdate, clearOverlays])
          (not_idle rfl id)
  | getOverlayUpdates => exact .kept rfl rfl
  | markAllOverlaysUpdated => exact .kept rfl rfl

end Scripts

/-! ## The three collections -/

structure Collections (F : Type) where
  breakpoints : Breakpoints
  watchpoints : Watchpoints
  scripts : Scripts F

inductive CollectionOp (F : Type) where
  | breakpoint (op : BreakpointOp)
  | watchpoint (op : WatchpointOp)
  | script (op : ScriptOp F)

namespace CollectionOp

variable {F : Type}

def Converts : CollectionOp F → Prop
  | .breakpoint op => Breakpoints.Converts op
  | .watchpoint op => Watchpoints.Converts op
  | .script _ => True

end CollectionOp

namespace Collections

variable {F : Type}

def new (enabled : Bool) : Collections F := ⟨.new, .new, .new enabled⟩

def Revised (c d : Collections F) : Prop :=
  Revision.Revised Breakpoints.getAll Breakpoints.updates c.breakpoints d.breakpoints ∧
    Revision.Revised Watchpoints.getAll Watchpoints.updates c.watchpoints d.watchpoints ∧
    Revision.Revised Scripts.getAll Scripts.updates c.scripts d.scripts

def Untouched (c d : Collections F) : Prop :=
  Revision.Untouched Breakpoints.getAll Breakpoints.updates c.breakpoints d.breakpoints ∧
    Revision.Untouched Watchpoints.getAll Watchpoints.updates c.watchpoints d.watchpoints ∧
    Revision.Untouched Scripts.getAll Scripts.updates c.scripts d.scripts

structure Sound (c : Collections F) : Prop where
  watchpoints : c.watchpoints.Keyed
  scripts : c.scripts.Sound

theorem sound_new (enabled : Bool) : (new enabled : Collections F).Sound where
  watchpoints := Table.keyed_empty _ _
  scripts := Scripts.sound_new enabled

variable [BEq F] [Zero F]

def step (op : CollectionOp F) (c : Collections F) : Collections F :=
  match op with
  | .breakpoint op => { c with breakpoints := (Breakpoints.apply op c.breakpoints).2 }
  | .watchpoint op => { c with watchpoints := (Watchpoints.apply op c.watchpoints).2 }
  | .script op => { c with scripts := (Scripts.apply op c.scripts).2 }

/-- The operation is rejected, or targets what is not there. -/
def Idle (op : CollectionOp F) (c : Collections F) : Prop :=
  match op with
  | .breakpoint op => Breakpoints.Idle op c.breakpoints
  | .watchpoint op => Watchpoints.Idle op c.watchpoints
  | .script op => Scripts.Idle op c.scripts

/-- What a client relies on when it compares counts. -/
def Lawful (op : CollectionOp F) (c : Collections F) : Prop :=
  Revised c (step op c) ∧ (Idle op c → Untouched c (step op c))

theorem sound_step (op : CollectionOp F) {c : Collections F} (hc : c.Sound) : (step op c).Sound := by
  cases op with
  | breakpoint op => exact ⟨hc.watchpoints, hc.scripts⟩
  | watchpoint op => exact ⟨Watchpoints.keyed_apply op hc.watchpoints, hc.scripts⟩
  | script op => exact ⟨hc.watchpoints, Scripts.sound_apply op hc.scripts⟩

theorem lawful_iff_converts (op : CollectionOp F) {c : Collections F} (hc : c.Sound) :
    Lawful op c ↔ op.Converts := by
  cases op with
  | breakpoint op =>
      constructor
      · intro hlawful
        by_contra hop
        obtain ⟨hidle, htouched⟩ := Breakpoints.touched_of_not_converts hop c.breakpoints
        exact htouched (hlawful.2 hidle).1
      · intro hop
        have haccounted := Breakpoints.apply_accounted hop c.breakpoints
        exact ⟨⟨haccounted.revised (by decide), (Untouched.refl _).revised, (Untouched.refl _).revised⟩,
          fun hidle => ⟨haccounted.untouched hidle, .refl _, .refl _⟩⟩
  | watchpoint op =>
      constructor
      · intro hlawful
        by_contra hop
        obtain ⟨hidle, htouched⟩ := Watchpoints.touched_of_not_converts hop c.watchpoints
        exact htouched (hlawful.2 hidle).2.1
      · intro hop
        have haccounted := Watchpoints.apply_accounted hop hc.watchpoints
        exact ⟨⟨(Untouched.refl _).revised, haccounted.revised (by decide), (Untouched.refl _).revised⟩,
          fun hidle => ⟨.refl _, haccounted.untouched hidle, .refl _⟩⟩
  | script op =>
      have haccounted := Scripts.apply_accounted op hc.scripts
      exact ⟨fun _ => trivial, fun _ =>
        ⟨⟨(Untouched.refl _).revised, (Untouched.refl _).revised, haccounted.revised (by decide)⟩,
          fun hidle => ⟨.refl _, .refl _, haccounted.untouched hidle⟩⟩⟩

/-- In every run each operation keeps the counts lawful, but for an `Add` of JSON that
cannot be converted. -/
theorem revision_lawful_iff (enabled : Bool) (input : Nat → CollectionOp F) (n : Nat) :
    Lawful (input n) (Runs.after step input (new enabled) n) ↔ (input n).Converts := by
  apply lawful_iff_converts
  exact Runs.after_invariant Sound (sound_new enabled) (fun k hk => sound_step (input k) hk) n

def unreadable : BreakpointFields :=
  ⟨none, some 1, some 1, some false, some "A", some "=ANY", some "0", some none, some ""⟩

/-- The first operation of a run throws and is counted. -/
theorem unreadable_counted :
    ¬ Lawful (.breakpoint (.addJson unreadable)) (new true : Collections Int) := by
  rintro ⟨-, huntouched⟩
  obtain ⟨-, hupdates⟩ := (huntouched (.inl rfl)).1
  exact absurd hupdates (by decide)

end Collections

end V6Emul
