import V6Emul.Foundation.Tables
import V6Emul.Memory

/-!
# Lua scripts and their overlays

The collection of scripts with the overlays that they have drawn.  Lua and the file
system are outside: what they answer (the source file, the error of loading it, the
draw calls of a run and how it ends) is an argument of the operation that asks.
Coordinates are of any type with an equality test, which need not be reflexive.
-/

namespace V6Emul

abbrev Id := Int

/-- `std::numeric_limits<Id>::max()` -/
def idMax : Id := 2147483647

/-! ## Scripts -/

inductive ScriptCompilationStatus where
  | compiled
  | error
  deriving DecidableEq, Repr

inductive ScriptRuntimeStatus where
  | neverRun
  | succeeded
  | error
  deriving DecidableEq, Repr

structure Script where
  scriptId : Id
  name : String
  path : String
  active : Bool
  compilationStatus : ScriptCompilationStatus
  compilationError : String
  runtimeStatus : ScriptRuntimeStatus
  runtimeError : String
  -- `ref`, whether there is a function in the Lua registry
  ref : Bool
  deriving DecidableEq

structure ScriptInput where
  name : String
  path : String
  active : Bool

structure StatusJson where
  status : String
  error : Option String
  deriving DecidableEq

structure ScriptJson where
  scriptId : Id
  name : String
  path : String
  active : Bool
  compilation : StatusJson
  runtime : StatusJson
  deriving DecidableEq

namespace Script

def new (scriptId : Id) (input : ScriptInput) : Script where
  scriptId := scriptId
  name := input.name
  path := input.path
  active := input.active
  compilationStatus := .error
  compilationError := ""
  runtimeStatus := .neverRun
  runtimeError := ""
  ref := false

def compilationToJson (s : Script) : StatusJson :=
  match s.compilationStatus with
  | .compiled => ⟨"compiled", none⟩
  | .error => ⟨"error", some s.compilationError⟩

def runtimeToJson (s : Script) : StatusJson :=
  match s.runtimeStatus with
  | .neverRun => ⟨"never_run", none⟩
  | .succeeded => ⟨"succeeded", none⟩
  | .error => ⟨"error", some s.runtimeError⟩

def toJson (s : Script) : ScriptJson where
  scriptId := s.scriptId
  name := s.name
  path := s.path
  active := s.active
  compilation := s.compilationToJson
  runtime := s.runtimeToJson

end Script

/-! ## Sources -/

def maxSourceBytes : Nat := 1024 * 1024

def utf8First (first : Byte) : Option (Nat × BitVec 32) :=
  if first.toNat ≤ 0x7F then some (0, first.zeroExtend 32)
  else if first &&& 0xE0 = 0xC0 then some (1, (first &&& 0x1F).zeroExtend 32)
  else if first &&& 0xF0 = 0xE0 then some (2, (first &&& 0x0F).zeroExtend 32)
  else if first &&& 0xF8 = 0xF0 then some (3, (first &&& 0x07).zeroExtend 32)
  else none

def utf8Next (codepoint : BitVec 32) : List Byte → Option (BitVec 32)
  | [] => some codepoint
  | next :: rest =>
      if next &&& 0xC0 ≠ 0x80 then none
      else utf8Next ((codepoint <<< 6) ||| (next &&& 0x3F).zeroExtend 32) rest

def isValidUtf8 (value : List Byte) : Bool :=
  match value with
  | [] => true
  | first :: rest =>
      match utf8First first with
      | none => false
      | some (count, codepoint) =>
          if rest.length < count then false
          else
            match utf8Next codepoint (rest.take count) with
            | none => false
            | some codepoint =>
                let c := codepoint.toNat
                if (count = 1 ∧ c < 0x80) ∨ (count = 2 ∧ c < 0x800) ∨ (count = 3 ∧ c < 0x10000) ∨
                    0x10FFFF < c ∨ (0xD800 ≤ c ∧ c ≤ 0xDFFF) then false
                else isValidUtf8 (rest.drop count)
termination_by value.length
decreasing_by
  rw [List.length_cons, List.length_drop]
  exact Nat.lt_succ_of_le (Nat.sub_le _ _)

/-- What the file system answers about a path: no size for an error code, no content
for a failed read. -/
structure SourceFile where
  isRegularFile : Bool
  fileSize : Option Nat
  opens : Bool
  content : Option (List Byte)

def SourceFile.error (f : SourceFile) : Option String :=
  if !f.isRegularFile then some "Script source is missing, unreadable, or not a regular file"
  else
    match f.fileSize with
    | none => some "Script source size cannot be read"
    | some size =>
        if maxSourceBytes < size then some "Script source exceeds maxSourceBytes"
        else if !f.opens then some "Script source cannot be read"
        else
          match f.content with
          | none => some "Script source must be valid UTF-8 without NUL bytes"
          | some content =>
              if content.contains 0 || !isValidUtf8 content then
                some "Script source must be valid UTF-8 without NUL bytes"
              else none

/-- `CompileScript`; `load` is the error of loading the source into Lua. -/
def Script.compile (s : Script) (source : SourceFile) (load : Option String) : Script :=
  match source.error.or load with
  | some error =>
      { s with
        ref := false
        runtimeStatus := .neverRun
        runtimeError := ""
        compilationStatus := .error
        compilationError := error }
  | none =>
      { s with
        ref := true
        runtimeStatus := .neverRun
        runtimeError := ""
        compilationStatus := .compiled
        compilationError := "" }

def Script.Callable (script : Script) : Prop :=
  script.compilationStatus = .compiled → script.ref = true

/-! ## Overlays -/

inductive OverlayType where
  | text
  | rect
  deriving DecidableEq, Repr

structure OverlayItem (F : Type) where
  type : OverlayType
  x : F
  y : F
  width : F
  height : F
  text : String
  color : BitVec 32
  vectorScreenCoords : Bool
  filled : Bool
  updated : Bool

inductive OverlayJson (F : Type) where
  | text (x y : F) (color : BitVec 32) (vectorScreenCoords : Bool) (text : String)
  | rect (x y : F) (color : BitVec 32) (vectorScreenCoords : Bool) (width height : F) (filled : Bool)

namespace OverlayItem

variable {F : Type}

def toJson (item : OverlayItem F) : OverlayJson F :=
  match item.type with
  | .text => .text item.x item.y item.color item.vectorScreenCoords item.text
  | .rect => .rect item.x item.y item.color item.vectorScreenCoords item.width item.height item.filled

def changed [BEq F] (existing item : OverlayItem F) : Bool :=
  existing.type != item.type || existing.x != item.x || existing.y != item.y ||
    existing.width != item.width || existing.height != item.height || existing.text != item.text ||
    existing.color != item.color || existing.vectorScreenCoords != item.vectorScreenCoords ||
    existing.filled != item.filled

end OverlayItem

inductive Draw (F : Type) where
  | text (id : Id) (text : String) (x y : F) (color : BitVec 32) (vectorScreenCoords : Bool)
  | rect (id : Id) (x y width height : F) (filled : Bool) (color : BitVec 32)
      (vectorScreenCoords : Bool)

namespace Draw

variable {F : Type}

def id : Draw F → Id
  | .text id .. => id
  | .rect id .. => id

def item [Zero F] : Draw F → OverlayItem F
  | .text _ content x y color vectorScreenCoords =>
      ⟨.text, x, y, 0, 0, content, color, vectorScreenCoords, false, true⟩
  | .rect _ x y width height filled color vectorScreenCoords =>
      ⟨.rect, x, y, width, height, "", color, vectorScreenCoords, filled, true⟩

end Draw

structure LuaRun (F : Type) where
  draws : List (Draw F)
  error : Option String
  calledBreak : Bool

/-! ## The collection -/

def maxRecords : Nat := 256
def maxOverlaysPerScript : Nat := 256
def maxOverlaysTotal : Nat := 1024

structure RunResult where
  succeeded : Bool
  breakRequested : Bool

inductive ScriptsError where
  | unavailable
  | capacity
  | idExhausted
  | missingField
  | notFound (scriptId : Id)
  | notCompiled (scriptId : Id)
  deriving DecidableEq

structure Scripts (F : Type) where
  scripts : Table Id Script
  updates : BitVec 32
  nextScriptId : Id
  idsExhausted : Bool
  enabled : Bool
  break_ : Bool
  currentScriptId : Id
  breakScriptId : Id
  overlays : Table Id (Table Id (OverlayItem F))

/-- The state in which a call ends, and what it throws, if it throws. -/
abbrev Outcome (E S : Type) : Type := Option E × S

namespace Scripts

variable {F : Type} [BEq F] [Zero F]

def new (enabled : Bool) : Scripts F where
  scripts := ∅
  updates := 0
  nextScriptId := 0
  idsExhausted := false
  enabled := enabled
  break_ := false
  currentScriptId := -1
  breakScriptId := -1
  overlays := ∅

/-! ### Drawing -/

def overlayTotal (s : Scripts F) : Nat := Table.weight Table.size s.overlays

def storeOverlay (s : Scripts F) (itemId : Id) (item : OverlayItem F) :
    Outcome String (Scripts F) :=
  if s.currentScriptId < 0 then (none, s)
  else
    let scriptOverlays := (s.overlays.lookup s.currentScriptId).getD ∅
    let store (s : Scripts F) (item : OverlayItem F) : Scripts F :=
      { s with
        overlays := s.overlays.insert s.currentScriptId (scriptOverlays.insert itemId item) }
    let s := { s with overlays := s.overlays.insert s.currentScriptId scriptOverlays }
    match scriptOverlays.lookup itemId with
    | none =>
        if maxOverlaysPerScript ≤ Table.size scriptOverlays then
          (some "Overlay limit per script exceeded", s)
        else if maxOverlaysTotal ≤ s.overlayTotal then (some "Overlay total limit exceeded", s)
        else (none, store s item)
    | some existing =>
        if existing.changed item then (none, store s { item with updated := true }) else (none, s)

def drawAll (s : Scripts F) (draws : List (Draw F)) : Scripts F :=
  draws.foldl (fun s draw => (s.storeOverlay draw.id draw.item).2) s

def changedItems (scriptId : Id) (items : Table Id (OverlayItem F)) :
    List (Id × Id × OverlayJson F) :=
  let itemIds := ((items.entries.filter fun e => e.2.updated).map Sigma.fst).mergeSort (· ≤ ·)
  itemIds.filterMap fun itemId =>
    (items.lookup itemId).map fun item => (scriptId, itemId, item.toJson)

def getOverlayUpdates (s : Scripts F) : List (Id × Id × OverlayJson F) × Scripts F :=
  let scriptIds := s.overlays.keys.mergeSort (· ≤ ·)
  (scriptIds.flatMap fun scriptId =>
      changedItems scriptId ((s.overlays.lookup scriptId).getD ∅),
    { s with
      overlays := Table.mapValues
        (fun _ => Table.mapValues fun _ item => { item with updated := false }) s.overlays })

def markAllOverlaysUpdated (s : Scripts F) : Scripts F :=
  { s with
    overlays := Table.mapValues
      (fun _ => Table.mapValues fun _ item => { item with updated := true }) s.overlays }

def removeOverlays (s : Scripts F) (scriptId : Id) : Scripts F :=
  { s with overlays := s.overlays.erase scriptId }

def clearOverlays (s : Scripts F) : Scripts F := { s with overlays := ∅ }

/-! ### Records -/

def setScript (s : Scripts F) (scriptId : Id) (script : Script) : Scripts F :=
  { s with scripts := s.scripts.insert scriptId script }

def countUpdate (s : Scripts F) : Scripts F := { s with updates := s.updates + 1 }

/-- `Add`; `input` is missing where a field of the request is. -/
def add (s : Scripts F) (input : Option ScriptInput) (source : SourceFile) (load : Option String) :
    Outcome ScriptsError (Scripts F) :=
  if !s.enabled then (some .unavailable, s)
  else if maxRecords ≤ Table.size s.scripts then (some .capacity, s)
  else if s.idsExhausted then (some .idExhausted, s)
  else
    let scriptId := s.nextScriptId
    let s :=
      if s.nextScriptId = idMax then { s with idsExhausted := true }
      else { s with nextScriptId := s.nextScriptId + 1 }
    match input with
    | none => (some .missingField, s)
    | some input =>
        (none, (s.setScript scriptId ((Script.new scriptId input).compile source load)).countUpdate)

def edit (s : Scripts F) (scriptId : Id) (input : Option ScriptInput) (source : SourceFile)
    (load : Option String) : Outcome ScriptsError (Scripts F) :=
  match s.scripts.lookup scriptId, input with
  | none, _ => (some (.notFound scriptId), s)
  | some _, none => (some .missingField, s)
  | some script, some input =>
      if script.name = input.name ∧ script.path = input.path ∧ script.active = input.active then
        (none, if !input.active then s.removeOverlays scriptId else s)
      else
        let edited := { script with name := input.name, path := input.path, active := input.active }
        let edited := if script.path ≠ input.path then edited.compile source load else edited
        let s := s.setScript scriptId edited
        let s := if !input.active then s.removeOverlays scriptId else s
        (none, s.countUpdate)

def compile (s : Scripts F) (scriptId : Id) (source : SourceFile) (load : Option String) :
    Outcome ScriptsError (Scripts F) :=
  match s.scripts.lookup scriptId with
  | none => (some (.notFound scriptId), s)
  | some script => (none, (s.setScript scriptId (script.compile source load)).countUpdate)

/-! ### Running -/

def afterRun (script : Script) (run : LuaRun F) : Script :=
  match run.error with
  | none => { script with runtimeStatus := .succeeded, runtimeError := "" }
  | some error => { script with runtimeStatus := .error, runtimeError := error }

def runScript (s : Scripts F) (key : Id) (script : Script) (run : LuaRun F) :
    Except ScriptsError RunResult × Scripts F :=
  if script.compilationStatus ≠ .compiled ∨ script.ref = false then
    (.error (.notCompiled script.scriptId), s)
  else
    let s := { s with break_ := false, currentScriptId := script.scriptId }
    let s := s.drawAll run.draws
    let s := { s with break_ := run.calledBreak, currentScriptId := -1 }
    let ran := afterRun script run
    let s := s.setScript key ran
    let s := if s.break_ then { s with breakScriptId := script.scriptId } else s
    let s :=
      if script.runtimeStatus ≠ ran.runtimeStatus ∨ script.runtimeError ≠ ran.runtimeError then
        s.countUpdate
      else s
    (.ok ⟨run.error.isNone, s.break_⟩, s)

def runOnce (s : Scripts F) (scriptId : Id) (run : LuaRun F) :
    Except ScriptsError RunResult × Scripts F :=
  match s.scripts.lookup scriptId with
  | none => (.error (.notFound scriptId), s)
  | some script => s.runScript scriptId script run

def scheduled (script : Script) : Bool :=
  script.active && script.compilationStatus == .compiled && script.runtimeStatus != .error

/-- The loop of `Check`; an unordered map may be visited in any order. -/
def checkLoop (s : Scripts F) (runs : Id → LuaRun F) : List Id → Bool × Scripts F
  | [] => (false, s)
  | scriptId :: order =>
      match s.scripts.lookup scriptId with
      | none => s.checkLoop runs order
      | some script =>
          if scheduled script then
            match s.runScript scriptId script (runs scriptId) with
            | (.error _, s) => (false, s)
            | (.ok result, s) =>
                let rest := s.checkLoop runs order
                (result.breakRequested || rest.1, rest.2)
          else s.checkLoop runs order

def check (s : Scripts F) (order : List Id) (runs : Id → LuaRun F) : Bool × Scripts F :=
  if s.enabled then s.checkLoop runs order else (false, s)

/-! ### Removing -/

def disable (s : Scripts F) (scriptId : Id) : Outcome ScriptsError (Scripts F) :=
  match s.scripts.lookup scriptId with
  | none => (some (.notFound scriptId), s)
  | some script =>
      let s := s.removeOverlays scriptId
      (none,
        if script.active then (s.setScript scriptId { script with active := false }).countUpdate
        else s)

def disableAll (s : Scripts F) : Nat × Scripts F :=
  let disabled := (s.scripts.entries.filter fun e => e.2.active).length
  let t :=
    { s with
      scripts := Table.mapValues (fun _ script => { script with active := false }) s.scripts
      overlays := s.scripts.keys.foldl (fun overlays scriptId => overlays.erase scriptId) s.overlays }
  (disabled, if 0 < disabled then t.countUpdate else t)

def del (s : Scripts F) (scriptId : Id) : Scripts F :=
  match s.scripts.lookup scriptId with
  | none => s
  | some _ =>
      ({ s.removeOverlays scriptId with scripts := s.scripts.erase scriptId }).countUpdate

def clear (s : Scripts F) : Scripts F :=
  if s.scripts.entries.isEmpty then s
  else ({ s with scripts := ∅ }.clearOverlays).countUpdate

/-! ### Snapshots -/

def getAll (s : Scripts F) : List ScriptJson :=
  ((s.scripts.entries.map Sigma.snd).mergeSort fun a b => a.scriptId ≤ b.scriptId).map Script.toJson

/-! ### What a request does -/

theorem compile_scriptId (script : Script) (source : SourceFile) (load : Option String) :
    (script.compile source load).scriptId = script.scriptId := by
  rw [Script.compile]
  split <;> rfl

theorem compile_callable (script : Script) (source : SourceFile) (load : Option String) :
    (script.compile source load).Callable := by
  rw [Script.compile]
  split
  · intro hcompiled
    cases hcompiled
  · exact fun _ => rfl

omit [BEq F] [Zero F] in
theorem add_cases (s : Scripts F) (input : Option ScriptInput) (source : SourceFile)
    (load : Option String) :
    (∃ error t, s.add input source load = (some error, t) ∧ t.scripts = s.scripts ∧
        t.overlays = s.overlays ∧ t.updates = s.updates) ∨
      ∃ script t, script.scriptId = s.nextScriptId ∧ script.Callable ∧
        Table.size s.scripts < maxRecords ∧ s.add input source load = (none, t) ∧
        t.scripts = s.scripts.insert s.nextScriptId script ∧ t.overlays = s.overlays ∧
        t.updates = s.updates + 1 := by
  rw [add]
  split
  · exact .inl ⟨_, _, rfl, rfl, rfl, rfl⟩
  · split
    · exact .inl ⟨_, _, rfl, rfl, rfl, rfl⟩
    · rename_i hroom
      split
      · exact .inl ⟨_, _, rfl, rfl, rfl, rfl⟩
      · cases input with
        | none =>
            refine .inl ⟨_, _, rfl, ?_⟩
            split_ifs <;> exact ⟨rfl, rfl, rfl⟩
        | some fields =>
            refine .inr ⟨(Script.new s.nextScriptId fields).compile source load, _,
              compile_scriptId _ source load, compile_callable _ source load,
              Nat.lt_of_not_le hroom, rfl, ?_⟩
            split_ifs <;> exact ⟨rfl, rfl, rfl⟩

omit [BEq F] [Zero F] in
theorem edit_cases (s : Scripts F) (scriptId : Id) (input : Option ScriptInput)
    (source : SourceFile) (load : Option String) :
    (∃ error, s.edit scriptId input source load = (some error, s)) ∨
      ∃ script fields t, s.scripts.lookup scriptId = some script ∧ input = some fields ∧
        s.edit scriptId input source load = (none, t) ∧
        t.overlays = (if fields.active then s.overlays else s.overlays.erase scriptId) ∧
        ((t.scripts = s.scripts ∧ t.updates = s.updates) ∨
          ∃ edited : Script, edited.scriptId = script.scriptId ∧
            (script.Callable → edited.Callable) ∧
              t.scripts = s.scripts.insert scriptId edited ∧ t.updates = s.updates + 1) := by
  cases hscript : s.scripts.lookup scriptId with
  | none => exact .inl ⟨.notFound scriptId, by simp only [edit, hscript]⟩
  | some script =>
      cases input with
      | none => exact .inl ⟨.missingField, by simp only [edit, hscript]⟩
      | some fields =>
          right
          refine ⟨script, fields, (s.edit scriptId (some fields) source load).2, rfl, rfl, ?_⟩
          simp only [edit, hscript]
          split
          · refine ⟨rfl, ?_, .inl ?_⟩
            · cases fields.active <;> rfl
            · cases fields.active <;> exact ⟨rfl, rfl⟩
          · refine ⟨rfl, ?_, .inr ?_⟩
            · cases fields.active <;> rfl
            · refine ⟨if script.path ≠ fields.path then
                  { script with
                    name := fields.name, path := fields.path, active := fields.active
                  : Script }.compile source load
                else { script with
                    name := fields.name, path := fields.path, active := fields.active }, ?_, ?_, ?_⟩
              · split
                · exact compile_scriptId _ source load
                · rfl
              · intro hcallable
                split
                · exact compile_callable _ source load
                · exact hcallable
              · split_ifs <;> exact ⟨rfl, rfl⟩

end Scripts

end V6Emul
