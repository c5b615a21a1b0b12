import V6Emul.Debugger.Overlays
import V6Emul.Foundation.Runs

/-!
# Polling the overlays

The server sends an overlay when it has changed since it was last sent, and never
says that one is gone: overlays go only when a script is disabled or deleted, which
the client itself asks for.  So an item that is not marked as changed is one the
client holds, and the client holds nothing that the server does not retain.
-/

namespace V6Emul

namespace Scripts

variable {F : Type}

/-! ## The response to a poll -/

theorem mem_changedItems {scriptId : Id} {items : Table Id (OverlayItem F)} {a b : Id}
    {view : OverlayJson F} : (a, b, view) ∈ changedItems scriptId items ↔
      a = scriptId ∧ ∃ item, items.lookup b = some item ∧ item.updated = true ∧ item.toJson = view := by
  simp only [changedItems, List.mem_filterMap, List.mem_mergeSort, List.mem_map, List.mem_filter,
    Option.map_eq_some_iff, Prod.mk.injEq]
  constructor
  · rintro ⟨itemId, ⟨e, ⟨he, hupdated⟩, rfl⟩, item, hitem, rfl, rfl, rfl⟩
    have hsame : items.lookup e.1 = some e.2 := AList.mem_lookup_iff.mpr he
    rw [hsame, Option.some_inj] at hitem
    exact ⟨rfl, e.2, hsame, hupdated, hitem ▸ rfl⟩
  · rintro ⟨rfl, item, hitem, hupdated, rfl⟩
    exact ⟨b, ⟨⟨b, item⟩, ⟨AList.mem_lookup_iff.mp hitem, hupdated⟩, rfl⟩, item, hitem, rfl, rfl, rfl⟩

theorem mem_getOverlayUpdates {s : Scripts F} {a b : Id} {view : OverlayJson F} :
    (a, b, view) ∈ s.getOverlayUpdates.1 ↔
      ∃ item, s.retained a b = some item ∧ item.updated = true ∧ item.toJson = view := by
  simp only [getOverlayUpdates, List.mem_flatMap, List.mem_mergeSort, mem_changedItems]
  constructor
  · rintro ⟨scriptId, -, rfl, item, hitem, hupdated, hview⟩
    rw [retained_current] at hitem
    exact ⟨item, hitem, hupdated, hview⟩
  · rintro ⟨item, hitem, hupdated, hview⟩
    have hkey : a ∈ s.overlays.keys := by
      rw [retained, Option.bind_eq_some_iff] at hitem
      obtain ⟨items, hitems, -⟩ := hitem
      exact AList.mem_keys.mp (Table.mem_of_lookup hitems)
    rw [← retained_current] at hitem
    exact ⟨a, hkey, rfl, item, hitem, hupdated, hview⟩

theorem retained_mapItems (s : Scripts F) (f : OverlayItem F → OverlayItem F) (a b : Id) :
    ({ s with overlays := Table.mapValues (fun _ => Table.mapValues fun _ => f) s.overlays } :
      Scripts F).retained a b = (s.retained a b).map f := by
  simp only [retained, Table.lookup_mapValues]
  cases s.overlays.lookup a with
  | none => rfl
  | some items => exact Table.lookup_mapValues _ items b

theorem Limited.mapItems {s : Scripts F} (h : s.Limited) (f : OverlayItem F → OverlayItem F) :
    ({ s with overlays := Table.mapValues (fun _ => Table.mapValues fun _ => f) s.overlays } :
      Scripts F).Limited where
  keyed := h.keyed
  owned := fun a ha => h.owned a (Table.mem_mapValues.mp ha)
  perScript := by
    intro a items hitems
    dsimp only at hitems
    rw [Table.lookup_mapValues, Option.map_eq_some_iff] at hitems
    obtain ⟨before, hbefore, rfl⟩ := hitems
    rw [Table.size_mapValues]
    exact h.perScript a before hbefore
  total := by
    have hweight : Table.weight Table.size
        (Table.mapValues (fun _ => Table.mapValues fun _ => f) s.overlays) =
          Table.weight Table.size s.overlays :=
      Table.weight_mapValues fun _ => Table.size_mapValues _
    rw [overlayTotal, hweight]
    exact h.total

/-! ## Removing -/

theorem retained_removeOverlays (s : Scripts F) (scriptId a b : Id) :
    (s.removeOverlays scriptId).retained a b = if a = scriptId then none else s.retained a b := by
  split
  · rename_i ha
    rw [retained, removeOverlays, ha, AList.lookup_erase, Option.bind_none]
  · rename_i ha
    rw [retained, retained, removeOverlays, AList.lookup_erase_ne ha]

theorem Limited.removeOverlays {s : Scripts F} (h : s.Limited) (scriptId : Id) :
    (s.removeOverlays scriptId).Limited where
  keyed := h.keyed
  owned := fun a ha => h.owned a ((AList.mem_erase).mp ha).2
  perScript := by
    intro a items hitems
    by_cases ha : a = scriptId
    · rw [Scripts.removeOverlays, ha, AList.lookup_erase] at hitems
      cases hitems
    · rw [Scripts.removeOverlays, AList.lookup_erase_ne ha] at hitems
      exact h.perScript a items hitems
  total := (Table.weight_erase_le _ _ _).trans h.total

theorem overlays_disableAll {s : Scripts F} (h : s.Limited) :
    s.scripts.keys.foldl (fun overlays scriptId => overlays.erase scriptId) s.overlays = ∅ := by
  apply Table.eq_empty_of_lookup
  intro a
  rw [Table.lookup_foldl_erase]
  split
  · rfl
  · rename_i ha
    exact AList.lookup_eq_none.mpr fun hmem => ha (AList.mem_keys.mp (h.owned a hmem))

theorem limited_of_empty {s : Scripts F}
    (keyed : ∀ scriptId script, s.scripts.lookup scriptId = some script → script.scriptId = scriptId)
    (hempty : s.overlays = ∅) : s.Limited where
  keyed := keyed
  owned := by
    intro a ha
    rw [hempty] at ha
    exact absurd ha (AList.notMem_empty a)
  perScript := by
    intro a items hitems
    rw [hempty, AList.lookup_empty] at hitems
    cases hitems
  total := by
    rw [overlayTotal, hempty]
    exact Nat.zero_le _

theorem Limited.countUpdate {s : Scripts F} (h : s.Limited) : s.countUpdate.Limited :=
  ⟨h.keyed, h.owned, h.perScript, h.total⟩

end Scripts

/-! ## A polling client -/

/-- The requests that reach the collection, scheduled runs, and the start of a session. -/
inductive OverlayEvent (F : Type) where
  | add (input : Option ScriptInput) (source : SourceFile) (load : Option String)
  | edit (scriptId : Id) (input : Option ScriptInput) (source : SourceFile) (load : Option String)
  | compile (scriptId : Id) (source : SourceFile) (load : Option String)
  | runOnce (scriptId : Id) (run : LuaRun F)
  | check (order : List Id) (runs : Id → LuaRun F)
  | disable (scriptId : Id)
  | disableAll
  | del (scriptId : Id)
  | clear
  | beginSession
  | poll

abbrev OverlayClient (F : Type) : Type := Id → Id → Option (OverlayJson F)

namespace OverlayClient

variable {F : Type}

def empty : OverlayClient F := fun _ _ => none

def drop (client : OverlayClient F) (scriptId : Id) : OverlayClient F := fun a b =>
  if a = scriptId then none else client a b

def apply (client : OverlayClient F) (entry : Id × Id × OverlayJson F) : OverlayClient F := fun a b =>
  if a = entry.1 ∧ b = entry.2.1 then some entry.2.2 else client a b

def applyAll (client : OverlayClient F) (entries : List (Id × Id × OverlayJson F)) :
    OverlayClient F :=
  entries.foldl apply client

theorem applyAll_of_notMem {entries : List (Id × Id × OverlayJson F)} {a b : Id}
    (h : ∀ view, (a, b, view) ∉ entries) (client : OverlayClient F) :
    client.applyAll entries a b = client a b := by
  induction entries generalizing client with
  | nil => rfl
  | cons entry entries ih =>
      have hrest := ih (fun view hview => h view (List.mem_cons_of_mem entry hview))
      have hhead : ¬ (a = entry.1 ∧ b = entry.2.1) := by
        rintro ⟨rfl, rfl⟩
        exact h entry.2.2 List.mem_cons_self
      rw [applyAll, List.foldl_cons, ← applyAll, hrest, apply, if_neg hhead]

theorem applyAll_of_mem {entries : List (Id × Id × OverlayJson F)} {a b : Id} {view : OverlayJson F}
    (hmem : (a, b, view) ∈ entries) (hagree : ∀ other, (a, b, other) ∈ entries → other = view)
    (client : OverlayClient F) : client.applyAll entries a b = some view := by
  induction entries generalizing client with
  | nil => cases hmem
  | cons entry entries ih =>
      have hrest : ∀ other, (a, b, other) ∈ entries → other = view := fun other hother =>
        hagree other (List.mem_cons_of_mem entry hother)
      rw [applyAll, List.foldl_cons, ← applyAll]
      by_cases hlater : (a, b, view) ∈ entries
      · exact ih hlater hrest _
      · have hnone : ∀ other, (a, b, other) ∉ entries := fun other hother =>
          hlater (hrest other hother ▸ hother)
        have hhead : (a, b, view) = entry := (List.mem_cons.mp hmem).resolve_right hlater
        rw [applyAll_of_notMem hnone, ← hhead, apply, if_pos ⟨rfl, rfl⟩]

end OverlayClient

structure OverlayMirror (F : Type) where
  server : Scripts F
  client : OverlayClient F

namespace OverlayMirror

variable {F : Type}

def start (enabled : Bool) : OverlayMirror F := ⟨.new enabled, .empty⟩

/-- The client drops the overlays of a script when its request to disable or delete
the script is answered. -/
def step [BEq F] [Zero F] (event : OverlayEvent F) (m : OverlayMirror F) : OverlayMirror F :=
  match event with
  | .add input source load => { m with server := (m.server.add input source load).2 }
  | .edit scriptId input source load =>
      match m.server.edit scriptId input source load with
      | (some _, server) => { m with server := server }
      | (none, server) =>
          ⟨server,
            if input.any fun input => !input.active then m.client.drop scriptId else m.client⟩
  | .compile scriptId source load => { m with server := (m.server.compile scriptId source load).2 }
  | .runOnce scriptId run => { m with server := (m.server.runOnce scriptId run).2 }
  | .check order runs => { m with server := (m.server.check order runs).2 }
  | .disable scriptId =>
      match m.server.disable scriptId with
      | (some _, server) => { m with server := server }
      | (none, server) => ⟨server, m.client.drop scriptId⟩
  | .disableAll => ⟨m.server.disableAll.2, .empty⟩
  | .del scriptId => ⟨m.server.del scriptId, m.client.drop scriptId⟩
  | .clear => ⟨m.server.clear, .empty⟩
  | .beginSession => ⟨m.server.markAllOverlaysUpdated, .empty⟩
  | .poll =>
      let (overlays, server) := m.server.getOverlayUpdates
      ⟨server, m.client.applyAll overlays⟩

structure Consistent (m : OverlayMirror F) : Prop where
  limited : m.server.Limited
  sent : ∀ a b item, m.server.retained a b = some item → item.updated = false →
    m.client a b = some item.toJson
  dropped : ∀ a b, m.server.retained a b = none → m.client a b = none

/-- Every retained overlay is held as it is. -/
def Exact (m : OverlayMirror F) : Prop :=
  ∀ a b, m.client a b = (m.server.retained a b).map OverlayItem.toJson

theorem consistent_start (enabled : Bool) : (start enabled : OverlayMirror F).Consistent where
  limited := Scripts.limited_new enabled
  sent := fun a b item hitem => by
    rw [Scripts.retained, start, Scripts.new, AList.lookup_empty] at hitem
    cases hitem
  dropped := fun _ _ _ => rfl

theorem Consistent.keeps {m : OverlayMirror F} (h : m.Consistent) {server : Scripts F}
    (hkeeps : m.server.RunKeeps server) : Consistent { m with server := server } where
  limited := hkeeps.limited h.limited
  sent := by
    intro a b item hitem hupdated
    rcases hkeeps.redraws a b with hsame | ⟨marked, hmarked, hmark⟩
    · exact h.sent a b item (hsame ▸ hitem) hupdated
    · rw [hmarked, Option.some_inj] at hitem
      rw [hitem, hupdated] at hmark
      cases hmark
  dropped := by
    intro a b hnone
    rcases hkeeps.redraws a b with hsame | ⟨marked, hmarked, -⟩
    · exact h.dropped a b (hsame ▸ hnone)
    · rw [hmarked] at hnone
      cases hnone

theorem Consistent.removed {m : OverlayMirror F} (h : m.Consistent) (scriptId : Id)
    {server : Scripts F} (hlimited : server.Limited)
    (hoverlays : server.overlays = m.server.overlays.erase scriptId) :
    Consistent ⟨server, m.client.drop scriptId⟩ := by
  have hretained : ∀ a b, server.retained a b =
      if a = scriptId then none else m.server.retained a b := by
    intro a b
    rw [← Scripts.retained_removeOverlays, Scripts.retained, hoverlays]
    rfl
  refine ⟨hlimited, ?_, ?_⟩
  · intro a b item hitem hupdated
    dsimp only at hitem
    rw [hretained] at hitem
    by_cases ha : a = scriptId
    · rw [if_pos ha] at hitem
      cases hitem
    · rw [if_neg ha] at hitem
      dsimp only [OverlayClient.drop]
      rw [if_neg ha]
      exact h.sent a b item hitem hupdated
  · intro a b hnone
    dsimp only at hnone
    rw [hretained] at hnone
    dsimp only [OverlayClient.drop]
    split
    · rfl
    · rename_i ha
      rw [if_neg ha] at hnone
      exact h.dropped a b hnone

theorem consistent_of_empty {server : Scripts F}
    (keyed : ∀ scriptId script, server.scripts.lookup scriptId = some script →
      script.scriptId = scriptId)
    (hempty : server.overlays = ∅) : Consistent ⟨server, .empty⟩ where
  limited := Scripts.limited_of_empty keyed hempty
  sent := by
    intro a b item hitem
    dsimp only at hitem
    rw [Scripts.retained, hempty, AList.lookup_empty] at hitem
    cases hitem
  dropped := fun _ _ _ => rfl

theorem consistent_beginSession {m : OverlayMirror F} (h : m.Consistent) :
    Consistent ⟨m.server.markAllOverlaysUpdated, .empty⟩ where
  limited := h.limited.mapItems _
  sent := by
    intro a b item hitem hupdated
    dsimp only at hitem
    rw [Scripts.markAllOverlaysUpdated, Scripts.retained_mapItems, Option.map_eq_some_iff] at hitem
    obtain ⟨before, -, rfl⟩ := hitem
    cases hupdated
  dropped := fun _ _ _ => rfl

theorem exact_poll [BEq F] [Zero F] {m : OverlayMirror F} (h : m.Consistent) :
    (step .poll m).Exact := by
  intro a b
  have hserver : (step .poll m).server.retained a b =
      (m.server.retained a b).map fun item => { item with updated := false } :=
    Scripts.retained_mapItems m.server _ a b
  rw [hserver, Option.map_map]
  cases hitem : m.server.retained a b with
  | none =>
      have hnotMem : ∀ view, (a, b, view) ∉ m.server.getOverlayUpdates.1 := by
        intro view hview
        obtain ⟨item, hsome, -⟩ := Scripts.mem_getOverlayUpdates.mp hview
        rw [hitem] at hsome
        cases hsome
      exact (OverlayClient.applyAll_of_notMem hnotMem m.client).trans (h.dropped a b hitem)
  | some item =>
      cases hupdated : item.updated with
      | false =>
          have hnotMem : ∀ view, (a, b, view) ∉ m.server.getOverlayUpdates.1 := by
            intro view hview
            obtain ⟨other, hother, hmark, -⟩ := Scripts.mem_getOverlayUpdates.mp hview
            rw [hitem, Option.some_inj] at hother
            rw [← hother, hupdated] at hmark
            cases hmark
          exact (OverlayClient.applyAll_of_notMem hnotMem m.client).trans
            (h.sent a b item hitem hupdated)
      | true =>
          have hmem : (a, b, item.toJson) ∈ m.server.getOverlayUpdates.1 :=
            Scripts.mem_getOverlayUpdates.mpr ⟨item, hitem, hupdated, rfl⟩
          apply OverlayClient.applyAll_of_mem hmem
          intro view hview
          obtain ⟨other, hother, -, hview⟩ := Scripts.mem_getOverlayUpdates.mp hview
          rw [hitem, Option.some_inj] at hother
          rw [← hview, hother]

variable [BEq F] [Zero F]

omit [BEq F] [Zero F] in
theorem Consistent.setScript {m : OverlayMirror F} (h : m.Consistent) {scriptId : Id}
    {script : Script} (hkey : script.scriptId = scriptId) {server : Scripts F}
    (hscripts : server.scripts = m.server.scripts.insert scriptId script)
    (hoverlays : server.overlays = m.server.overlays) : Consistent { m with server := server } :=
  h.keeps ⟨Scripts.redraws_of_overlays hoverlays,
    fun hlimited => (hlimited.setScript hkey).congr hscripts hoverlays⟩

theorem consistent_add {m : OverlayMirror F} (h : m.Consistent) (input : Option ScriptInput)
    (source : SourceFile) (load : Option String) : (step (.add input source load) m).Consistent := by
  rcases m.server.add_cases input source load with
    ⟨error, server, hadd, hscripts, hoverlays, -⟩ |
      ⟨script, server, hkey, -, -, hadd, hscripts, hoverlays, -⟩
  · rw [step, hadd]
    exact h.keeps (.of_eq hscripts hoverlays)
  · rw [step, hadd]
    exact h.setScript hkey hscripts hoverlays

theorem consistent_edit {m : OverlayMirror F} (h : m.Consistent) (scriptId : Id)
    (input : Option ScriptInput) (source : SourceFile) (load : Option String) :
    (step (.edit scriptId input source load) m).Consistent := by
  rcases m.server.edit_cases scriptId input source load with ⟨error, hedit⟩ |
    ⟨script, fields, server, hscript, rfl, hedit, hoverlays, hscripts⟩
  · simpa only [step, hedit] using h
  · have hlimited : Scripts.Limited { m.server with scripts := server.scripts } := by
      rcases hscripts with ⟨hsame, -⟩ | ⟨edited, hid, -, hinsert, -⟩
      · exact h.limited.congr hsame rfl
      · have hkey := hid.trans (h.limited.keyed scriptId script hscript)
        exact (h.limited.setScript hkey).congr hinsert rfl
    by_cases hactive : fields.active = true
    · rw [if_pos hactive] at hoverlays
      simpa [step, hedit, hactive] using
        h.keeps ⟨Scripts.redraws_of_overlays hoverlays, fun _ => hlimited.congr rfl hoverlays⟩
    · rw [if_neg hactive] at hoverlays
      have hremoved : server.Limited :=
        Scripts.Limited.congr (hlimited.removeOverlays scriptId) rfl hoverlays
      simpa [step, hedit, hactive] using h.removed scriptId hremoved hoverlays

theorem consistent_compile {m : OverlayMirror F} (h : m.Consistent) (scriptId : Id)
    (source : SourceFile) (load : Option String) :
    (step (.compile scriptId source load) m).Consistent := by
  dsimp only [step, Scripts.compile]
  cases hscript : m.server.scripts.lookup scriptId with
  | none => exact h
  | some script =>
      have hkey := (Scripts.compile_scriptId script source load).trans
        (h.limited.keyed scriptId script hscript)
      exact h.setScript hkey rfl rfl

theorem consistent_runOnce {m : OverlayMirror F} (h : m.Consistent) (scriptId : Id)
    (run : LuaRun F) : (step (.runOnce scriptId run) m).Consistent := by
  dsimp only [step, Scripts.runOnce]
  cases hscript : m.server.scripts.lookup scriptId with
  | none => exact h
  | some script => exact h.keeps (Scripts.runScript_keeps h.limited hscript run)

theorem consistent_check {m : OverlayMirror F} (h : m.Consistent) (order : List Id)
    (runs : Id → LuaRun F) : (step (.check order runs) m).Consistent := by
  dsimp only [step, Scripts.check]
  split
  · exact h.keeps (Scripts.checkLoop_keeps h.limited runs order)
  · exact h

theorem consistent_disable {m : OverlayMirror F} (h : m.Consistent) (scriptId : Id) :
    (step (.disable scriptId) m).Consistent := by
  dsimp only [step, Scripts.disable]
  cases hscript : m.server.scripts.lookup scriptId with
  | none => exact h
  | some script =>
      have hremoved := h.limited.removeOverlays scriptId
      have hkey : ({ script with active := false } : Script).scriptId = scriptId :=
        h.limited.keyed scriptId script hscript
      dsimp only
      split
      · exact h.removed scriptId (hremoved.setScript hkey).countUpdate rfl
      · exact h.removed scriptId hremoved rfl

theorem consistent_disableAll {m : OverlayMirror F} (h : m.Consistent) :
    (step .disableAll m).Consistent := by
  have hkeyed : ∀ scriptId script,
      (Table.mapValues (fun _ script => { script with active := false : Script })
        m.server.scripts).lookup scriptId = some script → script.scriptId = scriptId := by
    intro scriptId script hscript
    rw [Table.lookup_mapValues, Option.map_eq_some_iff] at hscript
    obtain ⟨before, hbefore, rfl⟩ := hscript
    exact h.limited.keyed scriptId before hbefore
  dsimp only [step, Scripts.disableAll]
  split
  · exact consistent_of_empty hkeyed (Scripts.overlays_disableAll h.limited)
  · exact consistent_of_empty hkeyed (Scripts.overlays_disableAll h.limited)

theorem consistent_del {m : OverlayMirror F} (h : m.Consistent) (scriptId : Id) :
    (step (.del scriptId) m).Consistent := by
  dsimp only [step, Scripts.del]
  cases hscript : m.server.scripts.lookup scriptId with
  | none =>
      have hnone : m.server.overlays.erase scriptId = m.server.overlays :=
        Table.erase_of_notMem fun hmem =>
          AList.lookup_eq_none.mp hscript (h.limited.owned scriptId hmem)
      exact h.removed scriptId h.limited hnone.symm
  | some script =>
      have hremoved := h.limited.removeOverlays scriptId
      apply h.removed scriptId _ rfl
      constructor
      · intro a other hother
        have hne : a ≠ scriptId := by
          rintro rfl
          rw [Scripts.countUpdate, AList.lookup_erase] at hother
          cases hother
        rw [Scripts.countUpdate, AList.lookup_erase_ne hne] at hother
        exact h.limited.keyed a other hother
      · intro a ha
        obtain ⟨hne, hmem⟩ := AList.mem_erase.mp ha
        exact AList.mem_erase.mpr ⟨hne, h.limited.owned a hmem⟩
      · exact hremoved.perScript
      · exact hremoved.total

theorem consistent_clear {m : OverlayMirror F} (h : m.Consistent) : (step .clear m).Consistent := by
  dsimp only [step, Scripts.clear]
  split
  · rename_i hempty
    apply consistent_of_empty h.limited.keyed
    apply Table.eq_empty_of_lookup
    intro a
    apply AList.lookup_eq_none.mpr
    intro hmem
    have howner := AList.mem_keys.mp (h.limited.owned a hmem)
    rw [AList.keys, List.isEmpty_iff.mp hempty] at howner
    cases howner
  · refine consistent_of_empty (fun scriptId script hscript => ?_) rfl
    rw [Scripts.countUpdate, Scripts.clearOverlays, AList.lookup_empty] at hscript
    cases hscript

theorem consistent_poll {m : OverlayMirror F} (h : m.Consistent) : (step .poll m).Consistent where
  limited := h.limited.mapItems _
  sent := by
    intro a b item hitem _
    rw [exact_poll h a b, hitem]
    rfl
  dropped := by
    intro a b hnone
    rw [exact_poll h a b, hnone]
    rfl

theorem consistent_step {m : OverlayMirror F} (h : m.Consistent) (event : OverlayEvent F) :
    (step event m).Consistent := by
  cases event with
  | add input source load => exact consistent_add h input source load
  | edit scriptId input source load => exact consistent_edit h scriptId input source load
  | compile scriptId source load => exact consistent_compile h scriptId source load
  | runOnce scriptId run => exact consistent_runOnce h scriptId run
  | check order runs => exact consistent_check h order runs
  | disable scriptId => exact consistent_disable h scriptId
  | disableAll => exact consistent_disableAll h
  | del scriptId => exact consistent_del h scriptId
  | clear => exact consistent_clear h
  | beginSession => exact consistent_beginSession h
  | poll => exact consistent_poll h

/-- In every run the overlays stay owned and limited, and each poll leaves the client
with exactly the overlays that the server retains. -/
theorem client_mirrors_overlays (enabled : Bool) (input : Nat → OverlayEvent F) (n : Nat) :
    (Runs.after step input (start enabled) n).server.Limited ∧
      (input n = .poll → (Runs.after step input (start enabled) (n + 1)).Exact) := by
  have hrun : ∀ n, (Runs.after step input (start enabled) n).Consistent :=
    Runs.after_invariant Consistent (consistent_start enabled) fun k hk => consistent_step hk (input k)
  constructor
  · exact (hrun n).limited
  · intro hpoll
    rw [Runs.after, hpoll]
    exact exact_poll (hrun n)

end OverlayMirror

end V6Emul
