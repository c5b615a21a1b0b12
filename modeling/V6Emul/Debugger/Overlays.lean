import V6Emul.Debugger.Scripts

/-!
# Retained overlays

What a run of a script does to the overlays: their limits are kept, and an overlay
that differs is marked as changed.
-/

namespace V6Emul

namespace Scripts

variable {F : Type}

def retained (s : Scripts F) (scriptId itemId : Id) : Option (OverlayItem F) :=
  (s.overlays.lookup scriptId).bind fun items => items.lookup itemId

/-! ## Limits -/

/-- Every overlay belongs to a script, and their numbers are within the limits. -/
structure Limited (s : Scripts F) : Prop where
  keyed : ∀ scriptId script, s.scripts.lookup scriptId = some script → script.scriptId = scriptId
  owned : ∀ scriptId, scriptId ∈ s.overlays → scriptId ∈ s.scripts
  perScript : ∀ scriptId items, s.overlays.lookup scriptId = some items →
    Table.size items ≤ maxOverlaysPerScript
  total : s.overlayTotal ≤ maxOverlaysTotal

def Running (s : Scripts F) : Prop := s.currentScriptId < 0 ∨ s.currentScriptId ∈ s.scripts

theorem limited_new (enabled : Bool) : (new enabled : Scripts F).Limited where
  keyed := fun _ _ h => absurd h (by simp [new])
  owned := fun _ h => absurd h (AList.notMem_empty _)
  perScript := fun _ _ h => absurd h (by simp [new])
  total := Nat.zero_le _

theorem Limited.congr {s t : Scripts F} (h : s.Limited) (hscripts : t.scripts = s.scripts)
    (hoverlays : t.overlays = s.overlays) : t.Limited := by
  constructor
  · rw [hscripts]
    exact h.keyed
  · rw [hscripts, hoverlays]
    exact h.owned
  · rw [hoverlays]
    exact h.perScript
  · rw [overlayTotal, hoverlays]
    exact h.total

theorem Limited.setItems {s : Scripts F} (h : s.Limited) {scriptId : Id}
    (hrunning : scriptId ∈ s.scripts) (items : Table Id (OverlayItem F))
    (hsize : Table.size items ≤ maxOverlaysPerScript)
    (htotal : Table.size items + Table.weight Table.size (s.overlays.erase scriptId) ≤
      maxOverlaysTotal) :
    ({ s with overlays := s.overlays.insert scriptId items } : Scripts F).Limited where
  keyed := h.keyed
  owned := by
    intro a ha
    rcases (AList.mem_insert _).mp ha with rfl | hold
    · exact hrunning
    · exact h.owned a hold
  perScript := by
    intro a t ht
    by_cases hkey : a = scriptId
    · rw [hkey, AList.lookup_insert, Option.some_inj] at ht
      exact ht ▸ hsize
    · rw [AList.lookup_insert_ne hkey] at ht
      exact h.perScript a t ht
  total := by
    rw [overlayTotal, Table.weight_insert]
    exact htotal

theorem weightAt_getD (s : Scripts F) (scriptId : Id) :
    Table.weightAt Table.size s.overlays scriptId =
      Table.size ((s.overlays.lookup scriptId).getD ∅) := by
  rw [Table.weightAt]
  cases s.overlays.lookup scriptId <;> rfl

theorem Limited.setScript {s : Scripts F} (h : s.Limited) {scriptId : Id} {script : Script}
    (hkey : script.scriptId = scriptId) : (s.setScript scriptId script).Limited where
  keyed := by
    intro a other hother
    by_cases ha : a = scriptId
    · rw [Scripts.setScript, ha, AList.lookup_insert, Option.some_inj] at hother
      rw [← hother, hkey, ha]
    · rw [Scripts.setScript, AList.lookup_insert_ne ha] at hother
      exact h.keyed a other hother
  owned := fun a ha => (AList.mem_insert _).mpr (.inr (h.owned a ha))
  perScript := h.perScript
  total := h.total

/-! ## Drawing and the changed marks -/

def Redraws (s t : Scripts F) : Prop :=
  ∀ a b, t.retained a b = s.retained a b ∨
    ∃ item, t.retained a b = some item ∧ item.updated = true

theorem Redraws.refl (s : Scripts F) : s.Redraws s := fun _ _ => .inl rfl

theorem Redraws.trans {s t u : Scripts F} (h : s.Redraws t) (h' : t.Redraws u) : s.Redraws u := by
  intro a b
  rcases h' a b with hsame | hmarked
  · rw [hsame]
    exact h a b
  · exact .inr hmarked

theorem redraws_of_overlays {s t : Scripts F} (h : t.overlays = s.overlays) : s.Redraws t := by
  intro a b
  rw [retained, h]
  exact .inl rfl

theorem retained_insert (s : Scripts F) (scriptId : Id) (items : Table Id (OverlayItem F))
    (a b : Id) :
    ({ s with overlays := s.overlays.insert scriptId items } : Scripts F).retained a b =
      if a = scriptId then items.lookup b else s.retained a b := by
  split
  · rename_i ha
    rw [retained, ha, AList.lookup_insert, Option.bind_some]
  · rename_i ha
    rw [retained, retained, AList.lookup_insert_ne ha]

theorem retained_current (s : Scripts F) (a b : Id) :
    ((s.overlays.lookup a).getD ∅).lookup b = s.retained a b := by
  rw [retained]
  cases s.overlays.lookup a <;> rfl

theorem updated_item [Zero F] (draw : Draw F) : draw.item.updated = true := by
  cases draw <;> rfl

structure RunKeeps (s t : Scripts F) : Prop where
  redraws : s.Redraws t
  limited : s.Limited → t.Limited

theorem RunKeeps.trans {s t u : Scripts F} (h : s.RunKeeps t) (h' : t.RunKeeps u) : s.RunKeeps u :=
  ⟨h.redraws.trans h'.redraws, fun hs => h'.limited (h.limited hs)⟩

theorem RunKeeps.of_eq {s t : Scripts F} (hscripts : t.scripts = s.scripts)
    (hoverlays : t.overlays = s.overlays) : s.RunKeeps t :=
  ⟨redraws_of_overlays hoverlays, fun hs => hs.congr hscripts hoverlays⟩

/-! ## A run of a script -/

variable [BEq F]

theorem limited_storeOverlay {s : Scripts F} (h : s.Limited) (hrunning : s.Running) (itemId : Id)
    (item : OverlayItem F) : (s.storeOverlay itemId item).2.Limited := by
  rw [storeOverlay]
  split
  · exact h
  · rename_i hcurrent
    have hscript := hrunning.resolve_left hcurrent
    have hweight := Table.weight_erase Table.size s.overlays s.currentScriptId
    have htotal := h.total
    have hsize : Table.size ((s.overlays.lookup s.currentScriptId).getD ∅) ≤
        maxOverlaysPerScript := by
      cases hitems : s.overlays.lookup s.currentScriptId with
      | none => exact Nat.zero_le _
      | some items => exact h.perScript _ items hitems
    rw [weightAt_getD] at hweight
    rw [overlayTotal] at htotal
    generalize (s.overlays.lookup s.currentScriptId).getD ∅ = items at hweight hsize ⊢
    have hopened : ({ s with overlays := s.overlays.insert s.currentScriptId items } :
        Scripts F).Limited := h.setItems hscript items hsize (by omega)
    have hopenedTotal : ({ s with overlays := s.overlays.insert s.currentScriptId items } :
        Scripts F).overlayTotal = Table.weight Table.size s.overlays := by
      rw [overlayTotal, Table.weight_insert]
      omega
    dsimp only
    split
    · rename_i hnew
      split
      · exact hopened
      · rename_i hroom
        split
        · exact hopened
        · rename_i hspace
          rw [hopenedTotal] at hspace
          have hmore := Table.size_insert_of_notMem (AList.lookup_eq_none.mp hnew) item
          have hlimited := h.setItems hscript (items.insert itemId item) (by omega) (by omega)
          simpa [AList.insert_insert] using hlimited
    · rename_i existing hexisting
      split
      · have hsame := Table.size_insert_of_mem (Table.mem_of_lookup hexisting)
          { item with updated := true }
        have hlimited := h.setItems hscript (items.insert itemId { item with updated := true })
          (by omega) (by omega)
        simpa [AList.insert_insert] using hlimited
      · exact hopened

theorem storeOverlay_frame (s : Scripts F) (itemId : Id) (item : OverlayItem F) :
    ∃ overlays, (s.storeOverlay itemId item).2 = { s with overlays := overlays } := by
  rw [storeOverlay]
  split
  · exact ⟨s.overlays, rfl⟩
  · dsimp only
    split
    · split
      · exact ⟨_, rfl⟩
      · split <;> exact ⟨_, rfl⟩
    · split <;> exact ⟨_, rfl⟩

theorem redraws_storeOverlay (s : Scripts F) (itemId : Id) {item : OverlayItem F}
    (hitem : item.updated = true) : s.Redraws (s.storeOverlay itemId item).2 := by
  have hopened : s.Redraws { s with
      overlays := s.overlays.insert s.currentScriptId
        ((s.overlays.lookup s.currentScriptId).getD ∅) } := by
    intro a b
    rw [retained_insert]
    split
    · rename_i ha
      rw [retained_current, ha]
      exact .inl rfl
    · exact .inl rfl
  have hstored : ∀ new : OverlayItem F, new.updated = true → s.Redraws { s with
      overlays := (s.overlays.insert s.currentScriptId
        ((s.overlays.lookup s.currentScriptId).getD ∅)).insert s.currentScriptId
          (((s.overlays.lookup s.currentScriptId).getD ∅).insert itemId new) } := by
    intro new hnew a b
    rw [AList.insert_insert, retained_insert]
    split
    · rename_i ha
      by_cases hb : b = itemId
      · rw [hb, AList.lookup_insert]
        exact .inr ⟨new, rfl, hnew⟩
      · rw [AList.lookup_insert_ne hb, retained_current, ha]
        exact .inl rfl
    · exact .inl rfl
  rw [storeOverlay]
  split
  · exact .refl s
  · dsimp only
    split
    · split
      · exact hopened
      · split
        · exact hopened
        · exact hstored item hitem
    · split
      · exact hstored _ rfl
      · exact hopened

variable [Zero F]

theorem drawAll_frame (s : Scripts F) (draws : List (Draw F)) :
    ∃ overlays, s.drawAll draws = { s with overlays := overlays } := by
  induction draws generalizing s with
  | nil => exact ⟨s.overlays, rfl⟩
  | cons draw draws ih =>
      obtain ⟨stored, hstored⟩ := storeOverlay_frame s draw.id draw.item
      obtain ⟨overlays, hrest⟩ := ih (s.storeOverlay draw.id draw.item).2
      refine ⟨overlays, hrest.trans ?_⟩
      rw [hstored]

theorem drawAll_keeps {s : Scripts F} (hrunning : s.Running) (draws : List (Draw F)) :
    s.RunKeeps (s.drawAll draws) := by
  induction draws generalizing s with
  | nil => exact ⟨.refl s, id⟩
  | cons draw draws ih =>
      have hstep : s.RunKeeps (s.storeOverlay draw.id draw.item).2 :=
        ⟨redraws_storeOverlay s draw.id (updated_item draw),
          fun hs => limited_storeOverlay hs hrunning draw.id draw.item⟩
      have hnext : (s.storeOverlay draw.id draw.item).2.Running := by
        obtain ⟨overlays, hstored⟩ := storeOverlay_frame s draw.id draw.item
        rw [hstored]
        exact hrunning
      exact hstep.trans (ih hnext)

theorem runScript_keeps {s : Scripts F} (hs : s.Limited) {key : Id} {script : Script}
    (hscript : s.scripts.lookup key = some script) (run : LuaRun F) :
    s.RunKeeps (s.runScript key script run).2 := by
  have hkey := hs.keyed key script hscript
  rw [runScript]
  split
  · exact ⟨.refl s, id⟩
  · have hstart : s.RunKeeps { s with break_ := false, currentScriptId := script.scriptId } :=
      .of_eq rfl rfl
    have hrunning : ({ s with break_ := false, currentScriptId := script.scriptId } :
        Scripts F).Running := by
      right
      rw [hkey]
      exact Table.mem_of_lookup hscript
    have hdrawn := hstart.trans (drawAll_keeps hrunning run.draws)
    have hfinish : ∀ u v : Scripts F, v.scripts = u.scripts.insert key (afterRun script run) →
        v.overlays = u.overlays → u.RunKeeps v := by
      intro u v hscripts hoverlays
      have hset : u.RunKeeps (u.setScript key (afterRun script run)) := by
        refine ⟨redraws_of_overlays rfl, fun hu => hu.setScript ?_⟩
        rw [afterRun]
        split <;> exact hkey
      exact hset.trans (.of_eq hscripts hoverlays)
    apply hdrawn.trans
    apply hfinish
    · dsimp only
      split_ifs <;> rfl
    · dsimp only
      split_ifs <;> rfl

theorem checkLoop_keeps {s : Scripts F} (hs : s.Limited) (runs : Id → LuaRun F) (order : List Id) :
    s.RunKeeps (s.checkLoop runs order).2 := by
  induction order generalizing s with
  | nil => exact ⟨.refl s, id⟩
  | cons scriptId order ih =>
      rw [checkLoop]
      split
      · exact ih hs
      · rename_i script hscript
        split
        · have hrun := runScript_keeps hs hscript (runs scriptId)
          split
          · rename_i heq
            rw [heq] at hrun
            exact hrun
          · rename_i heq
            rw [heq] at hrun
            exact hrun.trans (ih (hrun.limited hs))
        · exact ih hs

end Scripts

end V6Emul
