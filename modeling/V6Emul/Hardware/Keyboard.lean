import V6Emul.Memory

/-!
# The keyboard

The host's keys set bits of an encoding matrix and three modifiers.  The state has one bit
for every place of the matrix and for every modifier, also where several keys share it.
-/

namespace V6Emul

inductive KeyAction where
  | keyUp
  | keyDown
  deriving DecidableEq

namespace KeyCode

def f6 : Int := 0x75
def f11 : Int := 0x7A
def f12 : Int := 0x7B
def lshift : Int := 0xA0
def rshift : Int := 0xA1
def lctrl : Int := 0xA2
def lgui : Int := 0x5B
def lalt : Int := 0xA4

end KeyCode

def keymap : List (Int × Nat × Byte) :=
  -- SPACE, GRAVE, RBRACKET, BACKSLASH, LBRACKET, Z, Y, X
  [(0x20, 7, 0x80), (0xC0, 7, 0x01), (0xDD, 7, 0x20), (0xDC, 7, 0x10),
   (0xDB, 7, 0x08), (90, 7, 0x04), (89, 7, 0x02), (88, 7, 0x01),
   -- W to P
   (87, 6, 0x80), (86, 6, 0x40), (85, 6, 0x20), (84, 6, 0x10),
   (83, 6, 0x08), (82, 6, 0x04), (81, 6, 0x02), (80, 6, 0x01),
   -- O to H
   (79, 5, 0x80), (78, 5, 0x40), (77, 5, 0x20), (76, 5, 0x10),
   (75, 5, 0x08), (74, 5, 0x04), (73, 5, 0x02), (72, 5, 0x01),
   -- G to A, MINUS
   (71, 4, 0x80), (70, 4, 0x40), (69, 4, 0x20), (68, 4, 0x10),
   (67, 4, 0x08), (66, 4, 0x04), (65, 4, 0x02), (0xBD, 4, 0x01),
   -- SLASH, PERIOD, PLUS, COMMA, SEMICOLON, APOSTROPHE, NUM_9, NUM_8
   (0xBF, 3, 0x80), (0xBE, 3, 0x40), (0xBB, 3, 0x20), (0xBC, 3, 0x10),
   (0xBA, 3, 0x08), (0xDE, 3, 0x04), (57, 3, 0x02), (56, 3, 0x01),
   -- NUM_7 to NUM_0
   (55, 2, 0x80), (54, 2, 0x40), (53, 2, 0x20), (52, 2, 0x10),
   (51, 2, 0x08), (50, 2, 0x04), (49, 2, 0x02), (48, 2, 0x01),
   -- F5, F4, F3, F2, F1, ESCAPE, F8, F7
   (0x74, 1, 0x80), (0x73, 1, 0x40), (0x72, 1, 0x20), (0x71, 1, 0x10),
   (0x70, 1, 0x08), (0x1B, 1, 0x04), (0x77, 1, 0x02), (0x76, 1, 0x01),
   -- DOWN, RIGHT, UP, LEFT, BACKSPACE, RETURN, RALT, TAB
   (0x28, 0, 0x80), (0x27, 0, 0x40), (0x26, 0, 0x20), (0x25, 0, 0x10),
   (0x08, 0, 0x08), (0x0D, 0, 0x04), (0xA5, 0, 0x02), (0x09, 0, 0x01)]

structure Keyboard where
  encodingMatrix : Nat → Byte
  keySS : Bool
  keyUS : Bool
  keyRus : Bool

namespace Keyboard

inductive Operation where
  | none
  | reset
  | restart
  deriving DecidableEq

def new : Keyboard := ⟨fun _ => 0, false, false, false⟩

def setMatrix (keyCode : Int) (action : KeyAction) (k : Keyboard) : Keyboard :=
  match keymap.lookup keyCode with
  | none => k
  | some (row, column) =>
      let value := match action with
        | .keyUp => k.encodingMatrix row &&& ~~~column
        | .keyDown => k.encodingMatrix row ||| column
      { k with encodingMatrix := Function.update k.encodingMatrix row value }

def keyHandling (keyCode : Int) (action : KeyAction) (k : Keyboard) : Operation × Keyboard :=
  if keyCode = KeyCode.f11 then (if action = .keyUp then .reset else .none, k)
  else if keyCode = KeyCode.f12 then (if action = .keyUp then .restart else .none, k)
  else if keyCode = KeyCode.lshift ∨ keyCode = KeyCode.rshift then
    (.none, { k with keySS := action == .keyDown })
  else if keyCode = KeyCode.lctrl then (.none, { k with keyUS := action == .keyDown })
  else if keyCode = KeyCode.lgui ∨ keyCode = KeyCode.lalt ∨ keyCode = KeyCode.f6 then
    (.none, { k with keyRus := action == .keyDown })
  else (.none, k.setMatrix keyCode action)

def read (rows : BitVec 32) (k : Keyboard) : Byte :=
  ~~~((List.range 8).foldl
    (fun result row => result ||| if rows.getLsbD row then 0 else k.encodingMatrix row) 0)

/-! ## Keys that are held -/

structure KeyEvent where
  keyCode : Int
  action : KeyAction
  deriving DecidableEq

def after (events : List KeyEvent) : Keyboard :=
  events.foldl (fun k event => (k.keyHandling event.keyCode event.action).2) new

inductive Target where
  | matrix (row column : Nat)
  | ss
  | us
  | rus
  deriving DecidableEq

def active (k : Keyboard) : Target → Bool
  | .matrix row column => (k.encodingMatrix row).getLsbD column
  | .ss => k.keySS
  | .us => k.keyUS
  | .rus => k.keyRus

def Maps (keyCode : Int) : Target → Prop
  | .ss => keyCode = KeyCode.lshift ∨ keyCode = KeyCode.rshift
  | .us => keyCode = KeyCode.lctrl
  | .rus => keyCode = KeyCode.lgui ∨ keyCode = KeyCode.lalt ∨ keyCode = KeyCode.f6
  | .matrix row column => ∃ mask, keymap.lookup keyCode = some (row, mask) ∧ mask.getLsbD column

def Held (events : List KeyEvent) (keyCode : Int) : Prop :=
  events.reverse.find? (fun event => event.keyCode = keyCode) = some ⟨keyCode, .keyDown⟩

/-- The state, and what is read of it, tell which keys are held. -/
structure Reflects (events : List KeyEvent) : Prop where
  active : ∀ target, (after events).active target = true ↔
    ∃ keyCode, Maps keyCode target ∧ Held events keyCode
  read : ∀ (rows : BitVec 32) (column : Nat), column < 8 →
    (((after events).read rows).getLsbD column = false ↔
      ∃ row, row < 8 ∧ rows.getLsbD row = false ∧
        ∃ keyCode, Maps keyCode (.matrix row column) ∧ Held events keyCode)

/-- No other key of a target is held when a key of it goes up. -/
def ReleasesAlone (events : List KeyEvent) : Prop :=
  ∀ n keyCode, events[n]? = some ⟨keyCode, .keyUp⟩ → ∀ target other, Maps keyCode target →
    other ≠ keyCode → Maps other target → ¬ Held (events.take n) other

/-! ## One event -/

theorem lookup_f11 : keymap.lookup KeyCode.f11 = none := by decide

theorem lookup_f12 : keymap.lookup KeyCode.f12 = none := by decide

theorem lookup_ss {keyCode : Int} (h : keyCode = KeyCode.lshift ∨ keyCode = KeyCode.rshift) :
    keymap.lookup keyCode = none := by
  rcases h with rfl | rfl <;> decide

theorem lookup_us : keymap.lookup KeyCode.lctrl = none := by decide

theorem lookup_rus {keyCode : Int}
    (h : keyCode = KeyCode.lgui ∨ keyCode = KeyCode.lalt ∨ keyCode = KeyCode.f6) :
    keymap.lookup keyCode = none := by
  rcases h with rfl | rfl | rfl <;> decide

theorem not_maps_matrix {keyCode : Int} (h : keymap.lookup keyCode = none) (row column : Nat) :
    ¬ Maps keyCode (.matrix row column) := by
  rintro ⟨mask, hmask, -⟩
  rw [h] at hmask
  cases hmask

structure Acts (keyCode : Int) (action : KeyAction) (k k' : Keyboard) : Prop where
  maps : ∀ target, Maps keyCode target → (k'.active target = true ↔ action = .keyDown)
  other : ∀ target, ¬ Maps keyCode target → k'.active target = k.active target

theorem acts_of_unmapped {keyCode : Int} (h : ∀ target, ¬ Maps keyCode target)
    (action : KeyAction) (k : Keyboard) : Acts keyCode action k k where
  maps target htarget := absurd htarget (h target)
  other _ _ := rfl

theorem not_maps_f11 (target : Target) : ¬ Maps KeyCode.f11 target := by
  cases target with
  | matrix row column => exact not_maps_matrix lookup_f11 row column
  | _ =>
      rw [Maps]
      decide

theorem not_maps_f12 (target : Target) : ¬ Maps KeyCode.f12 target := by
  cases target with
  | matrix row column => exact not_maps_matrix lookup_f12 row column
  | _ =>
      rw [Maps]
      decide

theorem acts_ss {keyCode : Int} (h : keyCode = KeyCode.lshift ∨ keyCode = KeyCode.rshift)
    (action : KeyAction) (k : Keyboard) :
    Acts keyCode action k { k with keySS := action == .keyDown } where
  maps target htarget := by
    cases target with
    | matrix row column => exact absurd htarget (not_maps_matrix (lookup_ss h) row column)
    | ss => exact beq_iff_eq
    | us => rcases h with rfl | rfl <;> exact absurd htarget (by decide : ¬ (_ : Int) = _)
    | rus => rcases h with rfl | rfl <;> exact absurd htarget (by decide : ¬ (_ ∨ _))
  other target htarget := by
    cases target with
    | ss => exact absurd h htarget
    | _ => rfl

theorem acts_us (action : KeyAction) (k : Keyboard) :
    Acts KeyCode.lctrl action k { k with keyUS := action == .keyDown } where
  maps target htarget := by
    cases target with
    | matrix row column => exact absurd htarget (not_maps_matrix lookup_us row column)
    | ss => exact absurd htarget (by decide : ¬ (_ ∨ _))
    | us => exact beq_iff_eq
    | rus => exact absurd htarget (by decide : ¬ (_ ∨ _))
  other target htarget := by
    cases target with
    | us => exact absurd rfl htarget
    | _ => rfl

theorem acts_rus {keyCode : Int}
    (h : keyCode = KeyCode.lgui ∨ keyCode = KeyCode.lalt ∨ keyCode = KeyCode.f6)
    (action : KeyAction) (k : Keyboard) :
    Acts keyCode action k { k with keyRus := action == .keyDown } where
  maps target htarget := by
    cases target with
    | matrix row column => exact absurd htarget (not_maps_matrix (lookup_rus h) row column)
    | ss => rcases h with rfl | rfl | rfl <;> exact absurd htarget (by decide : ¬ (_ ∨ _))
    | us => rcases h with rfl | rfl | rfl <;> exact absurd htarget (by decide : ¬ (_ : Int) = _)
    | rus => exact beq_iff_eq
  other target htarget := by
    cases target with
    | rus => exact absurd h htarget
    | _ => rfl

theorem getLsbD_masked (action : KeyAction) (value mask : Byte) (column : Nat) :
    (match action with
      | .keyUp => value &&& ~~~mask
      | .keyDown => value ||| mask).getLsbD column =
      if mask.getLsbD column then action == .keyDown else value.getLsbD column := by
  cases action with
  | keyUp =>
      rw [BitVec.getLsbD_and, BitVec.getLsbD_not]
      by_cases hcolumn : column < 8
      · cases mask.getLsbD column <;> simp [hcolumn]
      · simp [hcolumn, BitVec.getLsbD_of_ge value column (Nat.le_of_not_lt hcolumn)]
  | keyDown =>
      rw [BitVec.getLsbD_or]
      cases mask.getLsbD column <;> simp

theorem acts_setMatrix {keyCode : Int}
    (h : ∀ target, Maps keyCode target → ∃ row column, target = .matrix row column)
    (action : KeyAction) (k : Keyboard) : Acts keyCode action k (k.setMatrix keyCode action) := by
  cases hlookup : keymap.lookup keyCode with
  | none =>
      have hnone : ∀ target, ¬ Maps keyCode target := by
        intro target htarget
        obtain ⟨row, column, rfl⟩ := h target htarget
        exact not_maps_matrix hlookup row column htarget
      rw [setMatrix, hlookup]
      exact acts_of_unmapped hnone action k
  | some place =>
      obtain ⟨row, mask⟩ := place
      have hset : k.setMatrix keyCode action = { k with
          encodingMatrix := Function.update k.encodingMatrix row (match action with
            | .keyUp => k.encodingMatrix row &&& ~~~mask
            | .keyDown => k.encodingMatrix row ||| mask) } := by
        rw [setMatrix, hlookup]
      have hmaps : ∀ row' column, Maps keyCode (.matrix row' column) ↔
          row = row' ∧ mask.getLsbD column = true := by
        intro row' column
        simp [Maps, hlookup]
      rw [hset]
      constructor
      · intro target htarget
        obtain ⟨row', column, rfl⟩ := h target htarget
        obtain ⟨rfl, hmask⟩ := (hmaps row' column).mp htarget
        simp only [active]
        rw [Function.update_self, getLsbD_masked, if_pos hmask]
        exact beq_iff_eq
      · intro target htarget
        cases target with
        | matrix row' column =>
            rw [hmaps] at htarget
            simp only [active]
            by_cases hrow : row' = row
            · subst hrow
              rw [Function.update_self, getLsbD_masked, if_neg fun hmask => htarget ⟨rfl, hmask⟩]
            · rw [Function.update_of_ne hrow]
        | _ => rfl

theorem acts_keyHandling (keyCode : Int) (action : KeyAction) (k : Keyboard) :
    Acts keyCode action k (k.keyHandling keyCode action).2 := by
  rw [keyHandling]
  by_cases h11 : keyCode = KeyCode.f11
  · rw [if_pos h11, h11]
    exact acts_of_unmapped not_maps_f11 action k
  by_cases h12 : keyCode = KeyCode.f12
  · rw [if_neg h11, if_pos h12, h12]
    exact acts_of_unmapped not_maps_f12 action k
  rw [if_neg h11, if_neg h12]
  split_ifs with hss hus hrus
  · exact acts_ss hss action k
  · exact hus ▸ acts_us action k
  · exact acts_rus hrus action k
  · apply acts_setMatrix
    intro target htarget
    cases target with
    | matrix row column => exact ⟨row, column, rfl⟩
    | ss => exact absurd htarget hss
    | us => exact absurd htarget hus
    | rus => exact absurd htarget hrus

/-! ## Runs -/

theorem after_append (events : List KeyEvent) (event : KeyEvent) :
    after (events ++ [event]) = ((after events).keyHandling event.keyCode event.action).2 :=
  List.foldl_append

theorem held_append (events : List KeyEvent) (event : KeyEvent) (keyCode : Int) :
    Held (events ++ [event]) keyCode ↔
      if event.keyCode = keyCode then event.action = .keyDown else Held events keyCode := by
  rw [Held, List.reverse_append, List.reverse_singleton, List.singleton_append, List.find?_cons]
  by_cases h : event.keyCode = keyCode
  · subst h
    simp only [decide_true, Option.some_inj, if_true]
    constructor
    · intro heq
      rw [heq]
    · intro hdown
      rw [← hdown]
  · rw [if_neg h, decide_eq_false h, Held]

def Shows (events : List KeyEvent) : Prop :=
  ∀ target, (after events).active target = true ↔
    ∃ keyCode, Maps keyCode target ∧ Held events keyCode

theorem shows_nil : Shows [] := by
  intro target
  constructor
  · intro h
    cases target <;> simp [after, new, active] at h
  · rintro ⟨keyCode, -, hheld⟩
    cases hheld

theorem Shows.keyDown {events : List KeyEvent} (h : Shows events) (keyCode : Int) :
    Shows (events ++ [⟨keyCode, .keyDown⟩]) := by
  intro target
  have hacts := acts_keyHandling keyCode .keyDown (after events)
  rw [after_append]
  by_cases hmaps : Maps keyCode target
  · rw [hacts.maps target hmaps]
    refine ⟨fun _ => ⟨keyCode, hmaps, ?_⟩, fun _ => rfl⟩
    rw [held_append, if_pos rfl]
  · rw [hacts.other target hmaps, h target]
    refine exists_congr fun other => and_congr_right fun hother => ?_
    rw [held_append, if_neg]
    rintro rfl
    exact hmaps hother

theorem Shows.keyUp {events : List KeyEvent} (h : Shows events) (keyCode : Int) :
    Shows (events ++ [⟨keyCode, .keyUp⟩]) ↔
      ∀ target other, Maps keyCode target → other ≠ keyCode → Maps other target →
        ¬ Held events other := by
  have hacts := acts_keyHandling keyCode .keyUp (after events)
  have hheld : ∀ other, other ≠ keyCode →
      (Held (events ++ [⟨keyCode, .keyUp⟩]) other ↔ Held events other) := by
    intro other hne
    rw [held_append, if_neg (Ne.symm hne)]
  have hself : ¬ Held (events ++ [⟨keyCode, .keyUp⟩]) keyCode := by
    rw [held_append, if_pos rfl]
    exact KeyAction.noConfusion
  constructor
  · intro hafter target other hmaps hne hother hheldOther
    have hactive := (hafter target).mpr ⟨other, hother, (hheld other hne).mpr hheldOther⟩
    rw [after_append, hacts.maps target hmaps] at hactive
    cases hactive
  · intro halone target
    rw [after_append]
    by_cases hmaps : Maps keyCode target
    · rw [hacts.maps target hmaps]
      refine ⟨fun hdown => KeyAction.noConfusion hdown, ?_⟩
      rintro ⟨other, hother, hheldOther⟩
      have hne : other ≠ keyCode := by
        rintro rfl
        exact hself hheldOther
      exact absurd ((hheld other hne).mp hheldOther) (halone target other hmaps hne hother)
    · rw [hacts.other target hmaps, h target]
      refine exists_congr fun other => and_congr_right fun hother => ?_
      rw [hheld other]
      rintro rfl
      exact hmaps hother

theorem getLsbD_foldl (rows : List Nat) (f : Nat → Byte) (result : Byte) (column : Nat) :
    (rows.foldl (fun result row => result ||| f row) result).getLsbD column = true ↔
      result.getLsbD column = true ∨ ∃ row ∈ rows, (f row).getLsbD column = true := by
  induction rows generalizing result with
  | nil => simp
  | cons row rows ih =>
      rw [List.foldl_cons, ih, BitVec.getLsbD_or, Bool.or_eq_true, List.exists_mem_cons_iff, or_assoc]

theorem read_eq_false (k : Keyboard) (rows : BitVec 32) {column : Nat} (hcolumn : column < 8) :
    (k.read rows).getLsbD column = false ↔
      ∃ row, row < 8 ∧ rows.getLsbD row = false ∧ k.active (.matrix row column) = true := by
  rw [read, BitVec.getLsbD_not, decide_eq_true hcolumn, Bool.true_and, Bool.not_eq_false',
    getLsbD_foldl]
  constructor
  · rintro (hzero | ⟨row, hrow, hbit⟩)
    · simp at hzero
    · cases hselected : rows.getLsbD row with
      | true => simp [hselected] at hbit
      | false =>
          rw [hselected] at hbit
          exact ⟨row, List.mem_range.mp hrow, hselected, hbit⟩
  · rintro ⟨row, hrow, hselected, hactive⟩
    refine .inr ⟨row, List.mem_range.mpr hrow, ?_⟩
    rw [hselected]
    exact hactive

theorem reflects_iff_shows (events : List KeyEvent) : Reflects events ↔ Shows events := by
  refine ⟨fun h => h.active, fun h => ⟨h, fun rows column hcolumn => ?_⟩⟩
  rw [read_eq_false _ rows hcolumn]
  refine exists_congr fun row => and_congr_right fun _ => and_congr_right fun _ => ?_
  exact h (.matrix row column)

theorem take_succ_of_getElem? {events : List KeyEvent} {n : Nat} {event : KeyEvent}
    (h : events[n]? = some event) : events.take (n + 1) = events.take n ++ [event] := by
  rw [List.take_add_one, h, Option.toList_some]

/--
For every sequence of key events: the state shows the held keys after each of them
exactly when no key goes up while another key of one of its targets is held.
-/
theorem reflects_iff (events : List KeyEvent) :
    (∀ n, Reflects (events.take n)) ↔ ReleasesAlone events := by
  constructor
  · intro h n keyCode hevent target other hmaps hne hother
    have hbefore := (reflects_iff_shows _).mp (h n)
    have hafter := (reflects_iff_shows _).mp (h (n + 1))
    rw [take_succ_of_getElem? hevent, hbefore.keyUp] at hafter
    exact hafter target other hmaps hne hother
  · intro halone n
    rw [reflects_iff_shows]
    induction n with
    | zero => exact shows_nil
    | succ n ih =>
        cases hevent : events[n]? with
        | none =>
            have hlength := List.getElem?_eq_none_iff.mp hevent
            rw [List.take_of_length_le (Nat.le_succ_of_le hlength)]
            rwa [List.take_of_length_le hlength] at ih
        | some event =>
            obtain ⟨keyCode, action⟩ := event
            rw [take_succ_of_getElem? hevent]
            cases action with
            | keyDown => exact ih.keyDown keyCode
            | keyUp => exact (ih.keyUp keyCode).mpr (halone n keyCode hevent)

def releasedShift : List KeyEvent :=
  [⟨KeyCode.lshift, .keyDown⟩, ⟨KeyCode.rshift, .keyDown⟩, ⟨KeyCode.lshift, .keyUp⟩]

theorem releasedShift_not_reflected : ¬ Reflects releasedShift := by
  intro h
  have hheld : Held releasedShift KeyCode.rshift := by
    rw [Held]
    decide
  have hactive := (h.active .ss).mpr ⟨KeyCode.rshift, .inr rfl, hheld⟩
  exact absurd hactive (by decide)

end Keyboard

end V6Emul
