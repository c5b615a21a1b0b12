import Mathlib.Data.List.Chain
import Mathlib.Logic.Function.Iterate
import V6Emul.Foundation.UndoLog

/-!
# Timelines of a recorded store

A timeline divides a run into episodes.  An episode begins with a frame, the
saved control state and the contents of the store at that moment, and continues
with the stores made until the next one begins.  The run is either live, at the
end of the last episode, or parked at the beginning of some episode.
-/

namespace UndoLog

structure Frame (S M : Type) where
  saved : S
  mem : M

structure Episode (S M A V : Type) where
  start : Frame S M
  log : List (Entry A V)

@[ext] structure Timeline (S M A V : Type) where
  episodes : List (Episode S M A V)
  pos : Nat
  live : Bool
  pos_lt : pos < episodes.length

namespace Timeline

variable {S M A V : Type}

/-! ## Moving and recording -/

def cur (t : Timeline S M A V) : Episode S M A V := t.episodes.get ⟨t.pos, t.pos_lt⟩

theorem getElem?_pos (t : Timeline S M A V) : t.episodes[t.pos]? = some t.cur :=
  List.getElem?_eq_getElem t.pos_lt

theorem cur_eq {t : Timeline S M A V} {e : Episode S M A V} (h : t.episodes[t.pos]? = some e) :
    t.cur = e :=
  Option.some.inj (t.getElem?_pos.symm.trans h)

def start (f : Frame S M) : Timeline S M A V := ⟨[⟨f, []⟩], 0, true, Nat.zero_lt_one⟩

/-- From live to the beginning of the last episode, then episode by episode. -/
def back (t : Timeline S M A V) : Timeline S M A V :=
  if t.live then { t with live := false }
  else ⟨t.episodes, t.pos - 1, false, Nat.lt_of_le_of_lt (Nat.sub_le _ _) t.pos_lt⟩

def forward (t : Timeline S M A V) : Timeline S M A V :=
  if h : t.pos + 1 < t.episodes.length then ⟨t.episodes, t.pos + 1, t.live, h⟩ else t

def relog (t : Timeline S M A V) (log : List (Entry A V)) : Timeline S M A V where
  episodes := t.episodes.take t.pos ++ [{ t.cur with log := log }]
  pos := t.pos
  live := true
  pos_lt := by
    have h := t.pos_lt
    rw [List.length_append, List.length_take, List.length_singleton]
    omega

def resume (t : Timeline S M A V) : Timeline S M A V := t.relog []

def record (t : Timeline S M A V) (log : List (Entry A V)) : Timeline S M A V :=
  t.relog (t.cur.log ++ log)

/-- A new episode begins; at most `capacity` episodes are kept. -/
def advance (t : Timeline S M A V) (capacity : Nat) (f : Frame S M) : Timeline S M A V where
  episodes := (if t.episodes.length < capacity then t.episodes else t.episodes.tail) ++ [⟨f, []⟩]
  pos := (if t.episodes.length < capacity then t.episodes else t.episodes.tail).length
  live := true
  pos_lt := by
    rw [List.length_append]
    exact Nat.lt_succ_self _

/-- The run goes on with the stores in `log`; a frame that is due begins a new episode. -/
def proceed (t : Timeline S M A V) (capacity : Nat) (log : List (Entry A V))
    (due : Option (Frame S M)) : Timeline S M A V :=
  let t := (if t.live then t else t.resume).record log
  match due with
  | none => t
  | some f => t.advance capacity f

theorem back_of_live {t : Timeline S M A V} (h : t.live = true) :
    t.back = { t with live := false } := by
  rw [back, if_pos h]

theorem back_of_parked {t : Timeline S M A V} (h : t.live = false) :
    t.back = ⟨t.episodes, t.pos - 1, false, Nat.lt_of_le_of_lt (Nat.sub_le _ _) t.pos_lt⟩ := by
  rw [back, if_neg (by rw [h]; exact Bool.false_ne_true)]

theorem pos_back {t : Timeline S M A V} (h : t.live = false) : t.back.pos = t.pos - 1 := by
  rw [back_of_parked h]

@[simp] theorem live_back (t : Timeline S M A V) : t.back.live = false := by
  unfold back
  split <;> rfl

@[simp] theorem episodes_back (t : Timeline S M A V) : t.back.episodes = t.episodes := by
  unfold back
  split <;> rfl

theorem forward_of_lt {t : Timeline S M A V} (h : t.pos + 1 < t.episodes.length) :
    t.forward = ⟨t.episodes, t.pos + 1, t.live, h⟩ := by
  rw [forward, dif_pos h]

theorem forward_back {t : Timeline S M A V} (hparked : t.live = false) (hpos : 0 < t.pos) :
    t.back.forward = t := by
  have hsucc : t.pos - 1 + 1 = t.pos := Nat.sub_add_cancel hpos
  have hlt := t.pos_lt
  rw [back_of_parked hparked]
  rw [forward_of_lt (by change t.pos - 1 + 1 < t.episodes.length; omega)]
  ext1
  · rfl
  · exact hsucc
  · exact hparked.symm

theorem back_of_oldest {t : Timeline S M A V} (hparked : t.live = false) (hpos : t.pos = 0) :
    t.back = t := by
  rw [back_of_parked hparked]
  ext1
  · rfl
  · exact Nat.sub_eq_zero_of_le (by omega) |>.trans hpos.symm
  · exact hparked.symm

theorem live_back_iterate (t : Timeline S M A V) (n : Nat) :
    (Timeline.back^[n + 1] t).live = false := by
  rw [Function.iterate_succ_apply']
  exact live_back _

theorem episodes_back_iterate (t : Timeline S M A V) (n : Nat) :
    (Timeline.back^[n] t).episodes = t.episodes := by
  induction n with
  | zero => rfl
  | succ n ih => rw [Function.iterate_succ_apply', episodes_back, ih]

theorem pos_back_iterate (t : Timeline S M A V) (hlive : t.live = true) (n : Nat) :
    (Timeline.back^[n + 1] t).pos = t.pos - n := by
  induction n with
  | zero =>
      change t.back.pos = t.pos
      rw [back_of_live hlive]
  | succ n ih =>
      rw [Function.iterate_succ_apply', pos_back (live_back_iterate t n), ih, Nat.sub_sub]

theorem forward_iterate_back_iterate {t : Timeline S M A V} (hparked : t.live = false) (n : Nat)
    (hpos : n ≤ t.pos) : Timeline.forward^[n] (Timeline.back^[n] t) = t := by
  induction n generalizing t with
  | zero => rfl
  | succ n ih =>
      have hback : n ≤ t.back.pos := by
        rw [pos_back hparked]
        exact Nat.le_sub_one_of_lt hpos
      rw [Function.iterate_succ_apply', Function.iterate_succ_apply, ih (live_back t) hback,
        forward_back hparked (Nat.lt_of_le_of_lt (Nat.zero_le n) hpos)]

def frames (t : Timeline S M A V) : List (Frame S M) := t.episodes.map Episode.start

theorem length_frames (t : Timeline S M A V) : t.frames.length = t.episodes.length :=
  List.length_map _

theorem frames_pos (t : Timeline S M A V) : t.frames[t.pos]? = some t.cur.start := by
  rw [frames, List.getElem?_map, getElem?_pos]
  rfl

theorem frames_back_iterate (t : Timeline S M A V) (n : Nat) :
    (Timeline.back^[n] t).frames = t.frames := by
  rw [frames, frames, episodes_back_iterate]

/-! ## Well-linked timelines -/

variable (c : Cells M A V)

def Leads (a b : Episode S M A V) : Prop := c.redo a.start.mem a.log = b.start.mem

structure WellLinked (t : Timeline S M A V) : Prop where
  recorded : ∀ e ∈ t.episodes, c.Recorded e.start.mem e.log
  linked : t.episodes.IsChain (Leads c)
  last : t.live = true → t.pos + 1 = t.episodes.length

def At (t : Timeline S M A V) (s : S) (m : M) : Prop :=
  if t.live then m = c.redo t.cur.start.mem t.cur.log
  else s = t.cur.start.saved ∧ m = t.cur.start.mem

variable {c} {t : Timeline S M A V} {s : S} {m : M}

theorem WellLinked.recorded_cur (h : t.WellLinked c) : c.Recorded t.cur.start.mem t.cur.log :=
  h.recorded _ (List.getElem_mem t.pos_lt)

theorem WellLinked.leads (h : t.WellLinked c) (i : Nat) (hi : i + 1 < t.episodes.length) :
    Leads c t.episodes[i] t.episodes[i + 1] :=
  List.isChain_iff_getElem.mp h.linked i hi

theorem At.of_live (h : t.At c s m) (hlive : t.live = true) :
    m = c.redo t.cur.start.mem t.cur.log := by
  rwa [At, if_pos hlive] at h

theorem At.of_parked (h : t.At c s m) (hparked : t.live = false) :
    s = t.cur.start.saved ∧ m = t.cur.start.mem := by
  rwa [At, if_neg (by rw [hparked]; exact Bool.false_ne_true)] at h

theorem at_of_parked (hparked : t.live = false) (hs : s = t.cur.start.saved)
    (hm : m = t.cur.start.mem) : t.At c s m := by
  rw [At, if_neg (by rw [hparked]; exact Bool.false_ne_true)]
  exact ⟨hs, hm⟩

theorem at_of_live (hlive : t.live = true) (hm : m = c.redo t.cur.start.mem t.cur.log) :
    t.At c s m := by
  rw [At, if_pos hlive]
  exact hm

/-! ### Moving -/

theorem WellLinked.back (h : t.WellLinked c) : t.back.WellLinked c := by
  have hlive := live_back t
  unfold Timeline.back at hlive ⊢
  split
  · exact ⟨h.recorded, h.linked, fun hl => absurd hl Bool.false_ne_true⟩
  · exact ⟨h.recorded, h.linked, fun hl => absurd hl Bool.false_ne_true⟩

theorem WellLinked.forward (h : t.WellLinked c) (hparked : t.live = false) :
    t.forward.WellLinked c := by
  unfold Timeline.forward
  split
  · exact ⟨h.recorded, h.linked, fun hl => absurd (hparked.symm.trans hl) Bool.false_ne_true⟩
  · exact h

theorem WellLinked.at_back (h : t.WellLinked c) (hat : t.At c s m)
    (hmove : t.live = true ∨ 0 < t.pos) :
    t.back.At c t.back.cur.start.saved (c.undo m t.back.cur.log) := by
  refine at_of_parked (live_back t) rfl ?_
  cases hlive : t.live with
  | true =>
      have hback : t.back.cur = t.cur := by
        rw [back_of_live hlive]
        rfl
      rw [hback, hat.of_live hlive]
      exact c.undo_redo h.recorded_cur
  | false =>
      have hpos : 0 < t.pos := hmove.resolve_left (by rw [hlive]; exact Bool.false_ne_true)
      have hlt := t.pos_lt
      have hback : t.back.cur = t.episodes[t.pos - 1] := by
        rw [back_of_parked hlive]
        rfl
      have hlink := h.leads (t.pos - 1) (by omega)
      have hsucc : t.pos - 1 + 1 < t.episodes.length := by
        omega
      have hcur : t.episodes[t.pos - 1 + 1] = t.cur := by
        refine (cur_eq ?_).symm
        rw [← List.getElem?_eq_getElem hsucc, Nat.sub_add_cancel hpos]
      rw [hcur] at hlink
      rw [hback, (hat.of_parked hlive).2, ← hlink]
      exact c.undo_redo (h.recorded _ (List.getElem_mem (by omega)))

theorem WellLinked.at_forward (h : t.WellLinked c) (hat : t.At c s m) (hparked : t.live = false)
    (hnext : t.pos + 1 < t.episodes.length) :
    t.forward.At c t.forward.cur.start.saved (c.redo m t.cur.log) := by
  rw [forward_of_lt hnext]
  refine at_of_parked hparked rfl ?_
  rw [(hat.of_parked hparked).2]
  exact h.leads t.pos hnext

/-! ### Recording -/

theorem frames_relog (t : Timeline S M A V) (log : List (Entry A V)) :
    (t.relog log).frames = t.frames.take (t.pos + 1) := by
  have htake : t.episodes.take (t.pos + 1) = t.episodes.take t.pos ++ [t.cur] :=
    List.take_succ_eq_append_getElem t.pos_lt
  rw [frames, frames, ← List.map_take, htake, relog, List.map_append, List.map_append]
  rfl

theorem frames_advance (t : Timeline S M A V) (capacity : Nat) (f : Frame S M) :
    (t.advance capacity f).frames =
      (if t.frames.length < capacity then t.frames else t.frames.tail) ++ [f] := by
  simp only [frames, advance, List.length_map]
  split
  · simp
  · simp

theorem cur_relog (t : Timeline S M A V) (log : List (Entry A V)) :
    (t.relog log).cur = { t.cur with log := log } := by
  have hlen : (t.episodes.take t.pos).length = t.pos :=
    List.length_take_of_le (Nat.le_of_lt t.pos_lt)
  apply cur_eq
  change (t.episodes.take t.pos ++ [_])[t.pos]? = _
  rw [List.getElem?_append_right (Nat.le_of_eq hlen), hlen, Nat.sub_self]
  rfl

theorem cur_advance (t : Timeline S M A V) (capacity : Nat) (f : Frame S M) :
    (t.advance capacity f).cur = ⟨f, []⟩ := by
  simp [cur, advance]

theorem WellLinked.start (f : Frame S M) : (Timeline.start f : Timeline S M A V).WellLinked c := by
  refine ⟨?_, List.isChain_singleton _, fun _ => rfl⟩
  intro e he
  rw [List.mem_singleton.mp he]
  trivial

theorem at_start (f : Frame S M) (s : S) : (start f : Timeline S M A V).At c s f.mem :=
  at_of_live rfl rfl

theorem WellLinked.relog (h : t.WellLinked c) {log : List (Entry A V)}
    (hlog : c.Recorded t.cur.start.mem log) : (t.relog log).WellLinked c := by
  have hlen : (t.episodes.take t.pos).length = t.pos :=
    List.length_take_of_le (Nat.le_of_lt t.pos_lt)
  refine ⟨?_, ?_, ?_⟩
  · intro e he
    rcases List.mem_append.mp he with hold | hnew
    · exact h.recorded e (List.mem_of_mem_take hold)
    · rw [List.mem_singleton.mp hnew]
      exact hlog
  · have hprefix : (t.episodes.take t.pos ++ [t.cur]).IsChain (Leads c) := by
      have htake := h.linked.take (t.pos + 1)
      rwa [List.take_succ_eq_append_getElem t.pos_lt] at htake
    obtain ⟨hold, -, hlast⟩ := List.isChain_append.mp hprefix
    refine List.isChain_append.mpr ⟨hold, List.isChain_singleton _, ?_⟩
    intro a ha b hb
    have hlead := hlast a ha t.cur rfl
    rw [List.head?_singleton, Option.mem_some_iff] at hb
    subst hb
    exact hlead
  · intro _
    change t.pos + 1 = (t.episodes.take t.pos ++ [_]).length
    rw [List.length_append, hlen, List.length_singleton]

theorem WellLinked.resume (h : t.WellLinked c) : t.resume.WellLinked c :=
  h.relog trivial

theorem WellLinked.record (h : t.WellLinked c) (hat : t.At c s m) (hlive : t.live = true)
    {log : List (Entry A V)} (hlog : c.Recorded m log) : (t.record log).WellLinked c := by
  refine h.relog ((c.recorded_append _ _ _).mpr ⟨h.recorded_cur, ?_⟩)
  rw [← hat.of_live hlive]
  exact hlog

theorem at_advance (t : Timeline S M A V) (capacity : Nat) (s s' : S) (m : M) :
    (t.advance capacity ⟨s, m⟩).At c s' m := by
  refine at_of_live rfl ?_
  rw [cur_advance]
  rfl

theorem WellLinked.advance (h : t.WellLinked c) (hat : t.At c s m) (hlive : t.live = true)
    (capacity : Nat) (s' : S) : (t.advance capacity ⟨s', m⟩).WellLinked c := by
  have hlast : t.episodes.getLast? = some t.cur := by
    have hlen := h.last hlive
    rw [List.getLast?_eq_getElem?, ← hlen, Nat.add_sub_cancel]
    exact List.getElem?_eq_getElem t.pos_lt
  have hne : t.episodes ≠ [] := List.ne_nil_of_length_pos (Nat.lt_of_le_of_lt (Nat.zero_le _) t.pos_lt)
  have hsnoc : (t.episodes ++ ([⟨⟨s', m⟩, []⟩] : List (Episode S M A V))).IsChain (Leads c) := by
    refine List.isChain_append.mpr ⟨h.linked, List.isChain_singleton _, ?_⟩
    intro a ha b hb
    rw [hlast, Option.mem_some_iff] at ha
    rw [List.head?_singleton, Option.mem_some_iff] at hb
    subst ha hb
    exact (hat.of_live hlive).symm
  refine ⟨?_, ?_, ?_⟩
  · intro e he
    rcases List.mem_append.mp he with hold | hnew
    · split at hold
      · exact h.recorded e hold
      · exact h.recorded e (List.mem_of_mem_tail hold)
    · rw [List.mem_singleton.mp hnew]
      trivial
  · simp only [Timeline.advance]
    split
    · exact hsnoc
    · rw [← List.tail_append_of_ne_nil hne]
      exact hsnoc.tail
  · intro _
    simp only [Timeline.advance]
    rw [List.length_append, List.length_singleton]

theorem live_proceed (t : Timeline S M A V) (capacity : Nat) (log : List (Entry A V))
    (due : Option (Frame S M)) : (t.proceed capacity log due).live = true := by
  unfold proceed
  cases due <;> rfl

theorem last_proceed (t : Timeline S M A V) (capacity : Nat) (log : List (Entry A V))
    (due : Option (Frame S M)) :
    (t.proceed capacity log due).pos + 1 = (t.proceed capacity log due).episodes.length := by
  unfold proceed
  cases due with
  | none =>
      generalize (if t.live then t else t.resume) = u
      have hle := Nat.le_of_lt u.pos_lt
      simp only [record, relog, List.length_append, List.length_take, List.length_singleton]
      omega
  | some f => simp only [advance, List.length_append, List.length_singleton]

theorem frames_proceed (t : Timeline S M A V) (hlive : t.live = true)
    (hlast : t.pos + 1 = t.episodes.length) (capacity : Nat) (log : List (Entry A V))
    (due : Option (Frame S M)) :
    (t.proceed capacity log due).frames =
      match due with
      | none => t.frames
      | some f => (if t.frames.length < capacity then t.frames else t.frames.tail) ++ [f] := by
  have hrecord : (t.record log).frames = t.frames := by
    rw [record, frames_relog, hlast, frames, ← List.length_map (f := Episode.start),
      List.take_length]
  unfold proceed
  rw [if_pos hlive]
  cases due with
  | none => exact hrecord
  | some f =>
      simp only [frames_advance, hrecord]

end Timeline

end UndoLog
