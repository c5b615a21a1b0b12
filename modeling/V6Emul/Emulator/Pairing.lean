import V6Emul.Emulator.Serving

/-!
# Requests and responses stay paired

A client that waits has one request under way: it lies in the first queue, or is being
handled, or its response lies in the second one.  With no second request there is
nothing to take for a poll inside a handler, and no response but the client's own.
-/

namespace V6Emul

variable {σ ρ δ ε : Type}

/-! ## Where a request is handled -/

def InstructionCaller.serves : InstructionCaller → Bool
  | .execution _ => false
  | .executeInstr => true
  | .executeFrame _ => true

def PollSite.serves : PollSite → Bool
  | .instruction caller => caller.serves
  | .vsync => false
  | .stopped => false
  | .grace => false

def ThreadControl.serves : ThreadControl ρ δ ε → Bool
  | .execution => false
  | .running => false
  | .instruction caller => caller.serves
  | .frameEnd => false
  | .vsync => false
  | .stopped => false
  | .poll site => site.serves
  | .handling _ => true
  | .answer _ => true
  | .finished => false
  | .terminated => false

def ThreadControl.over : ThreadControl ρ δ ε → Bool
  | .finished => true
  | .terminated => true
  | _ => false

theorem Service.Calls.serves {M : Service σ ρ δ ε} {req : Request ρ} {began m : σ}
    {caller : InstructionCaller} (h : M.Calls req began caller m) : caller.serves = true := by
  cases caller with
  | execution frameNum => exact h.elim
  | executeInstr => rfl
  | executeFrame frameNum => rfl

theorem Service.serves_executed (M : Service σ ρ δ ε) (m : σ) (caller : InstructionCaller)
    (broke : Bool) : (M.executed m caller broke).2.serves = caller.serves := by
  cases caller with
  | execution frameNum =>
      simp only [Service.executed]
      split
      · rfl
      · split <;> rfl
  | executeInstr => rfl
  | executeFrame frameNum =>
      simp only [Service.executed]
      split <;> rfl

theorem Service.serves_polled (M : Service σ ρ δ ε) (m : σ) (site : PollSite) (served : Bool) :
    (M.polled m site served).2.serves = site.serves := by
  cases site with
  | instruction caller => exact M.serves_executed m caller false
  | vsync => rfl
  | stopped => rfl
  | grace => cases served <;> rfl

def Service.LoopRuns (M : Service σ ρ δ ε) (control : ThreadControl ρ δ ε) (m : σ) : Prop :=
  ∀ frameNum, control = .instruction (.execution frameNum) → M.status m = .run

theorem Service.polled_idle (M : Service σ ρ δ ε) (m : σ) {site : PollSite}
    (hidle : site.serves = false) (served : Bool) :
    (M.polled m site served).1 = m ∧
      M.LoopRuns (M.polled m site served).2 (M.polled m site served).1 := by
  cases site with
  | instruction caller =>
      cases caller with
      | execution frameNum =>
          simp only [Service.polled, Service.executed, Bool.false_eq_true, if_false]
          split
          · exact ⟨rfl, fun _ _ => (‹_ ∧ _›).1⟩
          · exact ⟨rfl, fun _ hcontrol => by cases hcontrol⟩
      | executeInstr => cases hidle
      | executeFrame frameNum => cases hidle
  | vsync => exact ⟨rfl, fun _ hcontrol => by cases hcontrol⟩
  | stopped => exact ⟨rfl, fun _ hcontrol => by cases hcontrol⟩
  | grace => exact ⟨rfl, fun _ hcontrol => by cases served <;> cases hcontrol⟩

theorem modify_concat {α : Type} (l : List α) (x : α) (f : α → α) :
    (l ++ [x]).modify l.length f = l ++ [f x] := by
  induction l with
  | nil => rfl
  | cons y l ih =>
      rw [List.cons_append, List.length_cons, List.modify_succ_cons, ih]
      rfl

namespace Exchange

theorem Moves.serves {M : Service σ ρ δ ε} {m m' : σ} {control control' : ThreadControl ρ δ ε}
    (h : Moves M m control m' control') : control'.serves = control.serves := by
  cases h with
  | execution => split <;> rfl
  | running => split <;> rfl
  | frameEnd => split <;> rfl
  | vsync => rfl
  | frameOver => rfl
  | stopped => split <;> rfl
  | breaks caller m' => exact M.serves_executed m' caller true
  | goesOn caller m' => rfl
  | throws caller m' error => cases caller <;> rfl
  | exit => rfl
  | executeInstr => rfl
  | executeFrame => rfl
  | executeFrameNoBreaks => rfl
  | other req m' outcome => rfl

theorem Moves.idle {M : Service σ ρ δ ε} {m m' : σ} {control control' : ThreadControl ρ δ ε}
    (h : Moves M m control m' control') (hidle : control.serves = false)
    (hruns : M.LoopRuns control m) : (m' = m ∨ M.Turn m m') ∧ M.LoopRuns control' m' := by
  cases h with
  | execution => exact ⟨.inl rfl, fun _ hcontrol => by split at hcontrol <;> cases hcontrol⟩
  | running =>
      refine ⟨.inl rfl, fun _ hcontrol => ?_⟩
      split at hcontrol
      · assumption
      · cases hcontrol
  | frameEnd => exact ⟨.inl rfl, fun _ hcontrol => by split at hcontrol <;> cases hcontrol⟩
  | vsync => exact ⟨.inl rfl, fun _ hcontrol => by cases hcontrol⟩
  | frameOver => exact ⟨.inl rfl, fun _ hcontrol => by cases hcontrol⟩
  | stopped => exact ⟨.inl rfl, fun _ hcontrol => by split at hcontrol <;> cases hcontrol⟩
  | breaks caller m' hresult =>
      cases caller with
      | execution frameNum =>
          exact ⟨.inr (.executes (hruns frameNum rfl) hresult), fun _ hcontrol => by cases hcontrol⟩
      | executeInstr => cases hidle
      | executeFrame frameNum => cases hidle
  | goesOn caller m' hresult =>
      cases caller with
      | execution frameNum =>
          exact ⟨.inr (.executes (hruns frameNum rfl) hresult), fun _ hcontrol => by cases hcontrol⟩
      | executeInstr => cases hidle
      | executeFrame frameNum => cases hidle
  | throws caller m' error hresult =>
      cases caller with
      | execution frameNum =>
          exact ⟨.inr (.throws (hruns frameNum rfl) hresult), fun _ hcontrol => by cases hcontrol⟩
      | executeInstr => cases hidle
      | executeFrame frameNum => cases hidle
  | exit => cases hidle
  | executeInstr => cases hidle
  | executeFrame => cases hidle
  | executeFrameNoBreaks => cases hidle
  | other req m' outcome => cases hidle

/-! ## One request under way -/

structure Balanced (s : Exchange σ ρ δ ε) : Prop where
  load : s.reqs.entries.length + s.activations.length + s.reqRes.entries.length =
    if s.waiting then 1 else 0
  reqs : s.reqs.maxLength = 10
  reqRes : s.reqRes.maxLength = 10
  requests : s.issued = s.invocations.map Invocation.request ++ s.reqs.entries
  outcomes : s.invocations.map (fun i => i.outcome.map HandlerOutcome.reply) =
    (s.returned ++ s.reqRes.entries.map RequestResult.reply).map some ++
      s.activations.map fun _ => none
  numbers : ∀ a ∈ s.activations, a.number + 1 = s.invocations.length
  sites : ∀ a ∈ s.activations, a.site.serves = false
  serves : s.control.serves = true ↔ s.activations ≠ []

theorem balanced_start (m : σ) : (start m : Exchange σ ρ δ ε).Balanced where
  load := rfl
  reqs := rfl
  reqRes := rfl
  requests := rfl
  outcomes := rfl
  numbers := fun _ ha => absurd ha List.not_mem_nil
  sites := fun _ ha => absurd ha List.not_mem_nil
  serves := by simp [start, ThreadControl.serves]

namespace Balanced

variable {s : Exchange σ ρ δ ε}

theorem load_le (h : s.Balanced) :
    s.reqs.entries.length + s.activations.length + s.reqRes.entries.length ≤ 1 := by
  rw [h.load]
  split <;> decide

theorem keeps_reqs (h : s.Balanced) (req : Request ρ) :
    (s.reqs.push req).entries = s.reqs.entries ++ [req] := by
  have hle := h.load_le
  have hmax := h.reqs
  exact TQueue.entries_push (by omega) req

theorem keeps_reqRes (h : s.Balanced) (response : RequestResult δ ε) :
    (s.reqRes.push response).entries = s.reqRes.entries ++ [response] := by
  have hle := h.load_le
  have hmax := h.reqRes
  exact TQueue.entries_push (by omega) response

theorem clientStep (h : s.Balanced) {t : Exchange σ ρ δ ε} (hstep : ClientStep s t) :
    t.Balanced := by
  cases hstep with
  | call req hidle =>
      have hload := h.load
      rw [hidle, if_neg Bool.false_ne_true] at hload
      refine { h with load := ?_, requests := ?_ }
      · change (s.reqs.push req).entries.length + s.activations.length + s.reqRes.entries.length = 1
        rw [h.keeps_reqs req, List.length_append, List.length_singleton]
        omega
      · rw [h.keeps_reqs req, h.requests, List.append_assoc]
  | returns response rest hwaiting hpop =>
      obtain ⟨hentries, hmax⟩ := TQueue.pop_eq_some hpop
      have hload := h.load
      rw [hwaiting, if_pos rfl, hentries, List.length_cons] at hload
      refine { h with load := ?_, reqRes := hmax.trans h.reqRes, outcomes := ?_ }
      · change s.reqs.entries.length + s.activations.length + rest.entries.length = 0
        omega
      · rw [h.outcomes, hentries, List.map_cons, List.append_assoc, List.singleton_append]

theorem moves (h : s.Balanced) {m : σ} {control : ThreadControl ρ δ ε}
    (hserves : control.serves = s.control.serves) :
    { s with machine := m, control := control }.Balanced :=
  { h with serves := by rw [hserves]; exact h.serves }

theorem not_serves_of_pop (h : s.Balanced) {site : PollSite} {req : Request ρ}
    {rest : TQueue (Request ρ)} (hcontrol : s.control = .poll site)
    (hpop : s.reqs.pop = some (req, rest)) : s.activations = [] ∧ site.serves = false := by
  have hle := h.load_le
  rw [(TQueue.pop_eq_some hpop).1, List.length_cons] at hle
  have hactivations : s.activations = [] := List.eq_nil_of_length_eq_zero (by omega)
  have hserves := h.serves
  rw [hcontrol, hactivations] at hserves
  exact ⟨hactivations, Bool.eq_false_iff.mpr fun htrue => hserves.mp htrue rfl⟩

theorem accept (h : s.Balanced) {site : PollSite} {req : Request ρ} {rest : TQueue (Request ρ)}
    (hcontrol : s.control = .poll site) (hpop : s.reqs.pop = some (req, rest)) :
    (s.accept site req rest).Balanced := by
  obtain ⟨hentries, hmax⟩ := TQueue.pop_eq_some hpop
  obtain ⟨hactivations, hsite⟩ := h.not_serves_of_pop hcontrol hpop
  have hle := h.load_le
  rw [hentries, List.length_cons] at hle
  have hreqRes : s.reqRes.entries = [] := List.eq_nil_of_length_eq_zero (by omega)
  have hload := h.load
  have hrequests := h.requests
  have houtcomes := h.outcomes
  rw [hentries, hactivations, hreqRes] at hload
  rw [hentries] at hrequests
  rw [hactivations, hreqRes] at houtcomes
  constructor
  · change rest.entries.length + (s.activations.length + 1) + s.reqRes.entries.length = _
    rw [hactivations, hreqRes]
    exact (Nat.add_right_comm _ _ _).trans hload
  · exact hmax.trans h.reqs
  · exact h.reqRes
  · simp only [Exchange.accept, List.map_append, List.append_assoc]
    exact hrequests
  · simp only [Exchange.accept, hactivations, hreqRes, List.map_append, houtcomes, List.map_nil,
      List.append_nil]
    rfl
  · intro a ha
    change a ∈ ⟨site, s.invocations.length⟩ :: s.activations at ha
    rw [hactivations, List.mem_singleton] at ha
    rw [ha, Exchange.accept, List.length_append, List.length_singleton]
  · intro a ha
    change a ∈ ⟨site, s.invocations.length⟩ :: s.activations at ha
    rw [hactivations, List.mem_singleton] at ha
    rw [ha]
    exact hsite
  · exact iff_of_true rfl (List.cons_ne_nil _ _)

theorem respond (h : s.Balanced) (M : Service σ ρ δ ε) {outcome : HandlerOutcome δ ε}
    {a : Activation} {rest : List Activation} (hactivations : s.activations = a :: rest) :
    (s.respond M outcome a rest).Balanced := by
  have hle := h.load_le
  rw [hactivations, List.length_cons] at hle
  have hrest : rest = [] := List.eq_nil_of_length_eq_zero (by omega)
  have hreqRes : s.reqRes.entries = [] := List.eq_nil_of_length_eq_zero (by omega)
  subst hrest
  have hload := h.load
  have houtcomes := h.outcomes
  rw [hactivations, hreqRes] at hload houtcomes
  have hnumber := h.numbers a (by rw [hactivations]; exact List.mem_singleton_self a)
  have hsite := h.sites a (by rw [hactivations]; exact List.mem_singleton_self a)
  have hpush := h.keeps_reqRes outcome.response
  rw [hreqRes, List.nil_append] at hpush
  obtain ⟨done, i, hdone⟩ : ∃ done i, s.invocations = done ++ [i] := by
    rcases List.eq_nil_or_concat s.invocations with hnil | ⟨done, i, hconcat⟩
    · rw [hnil] at hnumber
      exact absurd hnumber (Nat.succ_ne_zero _)
    · exact ⟨done, i, hconcat.trans (List.concat_eq_append ..)⟩
  have hlength : a.number = done.length := by
    rw [hdone, List.length_append] at hnumber
    exact Nat.succ.inj hnumber
  have hmodify : s.invocations.modify a.number (fun i => { i with outcome := some outcome }) =
      done ++ [{ i with outcome := some outcome }] := by
    rw [hdone, hlength, modify_concat]
  rw [hdone, List.map_append, List.map_nil, List.append_nil] at houtcomes
  obtain ⟨hdoneOutcomes, -⟩ := List.append_inj' houtcomes rfl
  constructor
  · change s.reqs.entries.length + 0 + (s.reqRes.push outcome.response).entries.length = _
    rw [hpush]
    exact hload
  · exact h.reqs
  · exact h.reqRes
  · change s.issued = (s.invocations.modify a.number _).map Invocation.request ++ s.reqs.entries
    rw [hmodify, h.requests, hdone, List.map_append, List.map_append]
    rfl
  · change (s.invocations.modify a.number _).map _ =
      (s.returned ++ (s.reqRes.push outcome.response).entries.map _).map some ++ []
    rw [hmodify, hpush, List.map_append, hdoneOutcomes, List.append_nil, List.map_append]
    simp
  · exact fun _ ha => absurd ha List.not_mem_nil
  · exact fun _ ha => absurd ha List.not_mem_nil
  · refine iff_of_false ?_ fun hne => hne rfl
    change ¬ (M.polled s.machine a.site true).2.serves = true
    rw [M.serves_polled, hsite]
    exact Bool.false_ne_true

theorem threadStep (h : s.Balanced) {M : Service σ ρ δ ε} {t : Exchange σ ρ δ ε}
    (hstep : ThreadStep M s t) : t.Balanced := by
  cases hstep with
  | moves m control hmoves => exact h.moves hmoves.serves
  | accept site req rest hcontrol hpop => exact h.accept hcontrol hpop
  | misses site hcontrol _ _ =>
      refine h.moves ?_
      rw [M.serves_polled, hcontrol]
      rfl
  | responds outcome a rest _ hactivations => exact h.respond M hactivations

theorem step (h : s.Balanced) {M : Service σ ρ δ ε} {t : Exchange σ ρ δ ε} (hstep : Step M s t) :
    t.Balanced := by
  rcases hstep with hclient | hthread
  · exact h.clientStep hclient
  · exact h.threadStep hthread

end Balanced

/-! ## Every accepted request is answered -/

def Answered (s : Exchange σ ρ δ ε) : Prop := s.reqRes.entries ≠ []

def goTo (s : Exchange σ ρ δ ε) (m : σ) (control : ThreadControl ρ δ ε) : Exchange σ ρ δ ε :=
  { s with machine := m, control := control }

theorem Balanced.step_cases {s t : Exchange σ ρ δ ε} {M : Service σ ρ δ ε} (h : s.Balanced)
    (hactive : s.activations ≠ []) (hstep : Step M s t) :
    (∃ m control, Moves M s.machine s.control m control ∧ t = s.goTo m control) ∨
      (∃ site, s.control = .poll site ∧
        t = s.goTo (M.polled s.machine site false).1 (M.polled s.machine site false).2) ∨
      (∃ outcome, s.control = .answer outcome) ∧ t.Answered := by
  have hle := h.load_le
  have hload := h.load
  have hone : 0 < s.activations.length := List.length_pos_iff.mpr hactive
  have hreqs : s.reqs.entries = [] := List.eq_nil_of_length_eq_zero (by omega)
  have hreqRes : s.reqRes.entries = [] := List.eq_nil_of_length_eq_zero (by omega)
  rcases hstep with hclient | hthread
  · cases hclient with
    | call req hidle =>
        rw [hidle, if_neg Bool.false_ne_true] at hload
        omega
    | returns response rest _ hpop =>
        have hentries := (TQueue.pop_eq_some hpop).1
        rw [hreqRes] at hentries
        exact absurd hentries (List.cons_ne_nil _ _).symm
  · cases hthread with
    | moves m control hmoves => exact .inl ⟨m, control, hmoves, rfl⟩
    | accept site req rest _ hpop =>
        have hentries := (TQueue.pop_eq_some hpop).1
        rw [hreqs] at hentries
        exact absurd hentries (List.cons_ne_nil _ _).symm
    | misses site hcontrol _ _ => exact .inr (.inl ⟨site, hcontrol, rfl⟩)
    | responds outcome a rest hcontrol _ =>
        refine .inr (.inr ⟨⟨outcome, hcontrol⟩, ?_⟩)
        change (s.reqRes.push outcome.response).entries ≠ []
        rw [h.keeps_reqRes]
        exact List.append_ne_nil_of_right_ne_nil _ (List.cons_ne_nil _ _)

theorem exists_moves_instruction {M : Service σ ρ δ ε} {m : σ}
    (h : ∃ m' result, M.instruction m m' result) (caller : InstructionCaller) :
    ∃ m' control', Moves M m (.instruction caller) m' control' := by
  obtain ⟨m', result, hresult⟩ := h
  cases result with
  | error error => exact ⟨_, _, .throws caller m' error hresult⟩
  | ok broke =>
      cases broke with
      | true => exact ⟨_, _, .breaks caller m' hresult⟩
      | false => exact ⟨_, _, .goesOn caller m' hresult⟩

theorem exists_moves_handling {M : Service σ ρ δ ε} {m : σ} {req : Request ρ}
    (h : M.Returns req m) : ∃ m' control', Moves M m (.handling req) m' control' := by
  cases req with
  | exit => exact ⟨_, _, .exit⟩
  | executeInstr => exact ⟨_, _, .executeInstr⟩
  | executeFrame => exact ⟨_, _, .executeFrame⟩
  | executeFrameNoBreaks => exact ⟨_, _, .executeFrameNoBreaks⟩
  | other req =>
      obtain ⟨m', outcome, hhandler⟩ := h
      exact ⟨_, _, .other req m' outcome hhandler⟩

section Handler

variable {M : Service σ ρ δ ε} {s : Exchange σ ρ δ ε} (h : s.Balanced)
  (hactive : s.activations ≠ [])

include h hactive

theorem balanced_goTo (m : σ) {control : ThreadControl ρ δ ε} (hserves : control.serves = true) :
    (s.goTo m control).Balanced :=
  h.moves (hserves.trans (h.serves.mpr hactive).symm)

theorem answered_answer (m : σ) (outcome : HandlerOutcome δ ε) :
    Runs.Inevitable (Step M) Answered (s.goTo m (.answer outcome)) := by
  obtain ⟨a, rest, hcons⟩ := List.exists_cons_of_ne_nil hactive
  refine .later ⟨_, .inr (.responds _ outcome a rest rfl hcons)⟩ fun t hstep => ?_
  rcases (balanced_goTo h hactive m rfl).step_cases hactive hstep with
    ⟨_, _, hmoves, _⟩ | ⟨_, hcontrol, _⟩ | ⟨_, hanswered⟩
  · cases hmoves
  · cases hcontrol
  · exact .now hanswered

theorem answered_moves (m : σ) {control : ThreadControl ρ δ ε}
    (hserves : control.serves = true) (hpoll : ∀ site, control ≠ .poll site)
    (hanswer : ∀ outcome, control ≠ .answer outcome)
    (hgo : ∃ m' control', Moves M m control m' control')
    (hmoves : ∀ m' control', Moves M m control m' control' →
      Runs.Inevitable (Step M) Answered (s.goTo m' control')) :
    Runs.Inevitable (Step M) Answered (s.goTo m control) := by
  obtain ⟨m', control', hfirst⟩ := hgo
  refine .later ⟨_, .inr (.moves _ m' control' hfirst)⟩ fun t hstep => ?_
  rcases (balanced_goTo h hactive m hserves).step_cases hactive hstep with
    ⟨m', control', hm, rfl⟩ | ⟨site, hsite, _⟩ | ⟨⟨outcome, houtcome⟩, _⟩
  · exact hmoves m' control' hm
  · exact absurd hsite (hpoll site)
  · exact absurd houtcome (hanswer outcome)

theorem answered_poll (m : σ) {caller : InstructionCaller} (hserves : caller.serves = true)
    (hnext : Runs.Inevitable (Step M) Answered
      (s.goTo (M.executed m caller false).1 (M.executed m caller false).2)) :
    Runs.Inevitable (Step M) Answered (s.goTo m (.poll (.instruction caller))) := by
  have hle := h.load_le
  have hone : 0 < s.activations.length := List.length_pos_iff.mpr hactive
  have hreqs : s.reqs.entries = [] := List.eq_nil_of_length_eq_zero (by omega)
  have hpop : s.reqs.pop = none := by
    rw [TQueue.pop, hreqs]
  have hbalanced : (s.goTo m (.poll (.instruction caller))).Balanced :=
    balanced_goTo h hactive m hserves
  refine .later ⟨_, .inr (.misses _ _ rfl (fun hwait => by cases hwait) hpop)⟩ fun t hstep => ?_
  rcases hbalanced.step_cases hactive hstep with
    ⟨_, _, hmoves, _⟩ | ⟨site, hcontrol, rfl⟩ | ⟨⟨_, hcontrol⟩, _⟩
  · cases hmoves
  · cases hcontrol
    exact hnext
  · cases hcontrol

theorem answered_instruction (m : σ) {caller : InstructionCaller} (hserves : caller.serves = true)
    (hresult : ∃ m' result, M.instruction m m' result)
    (hnext : ∀ m' broke, M.instruction m m' (.ok broke) → Runs.Inevitable (Step M) Answered
      (s.goTo (M.executed m' caller broke).1 (M.executed m' caller broke).2)) :
    Runs.Inevitable (Step M) Answered (s.goTo m (.instruction caller)) := by
  refine answered_moves h hactive m hserves (fun _ hcontrol => by cases hcontrol)
    (fun _ hcontrol => by cases hcontrol) (exists_moves_instruction hresult caller) ?_
  intro m' control' hmoves
  cases hmoves with
  | breaks _ m' hresult => exact hnext m' true hresult
  | goesOn _ _ hresult => exact answered_poll h hactive m' hserves (hnext m' false hresult)
  | throws _ _ error hresult =>
      cases caller with
      | execution frameNum => cases hserves
      | executeInstr => exact answered_answer h hactive m' (.exception error)
      | executeFrame frameNum => exact answered_answer h hactive m' (.exception error)

theorem answered_executeInstr (m : σ) (hresult : ∃ m' result, M.instruction m m' result) :
    Runs.Inevitable (Step M) Answered (s.goTo m (.instruction .executeInstr)) :=
  answered_instruction h hactive m rfl hresult fun _ _ _ =>
    answered_answer h hactive _ (.data none)

theorem answered_executeFrame {frameNum : BitVec 64} {m : σ} (hends : M.FrameEnds frameNum m) :
    Runs.Inevitable (Step M) Answered (s.goTo m (.instruction (.executeFrame frameNum))) := by
  induction hends with
  | intro hresult _ ih =>
      refine answered_instruction h hactive _ rfl hresult fun m' broke hexecuted => ?_
      simp only [Service.executed]
      split
      · exact ih m' broke hexecuted ‹_›
      · exact answered_answer h hactive _ (.data none)

theorem answered_handling (m : σ) {req : Request ρ} (hreturns : M.Returns req m) :
    Runs.Inevitable (Step M) Answered (s.goTo m (.handling req)) := by
  refine answered_moves h hactive m rfl (fun _ hcontrol => by cases hcontrol)
    (fun _ hcontrol => by cases hcontrol) (exists_moves_handling hreturns) ?_
  intro m' control' hmoves
  cases hmoves with
  | exit => exact answered_answer h hactive _ (.data none)
  | executeInstr => exact answered_executeInstr h hactive m hreturns
  | executeFrame => exact answered_executeFrame h hactive hreturns
  | executeFrameNoBreaks => exact answered_executeFrame h hactive hreturns
  | other req m' outcome _ => exact answered_answer h hactive m' outcome

theorem answered_calls {req : Request ρ} {began m : σ} {caller : InstructionCaller}
    (hreturns : M.Returns req began) (hcalls : M.Calls req began caller m) :
    Runs.Inevitable (Step M) Answered (s.goTo m (.instruction caller)) := by
  cases caller with
  | execution frameNum => exact hcalls.elim
  | executeInstr => exact answered_executeInstr h hactive m (hcalls.exists_result hreturns)
  | executeFrame frameNum => exact answered_executeFrame h hactive (hcalls.2 hreturns)

theorem answered_executed {req : Request ρ} {began before m : σ} {caller : InstructionCaller}
    {broke : Bool} (hreturns : M.Returns req began) (hcalls : M.Calls req began caller before)
    (hresult : M.instruction before m (.ok broke)) : Runs.Inevitable (Step M) Answered
      (s.goTo (M.executed m caller broke).1 (M.executed m caller broke).2) := by
  have hnext := hcalls.executed hresult
  cases caller with
  | execution frameNum => exact hcalls.elim
  | executeInstr => exact answered_answer h hactive _ (.data none)
  | executeFrame frameNum =>
      by_cases hsame : M.frameNum m = frameNum
      · simp only [Service.executed, if_pos hsame] at hnext ⊢
        have hagain : M.Calls req began (.executeFrame frameNum) m := hnext
        exact answered_calls h hactive hreturns hagain
      · simp only [Service.executed, if_neg hsame]
        exact answered_answer h hactive _ (.data none)

theorem answered_underway {req : Request ρ} {began m : σ} {control : ThreadControl ρ δ ε}
    (hreturns : M.Returns req began) (hunderway : M.Underway req began control m) :
    Runs.Inevitable (Step M) Answered (s.goTo m control) := by
  cases control with
  | handling accepted =>
      obtain ⟨rfl, rfl⟩ := hunderway
      exact answered_handling h hactive m hreturns
  | answer outcome => exact answered_answer h hactive m outcome
  | instruction caller => exact answered_calls h hactive hreturns hunderway
  | poll site =>
      cases site with
      | instruction caller =>
          obtain ⟨before, hcalls, hresult⟩ := hunderway
          exact answered_poll h hactive m hcalls.serves
            (answered_executed h hactive hreturns hcalls hresult)
      | _ => exact hunderway.elim
  | _ => exact hunderway.elim

end Handler

/-! ## Every request is accepted -/

def pollDistance (status : Status) : ThreadControl ρ δ ε → Nat
  | .execution =>
      match status with
      | .exit => 1
      | .stop => 3
      | .run => 6
  | .running =>
      match status with
      | .exit => 3
      | .stop => 2
      | .run => 5
  | .instruction _ => 4
  | .frameEnd =>
      match status with
      | .exit => 4
      | .stop => 3
      | .run => 7
  | .vsync => 6
  | .stopped =>
      match status with
      | .exit => 2
      | .stop => 1
      | .run => 7
  | _ => 0

theorem Moves.pollDistance_lt {M : Service σ ρ δ ε} {m m' : σ}
    {control control' : ThreadControl ρ δ ε} (h : Moves M m control m' control')
    (hserves : control.serves = false) : control'.over = true ∨
      pollDistance (M.status m') control' < pollDistance (M.status m) control := by
  cases h with
  | execution => cases M.status m <;> simp [pollDistance]
  | running => cases M.status m <;> simp [pollDistance]
  | frameEnd => cases M.status m <;> simp [pollDistance]
  | vsync => exact .inr (Nat.zero_lt_succ _)
  | frameOver => cases M.status m <;> simp [pollDistance]
  | stopped => cases M.status m <;> simp [pollDistance]
  | breaks caller m' =>
      cases caller with
      | execution frameNum => simp [Service.executed, pollDistance, M.status_halt]
      | executeInstr => cases hserves
      | executeFrame frameNum => cases hserves
  | goesOn caller m' => exact .inr (Nat.zero_lt_succ _)
  | throws caller m' error =>
      cases caller with
      | execution frameNum => exact .inl rfl
      | executeInstr => cases hserves
      | executeFrame frameNum => cases hserves
  | exit => cases hserves
  | executeInstr => cases hserves
  | executeFrame => cases hserves
  | executeFrameNoBreaks => cases hserves
  | other req m' outcome => cases hserves

theorem exists_moves_idle {M : Service σ ρ δ ε} {m : σ} {control : ThreadControl ρ δ ε}
    (hidle : control.serves = false) (hover : control.over = false)
    (hresult : ∃ m' result, M.instruction m m' result) :
    (∃ m' control', Moves M m control m' control') ∨ ∃ site, control = .poll site := by
  cases control with
  | execution => exact .inl ⟨_, _, .execution⟩
  | running => exact .inl ⟨_, _, .running⟩
  | instruction caller => exact .inl (exists_moves_instruction hresult caller)
  | frameEnd => exact .inl ⟨_, _, .frameEnd⟩
  | vsync => exact .inl ⟨_, _, .vsync⟩
  | stopped => exact .inl ⟨_, _, .stopped⟩
  | poll site => exact .inr ⟨site, rfl⟩
  | handling req => cases hidle
  | answer outcome => cases hidle
  | finished => cases hover
  | terminated => cases hover

/-- A request waits in the first queue, and the thread, which has made turns since `m`, is there
to take it. -/
structure Queued (M : Service σ ρ δ ε) (m : σ) (req : Request ρ) (s : Exchange σ ρ δ ε) : Prop
    extends Balanced s where
  queued : s.reqs.entries = [req]
  serving : s.control.over = false
  runs : M.LoopRuns s.control s.machine
  turned : Runs.Reachable (fun m' => m' = m) M.Turn s.machine

namespace Queued

variable {M : Service σ ρ δ ε} {m : σ} {req : Request ρ} {s : Exchange σ ρ δ ε}

theorem activations (h : s.Queued M m req) : s.activations = [] := by
  have hle := h.load_le
  rw [h.queued, List.length_singleton] at hle
  exact List.eq_nil_of_length_eq_zero (by omega)

theorem control_serves (h : s.Queued M m req) : s.control.serves = false :=
  Bool.eq_false_iff.mpr fun htrue => h.serves.mp htrue h.activations

theorem pop (h : s.Queued M m req) :
    s.reqs.pop = some (req, { s.reqs with entries := [] }) := by
  rw [TQueue.pop, h.queued]

theorem exists_step (h : s.Queued M m req) (hreturns : M.ReturnsLater req m) :
    ∃ t, Step M s t := by
  rcases exists_moves_idle h.control_serves h.serving (hreturns _ h.turned).1 with
    ⟨m', control, hmoves⟩ | ⟨site, hsite⟩
  · exact ⟨_, .inr (.moves s m' control hmoves)⟩
  · exact ⟨_, .inr (.accept s site req _ hsite h.pop)⟩

theorem step (h : s.Queued M m req) (hreturns : M.ReturnsLater req m) {t : Exchange σ ρ δ ε}
    (hstep : Step M s t) :
    (Runs.Inevitable (Step M) Answered t ∨ t.control.over = true) ∨
      t.Queued M m req ∧ pollDistance (M.status t.machine) t.control <
        pollDistance (M.status s.machine) s.control := by
  have hle := h.load_le
  have hload := h.load
  rw [h.queued, List.length_singleton] at hle hload
  rcases hstep with hclient | hthread
  · cases hclient with
    | call req hidle =>
        rw [hidle, if_neg Bool.false_ne_true] at hload
        omega
    | returns response rest _ hpop =>
        rw [(TQueue.pop_eq_some hpop).1, List.length_cons] at hle
        omega
  · cases hthread with
    | moves m' control hmoves =>
        rcases hmoves.pollDistance_lt h.control_serves with hover | hlt
        · exact .inl (.inr hover)
        · obtain ⟨hturn, hruns⟩ := hmoves.idle h.control_serves h.runs
          cases hover : control.over with
          | true => exact .inl (.inr rfl)
          | false =>
              refine .inr ⟨⟨h.toBalanced.moves hmoves.serves, h.queued, hover, hruns, ?_⟩, hlt⟩
              rcases hturn with rfl | hturn
              · exact h.turned
              · exact h.turned.step hturn
    | accept site req' rest hcontrol hpop =>
        rw [h.pop, Option.some_inj, Prod.mk.injEq] at hpop
        obtain ⟨rfl, rfl⟩ := hpop
        have hbalanced := h.toBalanced.accept hcontrol h.pop
        exact .inl (.inl (answered_handling hbalanced (List.cons_ne_nil _ _) s.machine
          (hreturns _ h.turned).2))
    | misses site _ _ hpop =>
        rw [h.pop] at hpop
        cases hpop
    | responds outcome a rest _ hactivations =>
        rw [h.activations] at hactivations
        cases hactivations

theorem replied (h : s.Queued M m req) (hreturns : M.ReturnsLater req m) :
    Runs.Inevitable (Step M) (fun t => t.Answered ∨ t.control.over = true) s := by
  have haccepted : Runs.Inevitable (Step M)
      (fun t => Runs.Inevitable (Step M) Answered t ∨ t.control.over = true) s :=
    Runs.Inevitable.of_rank (fun s => pollDistance (M.status s.machine) s.control)
      (fun _ hs => hs.exists_step hreturns) (fun _ _ hs hstep => hs.step hreturns hstep) h
  refine haccepted.trans fun t ht => ?_
  rcases ht with hanswered | hover
  · exact hanswered.trans fun _ hdone => .now (.inl hdone)
  · exact .now (.inr hover)

end Queued

/-! ## Requests are handled one at a time -/

/-- What the thread has executed so far, from `e` on, and the handler that it is in. -/
inductive Follows (M : Service σ ρ δ ε) (e : σ) (s : Exchange σ ρ δ ε) : Prop where
  | idle : s.activations = [] → M.LoopRuns s.control s.machine →
      M.Served e s.invocations s.machine → Follows M e s
  | handling {served : List (Invocation σ ρ δ ε)} {req : Request ρ} {began : σ} :
      s.activations ≠ [] → M.Served e served began →
      s.invocations = served ++ [⟨req, began, none⟩] →
      M.Underway req began s.control s.machine → Follows M e s

namespace Follows

variable {M : Service σ ρ δ ε} {e : σ} {s : Exchange σ ρ δ ε}

theorem start (M : Service σ ρ δ ε) (e : σ) : (start e : Exchange σ ρ δ ε).Follows M e :=
  .idle rfl (fun _ hcontrol => by cases hcontrol) .start

theorem moves (h : s.Follows M e) (hs : s.Balanced) {m : σ} {control : ThreadControl ρ δ ε}
    (hmoves : Moves M s.machine s.control m control) : (s.goTo m control).Follows M e := by
  cases h with
  | idle hidle hruns hserved =>
      have hserves : s.control.serves = false :=
        Bool.eq_false_iff.mpr fun htrue => hs.serves.mp htrue hidle
      obtain ⟨hturn, hruns'⟩ := hmoves.idle hserves hruns
      refine .idle hidle hruns' ?_
      rcases hturn with rfl | hturn
      · exact hserved
      · exact hserved.turn hturn
  | handling hactive hserved hlast hunderway =>
      exact .handling hactive hserved hlast (hunderway.moves hmoves)

theorem accept (h : s.Follows M e) (hidle : s.activations = []) (site : PollSite)
    (req : Request ρ) (rest : TQueue (Request ρ)) : (s.accept site req rest).Follows M e := by
  cases h with
  | idle _ _ hserved => exact .handling (List.cons_ne_nil _ _) hserved rfl ⟨rfl, rfl⟩
  | handling hactive _ _ _ => exact absurd hidle hactive

theorem misses (h : s.Follows M e) (hs : s.Balanced) {site : PollSite}
    (hcontrol : s.control = .poll site) :
    (s.goTo (M.polled s.machine site false).1 (M.polled s.machine site false).2).Follows M e := by
  cases h with
  | idle hidle _ hserved =>
      have hsite : site.serves = false := by
        have hserves := hs.serves
        rw [hcontrol] at hserves
        exact Bool.eq_false_iff.mpr fun htrue => hserves.mp htrue hidle
      obtain ⟨hsame, hruns⟩ := M.polled_idle s.machine hsite false
      refine .idle hidle hruns ?_
      change M.Served e s.invocations (M.polled s.machine site false).1
      rw [hsame]
      exact hserved
  | handling hactive hserved hlast hunderway =>
      rw [hcontrol] at hunderway
      exact .handling hactive hserved hlast hunderway.polled

theorem respond (h : s.Follows M e) (hs : s.Balanced) {outcome : HandlerOutcome δ ε}
    {a : Activation} {rest : List Activation} (hcontrol : s.control = .answer outcome)
    (hactivations : s.activations = a :: rest) : (s.respond M outcome a rest).Follows M e := by
  have hle := hs.load_le
  rw [hactivations, List.length_cons] at hle
  have hrest : rest = [] := List.eq_nil_of_length_eq_zero (by omega)
  have hmem : a ∈ s.activations := by
    rw [hactivations]
    exact List.mem_cons_self
  cases h with
  | idle hidle _ _ =>
      rw [hidle] at hactivations
      cases hactivations
  | @handling served req began _ hserved hlast hunderway =>
      rw [hcontrol] at hunderway
      have hnumber := hs.numbers a hmem
      rw [hlast, List.length_append] at hnumber
      have hlength : a.number = served.length := Nat.succ.inj hnumber
      obtain ⟨hsame, hruns⟩ := M.polled_idle s.machine (hs.sites a hmem) true
      refine .idle hrest hruns ?_
      have hdone : (s.respond M outcome a rest).invocations =
          served ++ [⟨req, began, some outcome⟩] := by
        rw [Exchange.respond, hlast, hlength, modify_concat]
      rw [hdone]
      change M.Served e _ (M.polled s.machine a.site true).1
      rw [hsame]
      exact hserved.request hunderway

theorem step (h : s.Follows M e) (hs : s.Balanced) {t : Exchange σ ρ δ ε} (hstep : Step M s t) :
    t.Follows M e := by
  rcases hstep with hclient | hthread
  · cases hclient with
    | call req _ => cases h with
      | idle hidle hruns hserved => exact .idle hidle hruns hserved
      | handling hactive hserved hlast hunderway =>
          exact .handling hactive hserved hlast hunderway
    | returns response rest _ _ => cases h with
      | idle hidle hruns hserved => exact .idle hidle hruns hserved
      | handling hactive hserved hlast hunderway =>
          exact .handling hactive hserved hlast hunderway
  · cases hthread with
    | moves m control hmoves => exact h.moves hs hmoves
    | accept site req rest hcontrol hpop =>
        exact h.accept (hs.not_serves_of_pop hcontrol hpop).1 site req rest
    | misses site hcontrol _ _ => exact h.misses hs hcontrol
    | responds outcome a rest hcontrol hactivations => exact h.respond hs hcontrol hactivations

end Follows

/-! ## Pairing -/

/-- The requests accepted so far, each handled once and behind what came before it. -/
inductive Executed (M : Service σ ρ δ ε) (e : σ) (s : Exchange σ ρ δ ε) : Prop where
  | idle : M.Served e s.invocations s.machine → Executed M e s
  | handling {served : List (Invocation σ ρ δ ε)} {req : Request ρ} {began : σ} :
      M.Served e served began → s.invocations = served ++ [⟨req, began, none⟩] → Executed M e s

/-- Each call of `Request` is answered with the outcome of its own handler. -/
structure Paired (M : Service σ ρ δ ε) (e : σ) (s : Exchange σ ρ δ ε) : Prop where
  returns : ∀ (k : Nat) (reply : Reply δ ε), s.returned[k]? = some reply →
    ∃ (i : Invocation σ ρ δ ε) (outcome : HandlerOutcome δ ε), s.invocations[k]? = some i ∧
      s.issued[k]? = some i.request ∧ i.outcome = some outcome ∧ reply = outcome.reply
  requests : s.issued = s.invocations.map Invocation.request ++ s.reqs.entries
  executed : s.Executed M e
  responses : (s.invocations.filterMap Invocation.outcome).map HandlerOutcome.reply =
    s.returned ++ s.reqRes.entries.map RequestResult.reply
  keepsRequests : ∀ req, (s.reqs.push req).entries = s.reqs.entries ++ [req]
  keepsResponses : ∀ response, (s.reqRes.push response).entries = s.reqRes.entries ++ [response]
  answered : ∀ i ∈ s.invocations, i.outcome = none → M.Returns i.request i.began →
    Runs.Inevitable (Step M) Answered s
  replied : ∀ req ∈ s.reqs.entries, M.ReturnsLater req s.machine →
    Runs.Inevitable (Step M) (fun t => t.Answered ∨ t.control.over = true) s

theorem Balanced.returns {s : Exchange σ ρ δ ε} (h : s.Balanced) (k : Nat) (reply : Reply δ ε)
    (hreply : s.returned[k]? = some reply) :
    ∃ (i : Invocation σ ρ δ ε) (outcome : HandlerOutcome δ ε), s.invocations[k]? = some i ∧
      s.issued[k]? = some i.request ∧ i.outcome = some outcome ∧ reply = outcome.reply := by
  have houtcomes := congrArg (fun l => l[k]?) h.outcomes
  obtain ⟨hlt, _⟩ := List.getElem?_eq_some_iff.mp hreply
  simp only [List.map_append, List.append_assoc, List.getElem?_map] at houtcomes
  rw [List.getElem?_append_left (by rwa [List.length_map]), List.getElem?_map, hreply,
    Option.map_some] at houtcomes
  obtain ⟨i, hinvocation, hsome⟩ := Option.map_eq_some_iff.mp houtcomes
  obtain ⟨outcome, houtcome, hsame⟩ := Option.map_eq_some_iff.mp hsome
  obtain ⟨hshort, _⟩ := List.getElem?_eq_some_iff.mp hinvocation
  refine ⟨i, outcome, hinvocation, ?_, houtcome, hsame.symm⟩
  rw [h.requests, List.getElem?_append_left (by rwa [List.length_map]), List.getElem?_map,
    hinvocation, Option.map_some]

theorem Balanced.responses {s : Exchange σ ρ δ ε} (h : s.Balanced) :
    (s.invocations.filterMap Invocation.outcome).map HandlerOutcome.reply =
      s.returned ++ s.reqRes.entries.map RequestResult.reply := by
  have houtcomes := congrArg (List.filterMap id) h.outcomes
  have hwaiting : s.activations.filterMap (id ∘ fun _ => (none : Option (Reply δ ε))) = [] :=
    List.filterMap_eq_nil_iff.mpr fun _ _ => rfl
  rw [List.filterMap_append, List.filterMap_map, List.filterMap_map, List.filterMap_map, hwaiting,
    List.append_nil, Function.id_comp, Function.id_comp, List.filterMap_some] at houtcomes
  rw [List.map_filterMap]
  exact houtcomes

theorem Follows.executed {M : Service σ ρ δ ε} {e : σ} {s : Exchange σ ρ δ ε}
    (h : s.Follows M e) : s.Executed M e := by
  cases h with
  | idle _ _ hserved => exact .idle hserved
  | handling _ hserved hlast _ => exact .handling hserved hlast

theorem Follows.answered {M : Service σ ρ δ ε} {e : σ} {s : Exchange σ ρ δ ε}
    (h : s.Follows M e) (hs : s.Balanced) (i : Invocation σ ρ δ ε) (hi : i ∈ s.invocations)
    (hnone : i.outcome = none) (hreturns : M.Returns i.request i.began) :
    Runs.Inevitable (Step M) Answered s := by
  cases h with
  | idle _ _ hserved =>
      have hdone := hserved.outcome_isSome i hi
      rw [hnone] at hdone
      cases hdone
  | handling hactive hserved hlast hunderway =>
      rw [hlast] at hi
      rcases List.mem_append.mp hi with hi | hi
      · have hdone := hserved.outcome_isSome i hi
        rw [hnone] at hdone
        cases hdone
      · cases List.mem_singleton.mp hi
        exact answered_underway hs hactive hreturns hunderway

theorem Follows.replied {M : Service σ ρ δ ε} {e : σ} {s : Exchange σ ρ δ ε}
    (h : s.Follows M e) (hs : s.Balanced) (req : Request ρ) (hreq : req ∈ s.reqs.entries)
    (hreturns : M.ReturnsLater req s.machine) :
    Runs.Inevitable (Step M) (fun t => t.Answered ∨ t.control.over = true) s := by
  have hle := hs.load_le
  have hqueued : s.reqs.entries = [req] := by
    obtain ⟨first, hfirst⟩ : ∃ first, s.reqs.entries = [first] :=
      List.length_eq_one_iff.mp (by have hpos := List.length_pos_of_mem hreq; omega)
    rw [hfirst, List.mem_singleton] at hreq
    rw [hfirst, hreq]
  rw [hqueued, List.length_singleton] at hle
  have hidle : s.activations = [] := List.eq_nil_of_length_eq_zero (by omega)
  cases hover : s.control.over with
  | true => exact .now (.inr hover)
  | false =>
      cases h with
      | idle _ hruns _ =>
          have hstart : s.Queued M s.machine req := ⟨hs, hqueued, hover, hruns, .start rfl⟩
          exact hstart.replied hreturns
      | handling hactive _ _ _ => exact absurd hidle hactive

theorem Reachable.follows {M : Service σ ρ δ ε} {e : σ} {s : Exchange σ ρ δ ε}
    (h : Reachable M e s) : s.Balanced ∧ s.Follows M e := by
  refine @Runs.Reachable.invariant _ _ _ (fun s => s.Balanced ∧ s.Follows M e) ?_ ?_ s h
  · rintro s rfl
    exact ⟨balanced_start e, .start M e⟩
  · rintro s t ⟨hs, hfollows⟩ hstep
    exact ⟨hs.step hstep, hfollows.step hs hstep⟩

/-- In every interleaving of the client with the thread, requests and responses stay paired. -/
theorem Reachable.paired {M : Service σ ρ δ ε} {e : σ} {s : Exchange σ ρ δ ε}
    (h : Reachable M e s) : s.Paired M e where
  returns := h.follows.1.returns
  requests := h.follows.1.requests
  executed := h.follows.2.executed
  responses := h.follows.1.responses
  keepsRequests := h.follows.1.keeps_reqs
  keepsResponses := h.follows.1.keeps_reqRes
  answered := h.follows.2.answered h.follows.1
  replied := h.follows.2.replied h.follows.1

def frameRequested : Exchange (Emulator Unit Int) (Emulator.PlainReq Unit Int) Unit Unit where
  machine := Emulator.blank.run
  control := .stopped
  activations := []
  reqs := ⟨[.executeFrame], 10⟩
  reqRes := .new
  waiting := true
  issued := [.other ⟨.run, rfl⟩, .executeFrame]
  invocations := [⟨.other ⟨.run, rfl⟩, Emulator.blank, some (.data none)⟩]
  returned := [.ok (some none)]

theorem frameRequested_reachable :
    Reachable (Emulator.service Unit Unit .silent) Emulator.blank frameRequested := by
  let run : Emulator.PlainReq Unit Int := ⟨.run, rfl⟩
  have hstart : Reachable (Emulator.service Unit Unit .silent) Emulator.blank
      (start Emulator.blank) := .start rfl
  have hcall := hstart.step (.inl (.call _ (.other run) rfl))
  have hrunning := hcall.step (.inr (.moves _ _ _ .execution))
  have hstopped := hrunning.step (.inr (.moves _ _ _ .running))
  have hpoll := hstopped.step (.inr (.moves _ _ _ .stopped))
  have hhandler : (Emulator.service Unit Unit .silent).handler run Emulator.blank
      Emulator.blank.run (.data none) := ⟨0, rfl⟩
  have haccepted := hpoll.step (.inr (.accept _ .stopped (.other run) .new rfl rfl))
  have hhandled := haccepted.step (.inr (.moves _ _ _ (.other _ _ _ hhandler)))
  have hresponded := hhandled.step (.inr (.responds _ (.data none) ⟨.stopped, 0⟩ [] rfl rfl))
  have hreturned := hresponded.step (.inl (.returns _ ⟨none, none, true⟩ .new rfl rfl))
  exact hreturned.step (.inl (.call _ .executeFrame rfl))

/-- A witness: in this state the requests are paired, and the second one will be answered. -/
theorem paired_frameRequested :
    frameRequested.Paired (Emulator.service Unit Unit .silent) Emulator.blank ∧
      Runs.Inevitable (Step (Emulator.service Unit Unit .silent))
        (fun t => t.Answered ∨ t.control.over = true) frameRequested := by
  have hpaired : frameRequested.Paired (Emulator.service Unit Unit .silent) Emulator.blank :=
    frameRequested_reachable.paired
  have hinstep : Emulator.blank.run.hardware.InStep 0 := ⟨rfl, rfl, rfl, rfl⟩
  exact ⟨hpaired, hpaired.replied .executeFrame List.mem_cons_self
    (Emulator.returnsLater_executeFrame ⟨0, hinstep⟩)⟩

end Exchange

end V6Emul
