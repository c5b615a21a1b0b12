import V6Emul.Emulator.Execution
import V6Emul.Emulator.FrameRuns

/-!
# Handling a request

What a handler makes of the machine, stated without its polls, and the machines that whole
requests lead to.  While the thread is inside a handler, it has yet to make of the machine
what the handler as a whole makes of the one that it began with.
-/

namespace V6Emul

variable {σ ρ δ ε : Type}

namespace Service

variable (M : Service σ ρ δ ε)

/-! ## Whole handlers -/

inductive Frame (frameNum : BitVec 64) : σ → σ → HandlerOutcome δ ε → Prop where
  | again {m m₁ m' : σ} {broke : Bool} {outcome : HandlerOutcome δ ε} :
      M.instruction m m₁ (.ok broke) → M.frameNum m₁ = frameNum →
      Frame frameNum m₁ m' outcome → Frame frameNum m m' outcome
  | done {m m' : σ} {broke : Bool} :
      M.instruction m m' (.ok broke) → M.frameNum m' ≠ frameNum →
      Frame frameNum m (M.recordFrameStep m') (.data none)
  | throws {m m' : σ} {error : ε} :
      M.instruction m m' (.error error) → Frame frameNum m m' (.exception error)

/-- What the handler of a request makes of the machine, and how it ends. -/
inductive Handles : Request ρ → σ → σ → HandlerOutcome δ ε → Prop where
  | exit (m : σ) : Handles .exit m (M.exit m) (.data none)
  | executeInstr {m m' : σ} {broke : Bool} : M.instruction m m' (.ok broke) →
      Handles .executeInstr m (if broke then m' else M.recordStep m') (.data none)
  | executeInstrThrows {m m' : σ} {error : ε} : M.instruction m m' (.error error) →
      Handles .executeInstr m m' (.exception error)
  | executeFrame {m m' : σ} {outcome : HandlerOutcome δ ε} :
      M.Frame (M.frameNum m) m m' outcome → Handles .executeFrame m m' outcome
  | executeFrameNoBreaks {m m' : σ} {outcome : HandlerOutcome δ ε} :
      M.Frame (M.frameNum m) m m' outcome → Handles .executeFrameNoBreaks m m' outcome
  | other {req : ρ} {m m' : σ} {outcome : HandlerOutcome δ ε} :
      M.handler req m m' outcome → Handles (.other req) m m' outcome

/-- A turn of the loop of `Execution` over a frame. -/
inductive Turn (m : σ) : σ → Prop where
  | executes {m' : σ} {broke : Bool} : M.status m = .run → M.instruction m m' (.ok broke) →
      Turn m (if broke then M.halt m' else m')
  | throws {m' : σ} {error : ε} : M.status m = .run → M.instruction m m' (.error error) →
      Turn m m'

/-- The machines that whole requests and turns of the loop lead to, from `e` on. -/
inductive Served (e : σ) : List (Invocation σ ρ δ ε) → σ → Prop where
  | start : Served e [] e
  | turn {served : List (Invocation σ ρ δ ε)} {m m' : σ} :
      Served e served m → M.Turn m m' → Served e served m'
  | request {served : List (Invocation σ ρ δ ε)} {req : Request ρ} {m m' : σ}
      {outcome : HandlerOutcome δ ε} :
      Served e served m → M.Handles req m m' outcome →
      Served e (served ++ [⟨req, m, some outcome⟩]) m'

variable {M} in
theorem Served.outcome_isSome {e m : σ} {served : List (Invocation σ ρ δ ε)}
    (h : M.Served e served m) : ∀ i ∈ served, i.outcome.isSome = true := by
  induction h with
  | start => exact fun _ hi => absurd hi List.not_mem_nil
  | turn _ _ ih => exact ih
  | request _ _ ih =>
      intro i hi
      rcases List.mem_append.mp hi with hi | hi
      · exact ih i hi
      · rw [List.mem_singleton.mp hi]
        rfl

/-! ## Handlers that return -/

inductive FrameEnds (frameNum : BitVec 64) : σ → Prop where
  | intro {m : σ} : (∃ m' result, M.instruction m m' result) →
      (∀ m' broke, M.instruction m m' (.ok broke) → M.frameNum m' = frameNum →
        FrameEnds frameNum m') → FrameEnds frameNum m

def Returns : Request ρ → σ → Prop
  | .exit, _ => True
  | .executeInstr, m => ∃ m' result, M.instruction m m' result
  | .executeFrame, m => M.FrameEnds (M.frameNum m) m
  | .executeFrameNoBreaks, m => M.FrameEnds (M.frameNum m) m
  | .other req, m => ∃ m' outcome, M.handler req m m' outcome

/-- It returns in whatever machine the loop, whose instructions end, comes to from here. -/
def ReturnsLater (req : Request ρ) (m : σ) : Prop :=
  ∀ m', Runs.Reachable (fun s => s = m) M.Turn m' →
    (∃ m'' result, M.instruction m' m'' result) ∧ M.Returns req m'

/-! ## Inside a handler -/

def Calls (req : Request ρ) (began : σ) : InstructionCaller → σ → Prop
  | .execution _, _ => False
  | .executeInstr, m => req = .executeInstr ∧ m = began
  | .executeFrame frameNum, m =>
      (∀ m' outcome, M.Frame frameNum m m' outcome → M.Handles req began m' outcome) ∧
        (M.Returns req began → M.FrameEnds frameNum m)

def Underway (req : Request ρ) (began : σ) : ThreadControl ρ δ ε → σ → Prop
  | .handling accepted, m => accepted = req ∧ m = began
  | .instruction caller, m => M.Calls req began caller m
  | .poll (.instruction caller), m =>
      ∃ before, M.Calls req began caller before ∧ M.instruction before m (.ok false)
  | .answer outcome, m => M.Handles req began m outcome
  | _, _ => False

variable {M} {req : Request ρ} {began m m' : σ}

theorem Calls.executed {caller : InstructionCaller} {broke : Bool}
    (h : M.Calls req began caller m) (hresult : M.instruction m m' (.ok broke)) :
    M.Underway req began (M.executed m' caller broke).2 (M.executed m' caller broke).1 := by
  cases caller with
  | execution frameNum => exact h.elim
  | executeInstr =>
      obtain ⟨rfl, rfl⟩ := h
      exact .executeInstr hresult
  | executeFrame frameNum =>
      simp only [Service.executed]
      split
      · have hsame : M.frameNum m' = frameNum := ‹_›
        refine ⟨fun _ _ hframe => h.1 _ _ (.again hresult hsame hframe), fun hreturns => ?_⟩
        cases h.2 hreturns with
        | intro _ hlater => exact hlater m' broke hresult hsame
      · exact h.1 _ _ (.done hresult ‹_›)

theorem Calls.caught {caller : InstructionCaller} {error : ε} (h : M.Calls req began caller m)
    (hresult : M.instruction m m' (.error error)) :
    M.Underway req began (caller.caught error) m' := by
  cases caller with
  | execution frameNum => exact h.elim
  | executeInstr =>
      obtain ⟨rfl, rfl⟩ := h
      exact .executeInstrThrows hresult
  | executeFrame frameNum => exact h.1 _ _ (.throws hresult)

theorem Calls.exists_result {caller : InstructionCaller} (h : M.Calls req began caller m)
    (hreturns : M.Returns req began) : ∃ m' result, M.instruction m m' result := by
  cases caller with
  | execution frameNum => exact h.elim
  | executeInstr =>
      obtain ⟨rfl, rfl⟩ := h
      exact hreturns
  | executeFrame frameNum =>
      cases h.2 hreturns with
      | intro hresult _ => exact hresult

theorem Underway.moves {control control' : ThreadControl ρ δ ε}
    (h : M.Underway req began control m) (hmoves : Exchange.Moves M m control m' control') :
    M.Underway req began control' m' := by
  cases hmoves with
  | execution => exact h.elim
  | running => exact h.elim
  | frameEnd => exact h.elim
  | vsync => exact h.elim
  | frameOver => exact h.elim
  | stopped => exact h.elim
  | breaks caller m' hresult => exact h.executed hresult
  | goesOn caller m' hresult => exact ⟨m, h, hresult⟩
  | throws caller m' error hresult => exact h.caught hresult
  | exit =>
      obtain ⟨rfl, rfl⟩ := h
      exact .exit m
  | executeInstr =>
      obtain ⟨rfl, rfl⟩ := h
      exact ⟨rfl, rfl⟩
  | executeFrame =>
      obtain ⟨rfl, rfl⟩ := h
      exact ⟨fun _ _ => .executeFrame, id⟩
  | executeFrameNoBreaks =>
      obtain ⟨rfl, rfl⟩ := h
      exact ⟨fun _ _ => .executeFrameNoBreaks, id⟩
  | other req m' outcome hhandler =>
      obtain ⟨rfl, rfl⟩ := h
      exact .other hhandler

theorem Underway.polled {site : PollSite} (h : M.Underway req began (.poll site) m) :
    M.Underway req began (M.polled m site false).2 (M.polled m site false).1 := by
  cases site with
  | instruction caller =>
      obtain ⟨before, hcalls, hresult⟩ := h
      exact hcalls.executed hresult
  | vsync => exact h.elim
  | stopped => exact h.elim
  | grace => exact h.elim

end Service

/-! ## The handlers of the emulator -/

namespace Emulator

variable {κ F : Type} [BEq F] [Zero F] {dev : Devices κ}

theorem exists_instruction (δ ε : Type) (dev : Devices κ) (m : Emulator κ F) :
    ∃ m' result, (service δ ε dev).instruction m m' result := by
  obtain ⟨u, hu⟩ := Option.isSome_iff_exists.mp (m.hardware.executeCycles_isSome dev)
  have hrun (lua : LuaCheck F) : ∃ broke t, m.executeInstruction dev lua = some (broke, t) := by
    rw [executeInstruction, hu]
    exact ⟨_, _, rfl⟩
  obtain ⟨broke, t, ht⟩ := hrun ⟨fun _ => 0, fun _ => ⟨[], none, false⟩⟩
  exact ⟨t, .ok broke, _, broke, ht, rfl⟩

theorem frameEnds_service {k : Nat} {m : Emulator κ F} (hs : m.hardware.InStep k) :
    (service δ ε dev).FrameEnds m.hardware.display.update.frameNum m := by
  induction hleft : turnsLeft k using Nat.strongRecOn generalizing k m with
  | ind n ih =>
      refine .intro (exists_instruction δ ε dev m) fun m' broke hexecuted hsame => ?_
      obtain ⟨lua, broke', hrun, -⟩ := hexecuted
      obtain ⟨broke'', t, turns, hrun', hpos, hle, ht⟩ := inStep_executeInstruction dev lua hs
      rw [hrun, Option.some_inj, Prod.mk.injEq] at hrun'
      obtain ⟨-, rfl⟩ := hrun'
      have hframe : m'.hardware.display.update.frameNum =
        m.hardware.display.update.frameNum := hsame
      have hquotient := (frameNum_eq_iff hs ht hle).mp hframe
      rw [← hframe]
      exact ih (turnsLeft (k + turns)) (hleft ▸ turnsLeft_lt hpos hquotient) ht rfl

theorem inStep_turn {m m' : Emulator κ F} (h : ∃ k, m.hardware.InStep k)
    (hturn : (service δ ε dev).Turn m m') : ∃ k, m'.hardware.InStep k := by
  obtain ⟨k, hk⟩ := h
  cases hturn with
  | @executes t broke _ hexecuted =>
      obtain ⟨lua, broke', hrun, hbroke⟩ := hexecuted
      obtain ⟨_, _, turns, hrun', -, -, ht⟩ := inStep_executeInstruction dev lua hk
      rw [hrun, Option.some_inj, Prod.mk.injEq] at hrun'
      obtain ⟨-, rfl⟩ := hrun'
      refine ⟨k + turns, ?_⟩
      cases broke with
      | true => exact ht
      | false => exact ht
  | throws _ hthrown =>
      obtain ⟨_, _, _, herror⟩ := hthrown
      cases herror

theorem returnsLater_executeFrame {m : Emulator κ F} (h : ∃ k, m.hardware.InStep k) :
    (service δ ε dev).ReturnsLater .executeFrame m := by
  intro m' hreached
  have hstep : ∃ k, m'.hardware.InStep k := by
    refine @Runs.Reachable.invariant _ _ _ (fun t => ∃ k, t.hardware.InStep k) ?_ ?_ m' hreached
    · rintro t rfl
      exact h
    · exact fun _ _ ht hturn => inStep_turn ht hturn
  obtain ⟨k, hk⟩ := hstep
  exact ⟨exists_instruction δ ε dev m', frameEnds_service hk⟩

end Emulator

end V6Emul
