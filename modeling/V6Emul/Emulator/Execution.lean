import V6Emul.Emulator.Model
import V6Emul.Foundation.Runs

/-!
# The execution thread and its client

`Request` puts a request into one queue and waits at the other.  The execution thread
takes requests out wherever it calls `ReqHandling`: behind an instruction, in the wait
for the end of a frame, while the machine is stopped, and for a grace period behind
`EXIT`.  Handling `EXECUTE_FRAME` executes instructions and so calls `ReqHandling` again.
-/

namespace V6Emul

/-! ## Queues -/

structure TQueue (α : Type) where
  entries : List α
  maxLength : Nat

namespace TQueue

variable {α : Type}

def new : TQueue α := ⟨[], 10⟩

/-- `push` and `emplace`: a queue above its bound gives up the oldest entry. -/
def push (q : TQueue α) (item : α) : TQueue α :=
  { q with
    entries := (if q.maxLength < q.entries.length then q.entries.tail else q.entries) ++ [item] }

def pop (q : TQueue α) : Option (α × TQueue α) :=
  match q.entries with
  | [] => none
  | item :: rest => some (item, { q with entries := rest })

theorem pop_eq_some {q rest : TQueue α} {item : α} (h : q.pop = some (item, rest)) :
    q.entries = item :: rest.entries ∧ rest.maxLength = q.maxLength := by
  obtain ⟨entries, maxLength⟩ := q
  cases entries with
  | nil => exact absurd h (by simp [pop])
  | cons first others =>
      simp only [pop, Option.some.injEq, Prod.mk.injEq] at h
      obtain ⟨rfl, rfl⟩ := h
      exact ⟨rfl, rfl⟩

theorem entries_push {q : TQueue α} (h : q.entries.length ≤ q.maxLength) (item : α) :
    (q.push item).entries = q.entries ++ [item] := by
  rw [push, if_neg (Nat.not_lt.mpr h)]

end TQueue

inductive WaitTime where
  | zero
  | positive
  | negative
  deriving DecidableEq

/-! ## Requests and responses -/

variable {σ ρ δ ε : Type}

inductive Request (ρ : Type) where
  | exit
  | executeInstr
  | executeFrame
  | executeFrameNoBreaks
  /-- a request whose handler executes no instruction -/
  | other (req : ρ)

inductive HandlerOutcome (δ ε : Type) where
  | data (out : Option δ)
  | exception (error : ε)
  | unhandled

structure RequestResult (δ ε : Type) where
  data : Option δ
  error : Option ε
  handled : Bool

def HandlerOutcome.response : HandlerOutcome δ ε → RequestResult δ ε
  | .data out => ⟨out, none, true⟩
  | .exception error => ⟨none, some error, false⟩
  | .unhandled => ⟨none, none, false⟩

/-- How `Request` ends: it throws, or returns a result, which may be empty. -/
abbrev Reply (δ ε : Type) := Except ε (Option (Option δ))

def RequestResult.reply (response : RequestResult δ ε) : Reply δ ε :=
  match response.error with
  | some error => .error error
  | none => if response.handled then .ok (some response.data) else .ok none

def HandlerOutcome.reply : HandlerOutcome δ ε → Reply δ ε
  | .data out => .ok (some out)
  | .exception error => .error error
  | .unhandled => .ok none

@[simp] theorem HandlerOutcome.reply_response (outcome : HandlerOutcome δ ε) :
    outcome.response.reply = outcome.reply := by
  cases outcome <;> rfl

/-! ## The machine of the thread -/

/-- The hardware with its debugger, as far as the thread and its requests go. -/
structure Service (σ ρ δ ε : Type) where
  status : σ → Status
  frameNum : σ → BitVec 64
  /-- `m_status = Status::EXIT` -/
  exit : σ → σ
  /-- `Stop(false)` -/
  halt : σ → σ
  status_halt : ∀ m, status (halt m) = .stop
  /-- `RecordStop("step")` -/
  recordStep : σ → σ
  /-- `RecordStop("frameStep")` -/
  recordFrameStep : σ → σ
  /-- `ExecuteInstruction` up to its poll: it throws, or it has to return `true` or to go on -/
  instruction : σ → σ → Except ε Bool → Prop
  handler : ρ → σ → σ → HandlerOutcome δ ε → Prop

/-! ## The thread -/

inductive InstructionCaller where
  /-- the loop of `Execution` over a frame -/
  | execution (frameNum : BitVec 64)
  /-- `EXECUTE_INSTR` -/
  | executeInstr
  /-- the loop of `ExecuteFrameNoBreaks` -/
  | executeFrame (frameNum : BitVec 64)

inductive PollSite where
  | instruction (caller : InstructionCaller)
  | vsync
  | stopped
  | grace

def PollSite.waitTime : PollSite → WaitTime
  | .instruction _ => .zero
  | .vsync => .positive
  | .stopped => .negative
  | .grace => .positive

inductive ThreadControl (ρ δ ε : Type) where
  /-- at `while (m_status != EXIT)` -/
  | execution
  /-- at `while (m_status == RUN)` -/
  | running
  | instruction (caller : InstructionCaller)
  /-- behind the loop over a frame -/
  | frameEnd
  /-- at `while (now < expectedEndFrameTime)` -/
  | vsync
  /-- at `while (m_status == STOP)` -/
  | stopped
  | poll (site : PollSite)
  /-- at the `switch` over the request -/
  | handling (req : Request ρ)
  /-- before a response is emplaced -/
  | answer (outcome : HandlerOutcome δ ε)
  /-- `Execution` has returned. -/
  | finished
  /-- An exception has left `Execution`. -/
  | terminated

namespace Service

variable (M : Service σ ρ δ ε)

def executed (m : σ) : InstructionCaller → Bool → σ × ThreadControl ρ δ ε
  | .execution frameNum, broke =>
      if broke then (M.halt m, .frameEnd)
      else if M.status m = .run ∧ M.frameNum m = frameNum then
        (m, .instruction (.execution frameNum))
      else (m, .frameEnd)
  | .executeInstr, broke => (if broke then m else M.recordStep m, .answer (.data none))
  | .executeFrame frameNum, _ =>
      if M.frameNum m = frameNum then (m, .instruction (.executeFrame frameNum))
      else (M.recordFrameStep m, .answer (.data none))

def polled (m : σ) : PollSite → Bool → σ × ThreadControl ρ δ ε
  | .instruction caller, _ => M.executed m caller false
  | .vsync, _ => (m, .vsync)
  | .stopped, _ => (m, .stopped)
  | .grace, served => (m, if served then .poll .grace else .finished)

end Service

def InstructionCaller.caught (error : ε) : InstructionCaller → ThreadControl ρ δ ε
  | .execution _ => .terminated
  | .executeInstr => .answer (.exception error)
  | .executeFrame _ => .answer (.exception error)

/-! ## Client and thread -/

structure Activation where
  site : PollSite
  number : Nat

structure Invocation (σ ρ δ ε : Type) where
  request : Request ρ
  began : σ
  outcome : Option (HandlerOutcome δ ε)

/-- The two threads and their queues, with a record of what each has done. -/
structure Exchange (σ ρ δ ε : Type) where
  machine : σ
  control : ThreadControl ρ δ ε
  activations : List Activation
  reqs : TQueue (Request ρ)
  reqRes : TQueue (RequestResult δ ε)
  /-- the client is in `Request`, at the second queue -/
  waiting : Bool
  issued : List (Request ρ)
  invocations : List (Invocation σ ρ δ ε)
  returned : List (Reply δ ε)

namespace Exchange

def accept (s : Exchange σ ρ δ ε) (site : PollSite) (req : Request ρ)
    (rest : TQueue (Request ρ)) : Exchange σ ρ δ ε :=
  { s with
    reqs := rest
    control := .handling req
    activations := ⟨site, s.invocations.length⟩ :: s.activations
    invocations := s.invocations ++ [⟨req, s.machine, none⟩] }

/-- The innermost handler is done, and the call of `ReqHandling` returns. -/
def respond (M : Service σ ρ δ ε) (s : Exchange σ ρ δ ε) (outcome : HandlerOutcome δ ε)
    (a : Activation) (rest : List Activation) : Exchange σ ρ δ ε :=
  { s with
    reqRes := s.reqRes.push outcome.response
    machine := (M.polled s.machine a.site true).1
    control := (M.polled s.machine a.site true).2
    activations := rest
    invocations := s.invocations.modify a.number fun i => { i with outcome := some outcome } }

inductive ClientStep : Exchange σ ρ δ ε → Exchange σ ρ δ ε → Prop where
  | call (s : Exchange σ ρ δ ε) (req : Request ρ) : s.waiting = false →
      ClientStep s { s with
        reqs := s.reqs.push req
        waiting := true
        issued := s.issued ++ [req] }
  | returns (s : Exchange σ ρ δ ε) (response : RequestResult δ ε)
      (rest : TQueue (RequestResult δ ε)) :
      s.waiting = true → s.reqRes.pop = some (response, rest) →
      ClientStep s { s with
        reqRes := rest
        waiting := false
        returned := s.returned ++ [response.reply] }

inductive Moves (M : Service σ ρ δ ε) (m : σ) :
    ThreadControl ρ δ ε → σ → ThreadControl ρ δ ε → Prop where
  | execution : Moves M m .execution m (if M.status m = .exit then .poll .grace else .running)
  | running : Moves M m .running m
      (if M.status m = .run then .instruction (.execution (M.frameNum m)) else .stopped)
  | frameEnd : Moves M m .frameEnd m (if M.status m = .run then .vsync else .running)
  | vsync : Moves M m .vsync m (.poll .vsync)
  | frameOver : Moves M m .vsync m .running
  | stopped : Moves M m .stopped m (if M.status m = .stop then .poll .stopped else .execution)
  | breaks (caller : InstructionCaller) (m' : σ) : M.instruction m m' (.ok true) →
      Moves M m (.instruction caller) (M.executed m' caller true).1 (M.executed m' caller true).2
  | goesOn (caller : InstructionCaller) (m' : σ) : M.instruction m m' (.ok false) →
      Moves M m (.instruction caller) m' (.poll (.instruction caller))
  | throws (caller : InstructionCaller) (m' : σ) (error : ε) :
      M.instruction m m' (.error error) → Moves M m (.instruction caller) m' (caller.caught error)
  | exit : Moves M m (.handling .exit) (M.exit m) (.answer (.data none))
  | executeInstr : Moves M m (.handling .executeInstr) m (.instruction .executeInstr)
  | executeFrame : Moves M m (.handling .executeFrame) m
      (.instruction (.executeFrame (M.frameNum m)))
  | executeFrameNoBreaks : Moves M m (.handling .executeFrameNoBreaks) m
      (.instruction (.executeFrame (M.frameNum m)))
  | other (req : ρ) (m' : σ) (outcome : HandlerOutcome δ ε) : M.handler req m m' outcome →
      Moves M m (.handling (.other req)) m' (.answer outcome)

inductive ThreadStep (M : Service σ ρ δ ε) :
    Exchange σ ρ δ ε → Exchange σ ρ δ ε → Prop where
  | moves (s : Exchange σ ρ δ ε) (m : σ) (control : ThreadControl ρ δ ε) :
      Moves M s.machine s.control m control →
      ThreadStep M s { s with machine := m, control := control }
  | accept (s : Exchange σ ρ δ ε) (site : PollSite) (req : Request ρ)
      (rest : TQueue (Request ρ)) :
      s.control = .poll site → s.reqs.pop = some (req, rest) →
      ThreadStep M s (s.accept site req rest)
  | misses (s : Exchange σ ρ δ ε) (site : PollSite) :
      s.control = .poll site → site.waitTime ≠ .negative → s.reqs.pop = none →
      ThreadStep M s { s with
        machine := (M.polled s.machine site false).1
        control := (M.polled s.machine site false).2 }
  | responds (s : Exchange σ ρ δ ε) (outcome : HandlerOutcome δ ε) (a : Activation)
      (rest : List Activation) :
      s.control = .answer outcome → s.activations = a :: rest →
      ThreadStep M s (s.respond M outcome a rest)

def Step (M : Service σ ρ δ ε) (s t : Exchange σ ρ δ ε) : Prop :=
  ClientStep s t ∨ ThreadStep M s t

/-- The thread has been started, and nothing has been requested. -/
def start (m : σ) : Exchange σ ρ δ ε where
  machine := m
  control := .execution
  activations := []
  reqs := .new
  reqRes := .new
  waiting := false
  issued := []
  invocations := []
  returned := []

def Reachable (M : Service σ ρ δ ε) (e : σ) : Exchange σ ρ δ ε → Prop :=
  Runs.Reachable (fun s => s = start e) (Step M)

end Exchange

/-! ## The emulator as the machine of the thread -/

namespace Emulator

variable {κ F : Type} [BEq F] [Zero F]

def Req.isPlain : Req κ F → Bool
  | .exit => false
  | .executeInstr _ => false
  | .executeFrame _ => false
  | .executeFrameNoBreaks _ => false
  | _ => true

abbrev PlainReq (κ F : Type) := {req : Req κ F // req.isPlain = true}

def service (δ ε : Type) (dev : Devices κ) : Service (Emulator κ F) (PlainReq κ F) δ ε where
  status := Emulator.status
  frameNum := fun s => s.hardware.display.update.frameNum
  exit := fun s => { s with status := .exit }
  halt := halt
  status_halt := fun _ => rfl
  recordStep := recordStop .step
  recordFrameStep := recordStop .frameStep
  instruction := fun s t result =>
    ∃ lua broke, s.executeInstruction dev lua = some (broke, t) ∧ result = .ok broke
  handler := fun req s t _ => ∃ fuel, s.handle dev fuel req.val = some t

end Emulator

end V6Emul
