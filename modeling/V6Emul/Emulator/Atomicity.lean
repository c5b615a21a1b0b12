import V6Emul.Emulator.Pairing

/-!
# Requests are handled one at a time

With the emulator as the machine of the execution thread, no request is taken while
another one is handled.  Between two handlers the emulator is therefore in a state that
the accepted requests lead to, one whole request after the other, with whole instructions
in between.
-/

namespace V6Emul

namespace Emulator

variable {κ F : Type} [BEq F] [Zero F]

/-! ## A frame -/

theorem executeFrameLoop_congr (dev : Devices κ) (frameNum : BitVec 64) {fuel : Nat}
    {lua lua' : Nat → LuaCheck F} (h : ∀ n < fuel, lua n = lua' n) (s : Emulator κ F) :
    executeFrameLoop dev lua frameNum fuel s = executeFrameLoop dev lua' frameNum fuel s := by
  induction fuel generalizing s with
  | zero => rfl
  | succ fuel ih =>
      rw [executeFrameLoop, executeFrameLoop, h fuel (Nat.lt_succ_self fuel)]
      simp only [ih fun n hn => h n (Nat.lt_succ_of_lt hn)]

theorem executeFrameLoop_of_frame {dev : Devices κ} {δ ε : Type} {frameNum : BitVec 64}
    {m m' : Emulator κ F} {outcome : HandlerOutcome δ ε}
    (h : (service δ ε dev).Frame frameNum m m' outcome) :
    ∃ fuel lua t, executeFrameLoop dev lua frameNum fuel m = some t ∧
      m' = t.recordStop .frameStep := by
  induction h with
  | @again m u m' broke outcome hexecuted hsame _ ih =>
      obtain ⟨first, broke', hrun, -⟩ := hexecuted
      obtain ⟨fuel, later, t, ht, rfl⟩ := ih
      refine ⟨fuel + 1, fun n => if n < fuel then later n else first, t, ?_, rfl⟩
      have hsame' : u.hardware.display.update.frameNum = frameNum := hsame
      rw [executeFrameLoop, if_neg (Nat.lt_irrefl fuel), hrun, Option.bind_some, if_pos hsame',
        ← ht]
      exact executeFrameLoop_congr dev frameNum (fun n hn => if_pos hn) u
  | @done m u broke hexecuted hother =>
      obtain ⟨lua, broke', hrun, -⟩ := hexecuted
      have hother' : u.hardware.display.update.frameNum ≠ frameNum := hother
      refine ⟨1, fun _ => lua, u, ?_, rfl⟩
      rw [executeFrameLoop, hrun, Option.bind_some, if_neg hother']
  | throws hthrown =>
      obtain ⟨_, _, _, herror⟩ := hthrown
      cases herror

/-! ## Whole requests and instructions -/

/-- Whole requests, and instructions of the loop of the thread between them. -/
inductive Serial (dev : Devices κ) (e : Emulator κ F) : List (Req κ F) → Emulator κ F → Prop where
  | start : Serial dev e [] e
  | instruction {reqs : List (Req κ F)} {s t : Emulator κ F} {lua : LuaCheck F} :
      Serial dev e reqs s → s.executeRunning dev lua = some t → Serial dev e reqs t
  | request {reqs : List (Req κ F)} {s t : Emulator κ F} {fuel : Nat} {req : Req κ F} :
      Serial dev e reqs s → s.handle dev fuel req = some t → Serial dev e (reqs ++ [req]) t

/-- What Lua answers is no part of a request. -/
inductive Issues : Request (PlainReq κ F) → Req κ F → Prop where
  | exit : Issues .exit .exit
  | executeInstr (lua : LuaCheck F) : Issues .executeInstr (.executeInstr lua)
  | executeFrame (lua : Nat → LuaCheck F) : Issues .executeFrame (.executeFrame lua)
  | executeFrameNoBreaks (lua : Nat → LuaCheck F) :
      Issues .executeFrameNoBreaks (.executeFrameNoBreaks lua)
  | other (req : PlainReq κ F) : Issues (.other req) req.val

section

variable {dev : Devices κ} {e : Emulator κ F} {δ ε : Type}

theorem handle_of_handles {req : Request (PlainReq κ F)} {m m' : Emulator κ F}
    {outcome : HandlerOutcome δ ε} (h : (service δ ε dev).Handles req m m' outcome) :
    ∃ fuel req', Issues req req' ∧ m.handle dev fuel req' = some m' := by
  cases h with
  | exit => exact ⟨0, .exit, .exit, rfl⟩
  | @executeInstr _ t broke hexecuted =>
      obtain ⟨lua, broke', hrun, hbroke⟩ := hexecuted
      cases hbroke
      refine ⟨0, .executeInstr lua, .executeInstr lua, ?_⟩
      rw [handle, hrun, Option.map_some]
      rfl
  | executeInstrThrows hthrown =>
      obtain ⟨_, _, _, herror⟩ := hthrown
      cases herror
  | executeFrame hframe =>
      obtain ⟨fuel, lua, t, ht, rfl⟩ := executeFrameLoop_of_frame hframe
      have hloop : m.executeFrameNoBreaks dev fuel lua = some t := ht
      refine ⟨fuel, .executeFrame lua, .executeFrame lua, ?_⟩
      rw [handle, hloop, Option.map_some]
  | executeFrameNoBreaks hframe =>
      obtain ⟨fuel, lua, t, ht, rfl⟩ := executeFrameLoop_of_frame hframe
      have hloop : m.executeFrameNoBreaks dev fuel lua = some t := ht
      refine ⟨fuel, .executeFrameNoBreaks lua, .executeFrameNoBreaks lua, ?_⟩
      rw [handle, hloop, Option.map_some]
  | @other req _ _ _ hhandler =>
      obtain ⟨fuel, hhandle⟩ := hhandler
      exact ⟨fuel, req.val, .other req, hhandle⟩

theorem serial_turn {reqs : List (Req κ F)} {m m' : Emulator κ F} (h : Serial dev e reqs m)
    (hturn : (service δ ε dev).Turn m m') : Serial dev e reqs m' := by
  cases hturn with
  | executes hrunning hexecuted =>
      obtain ⟨lua, broke, hrun, hbroke⟩ := hexecuted
      cases hbroke
      have hstatus : m.status = Status.run := hrunning
      refine .instruction h (?_ : m.executeRunning dev lua = _)
      rw [executeRunning, if_pos hstatus, hrun, Option.map_some]
      rfl
  | throws _ hthrown =>
      obtain ⟨_, _, _, herror⟩ := hthrown
      cases herror

theorem serial_of_served {served : List (Invocation (Emulator κ F) (PlainReq κ F) δ ε)}
    {m : Emulator κ F} (h : (service δ ε dev).Served e served m) :
    ∃ reqs, Serial dev e reqs m ∧ List.Forall₂ Issues (served.map Invocation.request) reqs := by
  induction h with
  | start => exact ⟨[], .start, .nil⟩
  | turn _ hturn ih =>
      obtain ⟨reqs, hserial, hissued⟩ := ih
      exact ⟨reqs, serial_turn hserial hturn, hissued⟩
  | request _ hhandles ih =>
      obtain ⟨reqs, hserial, hissued⟩ := ih
      obtain ⟨fuel, req', hreq, hhandle⟩ := handle_of_handles hhandles
      refine ⟨reqs ++ [req'], hserial.request hhandle, ?_⟩
      rw [List.map_append]
      exact List.rel_append hissued (.cons hreq .nil)

end

/--
For every interleaving with a client: whenever no request is being handled, the emulator is in a
state that the accepted requests, in the order in which they were issued, and whole instructions
lead to.
-/
theorem serial_machine (dev : Devices κ) (e : Emulator κ F) {δ ε : Type}
    {s : Exchange (Emulator κ F) (PlainReq κ F) δ ε}
    (h : Exchange.Reachable (service δ ε dev) e s) (hidle : s.activations = []) :
    ∃ reqs queued, Serial dev e reqs s.machine ∧ s.issued = queued ++ s.reqs.entries ∧
      List.Forall₂ Issues queued reqs := by
  obtain ⟨hbalanced, hfollows⟩ := h.follows
  cases hfollows with
  | idle _ _ hserved =>
      obtain ⟨reqs, hserial, hissued⟩ := serial_of_served hserved
      exact ⟨reqs, _, hserial, hbalanced.requests, hissued⟩
  | handling hactive _ _ _ => exact absurd hidle hactive

/-- A witness: `RUN` has been handled, and `EXECUTE_FRAME` has not. -/
theorem serial_frameRequested : ∃ reqs queued, Serial .silent blank reqs blank.run ∧
    [.other ⟨.run, rfl⟩, .executeFrame] = queued ++ [.executeFrame] ∧
      List.Forall₂ Issues queued reqs :=
  serial_machine .silent blank Exchange.frameRequested_reachable rfl

end Emulator

end V6Emul
