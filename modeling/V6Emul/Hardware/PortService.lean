import V6Emul.Display.Commit
import V6Emul.Hardware.Model

/-!
# Every `OUT` is committed once

The history of a run is made of turns.  A turn begins with a `Rasterize` call, in
which the `OUT` of the machine cycle before is committed ahead of the first pixel,
and ends with a machine cycle, which executes one `OUT` at most.
-/

namespace V6Emul

/-! ## The port calls of a machine cycle -/

namespace Sys

variable {σ : Type}

inductive PortCall (ports : PortFuncs σ) (io : σ) : σ → Prop where
  | none : PortCall ports io io
  | input (port : Byte) : PortCall ports io (ports.input port io).2
  | output (port value : Byte) : PortCall ports io (ports.output port value io)

theorem io_exec (ports : PortFuncs σ) {micro : Micro} (hin : micro ≠ .in_) (hout : micro ≠ .out_)
    (s : Sys σ) : (s.exec ports micro).io = s.io := by
  cases micro with
  | in_ => contradiction
  | out_ => contradiction
  | _ =>
      simp only [exec, movRegReg, loadRegPtr, movMemReg, mviRegData, mviMemData,
        lda, sta, stax, lxi, lhld, shld, sphl, xthl, push, popPSW, pop, dad, inr, inrMem, dcr,
        dcrMem, inx, dcx, jmp, pchl, ret, rst, addMem, subMem, amaMem, xraMem, oraMem, cmpMem,
        adi, sbi, ani, xri, ori, cpi, memOp, immOp, call, retCond, hlt]
      repeat' split
      all_goals rfl

theorem portCall_exec (ports : PortFuncs σ) (micro : Micro) (s : Sys σ) :
    PortCall ports s.io (s.exec ports micro).io := by
  cases micro with
  | in_ =>
      simp only [exec, in_]
      split
      · exact .none
      · exact .input _
      · exact .none
  | out_ =>
      simp only [exec, out_]
      split
      · exact .output _ _
      · exact .none
  | _ =>
      rw [io_exec ports Micro.noConfusion Micro.noConfusion]
      exact .none

theorem io_enter (irq : Bool) (s : Sys σ) : (s.enter irq).io = s.io := by
  simp only [enter, beginInstruction]
  repeat' split
  all_goals rfl

theorem portCall_executeMachineCycle (ports : PortFuncs σ) (irq : Bool) (s : Sys σ) :
    PortCall ports s.io (s.executeMachineCycle ports irq).io := by
  rw [executeMachineCycle_eq]
  have hcall := portCall_exec ports (decode (s.enter irq).cpu.ir) (s.enter irq)
  rw [io_enter] at hcall
  exact hcall

end Sys

variable {δ : Type}

/-! ## The grammar of the history -/

/-- The `OUT` that waits in the slot: its port and value. -/
def Io.pending (s : Io δ) : Option (Byte × Byte) :=
  if s.state.outCommitTimer = 0 then none else some (s.state.outport, s.state.outbyte)

namespace PortEvent

def commitOf (call : Byte × Byte) : PortEvent := .commit call.1 call.2
def outOf (call : Byte × Byte) : PortEvent := .out call.1 call.2

def turn (pending next : Option (Byte × Byte)) : List PortEvent :=
  .rasterize :: (pending.map commitOf).toList ++ List.replicate 16 .pixel ++
    .cycle :: (next.map outOf).toList

/-- A history in which each `OUT` is committed in the turn that follows it; the last one waits. -/
inductive Served : List PortEvent → Option (Byte × Byte) → Prop where
  | start : Served [] none
  | turn {events : List PortEvent} {pending : Option (Byte × Byte)}
      (next : Option (Byte × Byte)) :
      Served events pending → Served (events ++ turn pending next) next

def committed : PortEvent → Option (Byte × Byte)
  | .commit port value => some (port, value)
  | _ => none

def executed : PortEvent → Option (Byte × Byte)
  | .out port value => some (port, value)
  | _ => none

theorem committed_turn (pending next : Option (Byte × Byte)) :
    (turn pending next).filterMap committed = pending.toList := by
  cases pending <;> cases next <;> rfl

theorem executed_turn (pending next : Option (Byte × Byte)) :
    (turn pending next).filterMap executed = next.toList := by
  cases pending <;> cases next <;> rfl

theorem Served.commits {events : List PortEvent} {pending : Option (Byte × Byte)}
    (h : Served events pending) :
    events.filterMap committed ++ pending.toList = events.filterMap executed := by
  induction h with
  | start => rfl
  | turn next _ ih =>
      simp only [List.filterMap_append, committed_turn, executed_turn, ih]

end PortEvent

/-! ## Runs -/

namespace Io

theorem due_eq_pending (s : Io δ) : s.due = (s.pending.map PortEvent.commitOf).toList := by
  unfold due pending
  split <;> rfl

theorem pending_of_settled {s : Io δ} (h : s.Settled) : s.pending = none := if_pos h

@[simp] theorem state_portInHandling (dev : Devices δ) (port : Byte) (s : Io δ) :
    (s.portInHandling dev port).2.state = s.state := by
  unfold portInHandling
  split <;> rfl

@[simp] theorem events_portInHandling (dev : Devices δ) (port : Byte) (s : Io δ) :
    (s.portInHandling dev port).2.events = s.events := by
  unfold portInHandling
  split <;> rfl

end Io

namespace Hardware

open PortEvent

structure PortsServed (h : Hardware δ) : Prop where
  armed : h.io.Armed
  served : Served h.io.events h.io.pending

theorem executeMachineCycle_io (dev : Devices δ) {h : Hardware δ} (hsettled : h.io.Settled) :
    (h.executeMachineCycle dev).io.Armed ∧
      (h.executeMachineCycle dev).io.events = h.io.events ++
        .cycle :: ((h.executeMachineCycle dev).io.pending.map outOf).toList := by
  have hcall := Sys.portCall_executeMachineCycle (Io.ports dev) h.display.update.irq
    { h.toSys with io := h.io.log .cycle }
  rw [executeMachineCycle]
  generalize Sys.executeMachineCycle (Io.ports dev) h.display.update.irq
    { h.toSys with io := h.io.log .cycle } = s at hcall
  obtain ⟨cpu, mem, io, stores⟩ := s
  cases hcall with
  | none =>
      refine ⟨.inl hsettled, ?_⟩
      change h.io.events ++ [.cycle] = _ ++ _ :: ((h.io.log .cycle).pending.map outOf).toList
      rw [Io.pending_of_settled (s := h.io.log .cycle) hsettled]
      rfl
  | input port =>
      have hstate := Io.state_portInHandling dev port (h.io.log .cycle)
      have hevents := Io.events_portInHandling dev port (h.io.log .cycle)
      have hsettled' : Io.Settled ((h.io.log .cycle).portIn dev port).2 :=
        (congrArg IoState.outCommitTimer hstate).trans hsettled
      refine ⟨.inl hsettled', ?_⟩
      change ((h.io.log .cycle).portIn dev port).2.events = _ ++
        _ :: (((h.io.log .cycle).portIn dev port).2.pending.map outOf).toList
      rw [Io.pending_of_settled hsettled']
      exact hevents
  | output port value =>
      refine ⟨.inr rfl, ?_⟩
      change (h.io.events ++ [.cycle]) ++ [.out port value] = _
      rw [List.append_assoc]
      rfl

theorem portsServed_machineCycle (dev : Devices δ) {h : Hardware δ} (hs : h.PortsServed) :
    (h.machineCycle dev).PortsServed := by
  obtain ⟨hevents, hsettled⟩ := h.raster.rasterize_events dev hs.armed
  obtain ⟨harmed, hcycle⟩ := executeMachineCycle_io dev (h := h.rasterize dev) hsettled
  constructor
  · exact harmed
  · have hturn : (h.machineCycle dev).io.events =
        h.io.events ++ turn h.io.pending (h.machineCycle dev).io.pending := by
      refine hcycle.trans ?_
      change (h.raster.rasterize dev).io.events ++ _ = _
      rw [hevents]
      simp [turn, Io.due_eq_pending, raster]
      rfl
    rw [hturn]
    exact .turn _ hs.served

inductive Next (dev : Devices δ) (h : Hardware δ) : Hardware δ → Prop where
  | machineCycle : Next dev h (h.machineCycle dev)
  /-- `DebugInit`, `IsException`, `InitRamDiskMapping` and the debugger -/
  | setMem (mem : Memory) : Next dev h (h.setMem mem)
  | handle (req : HostReq δ) : Next dev h (h.handle req)

structure Idle (h : Hardware δ) : Prop where
  settled : h.io.Settled
  events : h.io.events = []

theorem Idle.portsServed {h : Hardware δ} (hidle : h.Idle) : h.PortsServed := by
  refine ⟨hidle.settled.armed, ?_⟩
  rw [hidle.events, Io.pending_of_settled hidle.settled]
  exact .start

def Reachable (dev : Devices δ) : Hardware δ → Prop := Runs.Reachable Idle (Next dev)

theorem Reachable.portsServed {dev : Devices δ} {h : Hardware δ} (hreach : Reachable dev h) :
    h.PortsServed := by
  refine hreach.invariant (fun _ => Idle.portsServed) ?_
  intro s t hs hnext
  cases hnext with
  | machineCycle => exact portsServed_machineCycle dev hs
  | setMem mem => exact ⟨hs.armed, hs.served⟩
  | handle req => cases req <;> exact ⟨hs.armed, hs.served⟩

/-- Each `OUT` of a run is committed exactly once, with its port and value, in the next turn. -/
theorem Reachable.outs_served {dev : Devices δ} {h : Hardware δ} (hreach : Reachable dev h) :
    Served h.io.events h.io.pending ∧
      h.io.events.filterMap committed ++ h.io.pending.toList = h.io.events.filterMap executed :=
  ⟨hreach.portsServed.served, hreach.portsServed.served.commits⟩

def outProgram : Ram := fun i => if i.val = 0 then 0xD3 else if i.val = 1 then 0x03 else 0

/-- A witness: the four cycles that execute `OUT 3` and commit it. -/
theorem outs_served_out :
    let cycle : Hardware Unit → Hardware Unit := machineCycle .silent
    let h := cycle (cycle (cycle (cycle (ofRam outProgram ()))))
    (Served h.io.events h.io.pending ∧
      h.io.events.filterMap committed ++ h.io.pending.toList = h.io.events.filterMap executed) ∧
      h.io.events.filterMap committed = [(0x03#8, 0x00#8)] := by
  refine ⟨?_, by decide +kernel⟩
  have hstart : Reachable .silent (ofRam outProgram ()) := .start ⟨rfl, rfl⟩
  exact (Reachable.outs_served ((((hstart.step .machineCycle).step .machineCycle).step
    .machineCycle).step .machineCycle))

end Hardware

end V6Emul
