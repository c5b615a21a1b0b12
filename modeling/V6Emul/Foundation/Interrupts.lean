import V6Emul.Foundation.I8080

/-!
# The Intel 8080 with its interrupts

The processor between two instructions: its architectural state, the flip-flops of the
interrupts and whether it waits in `HLT`.  A step is one instruction, one interrupt or one
machine cycle of waiting; how many cycles an instruction takes is a parameter, and the
request line is sampled in each of them.
-/

namespace I8080

structure Core (M P : Type) where
  state : State M P
  enabled : Bool
  /-- a request waits to be taken -/
  request : Bool
  /-- the instruction before was `EI`, so none is taken yet -/
  shadow : Bool
  /-- waits in `HLT`, with `PC` behind it -/
  halted : Bool

abbrev Timing (M P : Type) := State M P → Instr → Nat

variable {M P : Type}

def State.interrupt (env : Env M P) (s : State M P) : State M P :=
  { s.pushPC env with pc := 0x38 }

def raised (irq : Nat → Bool) (n : Nat) : Bool := (List.range n).any irq

namespace Core

def latch (irq : Bool) (c : Core M P) : Bool := c.request || (irq && c.enabled)

/-- The instruction that comes next, unless the processor waits or takes an interrupt. -/
def fetched (env : Env M P) (irq : Nat → Bool) (c : Core M P) : Option Byte :=
  if c.halted || (c.latch (irq 0) && !c.shadow) then none
  else some (env.read c.state.mem c.state.pc)

/-- The core after a step, and the machine cycles of the step. -/
def step (env : Env M P) (timing : Timing M P) (irq : Nat → Bool) (c : Core M P) :
    Core M P × Nat :=
  if c.halted then
    ({ c with request := c.latch (irq 0), halted := !c.latch (irq 0) }, 1)
  else if c.latch (irq 0) && !c.shadow then
    (⟨c.state.interrupt env, false, false, false, false⟩, 4)
  else
    let i := decode (env.read c.state.mem c.state.pc)
    let cycles := timing c.state i
    let request := c.latch (raised irq cycles)
    ({ state := c.state.step env
       enabled := if i = .ei then true else if i = .di then false else c.enabled
       request := request
       shadow := decide (i = .ei)
       halted := decide (i = .hlt) && !request }, cycles)

/-- The core after `n` steps, and the machine cycles of all of them. -/
def run (env : Env M P) (timing : Timing M P) : Nat → (Nat → Bool) → Core M P → Core M P × Nat
  | 0, _, c => (c, 0)
  | n + 1, irq, c =>
      let (c, cycles) := c.step env timing irq
      let (c, later) := run env timing n (fun k => irq (cycles + k)) c
      (c, cycles + later)

/-- No step of a run fetches the opcode `op`. -/
def Avoids (env : Env M P) (timing : Timing M P) (op : Byte) :
    Nat → (Nat → Bool) → Core M P → Prop
  | 0, _, _ => True
  | n + 1, irq, c =>
      c.fetched env irq ≠ some op ∧
        Avoids env timing op n (fun k => irq ((c.step env timing irq).2 + k))
          (c.step env timing irq).1

end Core

end I8080
