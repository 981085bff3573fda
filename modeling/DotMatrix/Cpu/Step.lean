import DotMatrix.Cpu.Execute

namespace DotMatrix.Cpu

def joypadAddr : UInt16 := 0xFF00

def dispatchCost : Nat := 20

abbrev Outcome := Except IllegalOpcode Nat

def dueInterrupt (cpu : Cpu) : Access (Option Interrupt) := do
  if cpu.ime then
    let pending ← Interrupt.pending
    return Interrupt.first? pending
  else
    return none

/-- Takes back the request, pushes the program counter and goes to the vector. Under the halt bug
the pushed address is that of the halt itself. -/
def dispatch (cpu : Cpu) (i : Interrupt) : Access Cpu := do
  let requested ← .read Interrupt.requestAddr
  .write Interrupt.requestAddr (requested &&& ~~~i.mask)
  let cpu ← cpu.push (if cpu.haltBug then cpu.regs.pc - 1 else cpu.regs.pc)
  return { cpu with
    regs.pc := i.vector
    ime := false
    halted := false
    haltBug := false
    eiPending := false
    eiDelay := false }

/-- A request for `ime` takes effect after the instruction that follows it. -/
def advanceEi (cpu : Cpu) : Cpu :=
  if cpu.eiDelay then { cpu with ime := true, eiDelay := false }
  else if cpu.eiPending then { cpu with eiPending := false, eiDelay := true }
  else cpu

def runInstruction (cpu : Cpu) : Access (Outcome × Cpu) := do
  let addr := cpu.regs.pc
  let (opcode, cpu) ← cpu.fetchOpcode
  let cpu := { cpu with lastOpcode := opcode.toUInt16 }
  match Instruction.decode opcode with
  | some instruction =>
    let (cost, cpu) ← cpu.execute instruction
    return (.ok cost, cpu.advanceEi)
  | none =>
    let e : IllegalOpcode := ⟨opcode, addr, cpu.cycles⟩
    return (.error e, { cpu.jump addr with locked := some e })

def awaitJoypad (cpu : Cpu) : Access (Outcome × Cpu) := do
  let lines ← .read joypadAddr
  return (.ok 4, if lines &&& 0x0F = 0x0F then cpu else { cpu with stopped := false })

def runHalted (cpu : Cpu) : Access (Outcome × Cpu) := do
  let pending ← Interrupt.pending
  if pending = 0 then return (.ok 4, cpu) else runInstruction { cpu with halted := false }

def advance (cpu : Cpu) : Access (Outcome × Cpu) := do
  if cpu.stopped then
    cpu.awaitJoypad
  else
    match ← cpu.dueInterrupt with
    | some i =>
      let cpu ← cpu.dispatch i
      return (.ok dispatchCost, cpu)
    | none => if cpu.halted then cpu.runHalted else cpu.runInstruction

def spend (cpu : Cpu) : Outcome → Cpu
  | .ok cost => { cpu with cycles := cpu.cycles + .ofNat cost }
  | .error _ => cpu

/-- A hung processor gives its illegal opcode again and leaves the bus alone. -/
def step (cpu : Cpu) : Access (Outcome × Cpu) :=
  match cpu.locked with
  | some e => return (.error e, cpu)
  | none => do
    let (outcome, cpu) ← cpu.advance
    return (outcome, cpu.spend outcome)

end DotMatrix.Cpu
