import DotMatrix.Bus.Access
import DotMatrix.Cpu.Basic

namespace DotMatrix.Cpu

def readOperand (cpu : Cpu) : Operand → Access UInt8
  | .reg r => return cpu.regs.get r
  | .atHL => .read cpu.regs.hl

def writeOperand (cpu : Cpu) (dst : Operand) (value : UInt8) : Access Cpu :=
  match dst with
  | .reg r => return { cpu with regs := cpu.regs.set r value }
  | .atHL => do
    .write cpu.regs.hl value
    return cpu

def peekImm8 (cpu : Cpu) : Access UInt8 := .read cpu.regs.pc

def peekImm16 (cpu : Cpu) : Access UInt16 := do
  let low ← .read cpu.regs.pc
  let high ← .read (cpu.regs.pc + 1)
  return Word.combine low high

def peekOffset (cpu : Cpu) : Access Int := Byte.signed <$> cpu.peekImm8

def imm8 (cpu : Cpu) : Access (UInt8 × Cpu) := do
  let value ← cpu.peekImm8
  return (value, cpu.skip 1)

def imm16 (cpu : Cpu) : Access (UInt16 × Cpu) := do
  let value ← cpu.peekImm16
  return (value, cpu.skip 2)

/-- The opcode at the program counter. Under the halt bug the program counter stays. -/
def fetchOpcode (cpu : Cpu) : Access (UInt8 × Cpu) := do
  let opcode ← .read cpu.regs.pc
  return (opcode, if cpu.haltBug then { cpu with haltBug := false } else cpu.skip 1)

/-- The high byte goes first, so that the low byte comes to lie below it. -/
def push (cpu : Cpu) (value : UInt16) : Access Cpu := do
  .write (cpu.regs.sp - 1) (Word.high value)
  .write (cpu.regs.sp - 2) (Word.low value)
  return { cpu with regs.sp := cpu.regs.sp - 2 }

def pop (cpu : Cpu) : Access (UInt16 × Cpu) := do
  let low ← .read cpu.regs.sp
  let high ← .read (cpu.regs.sp + 1)
  return (Word.combine low high, { cpu with regs.sp := cpu.regs.sp + 2 })

variable {β : Type} [Bus β] (cpu : Cpu) (bus : β)

@[simp] theorem run_readOperand_reg (r : Reg8) :
    (cpu.readOperand (.reg r)).run bus = (cpu.regs.get r, bus) := rfl

@[simp] theorem run_readOperand_atHL :
    (cpu.readOperand .atHL).run bus = (Bus.read bus cpu.regs.hl, bus) := rfl

@[simp] theorem run_writeOperand_reg (r : Reg8) (value : UInt8) :
    (cpu.writeOperand (.reg r) value).run bus =
      ({ cpu with regs := cpu.regs.set r value }, bus) := rfl

@[simp] theorem run_writeOperand_atHL (value : UInt8) :
    (cpu.writeOperand .atHL value).run bus = (cpu, Bus.write bus cpu.regs.hl value) := rfl

@[simp] theorem run_imm8 :
    cpu.imm8.run bus = ((Bus.read bus cpu.regs.pc, cpu.skip 1), bus) := rfl

@[simp] theorem run_imm16 :
    cpu.imm16.run bus =
      ((Word.combine (Bus.read bus cpu.regs.pc) (Bus.read bus (cpu.regs.pc + 1)), cpu.skip 2),
        bus) := rfl

@[simp] theorem run_fetchOpcode :
    cpu.fetchOpcode.run bus =
      ((Bus.read bus cpu.regs.pc,
        if cpu.haltBug then { cpu with haltBug := false } else cpu.skip 1), bus) := rfl

@[simp] theorem run_push (value : UInt16) :
    (cpu.push value).run bus =
      ({ cpu with regs.sp := cpu.regs.sp - 2 },
        Bus.write (Bus.write bus (cpu.regs.sp - 1) (Word.high value)) (cpu.regs.sp - 2)
          (Word.low value)) := rfl

@[simp] theorem run_pop :
    cpu.pop.run bus =
      ((Word.combine (Bus.read bus cpu.regs.sp) (Bus.read bus (cpu.regs.sp + 1)),
        { cpu with regs.sp := cpu.regs.sp + 2 }), bus) := rfl

end DotMatrix.Cpu
