import DotMatrix.Cpu.Arithmetic
import DotMatrix.Cpu.Transfer
import DotMatrix.Instruction.Decode
import DotMatrix.Interrupt

namespace DotMatrix

def Interrupt.pending : Access UInt8 := do
  let enabled ← .read enableAddr
  let requested ← .read requestAddr
  return sources (enabled &&& requested)

def Interrupt.pendingOn [Bus β] (bus : β) : UInt8 :=
  sources (Bus.read bus enableAddr &&& Bus.read bus requestAddr)

@[simp] theorem Interrupt.run_pending [Bus β] (bus : β) :
    pending.run bus = (pendingOn bus, bus) := rfl

namespace Cpu

def highPage (offset : UInt8) : UInt16 := 0xFF00 ||| offset.toUInt16

def costOf (operand : Operand) (inRegister inMemory : Nat) : Nat :=
  if operand.isMemory then inMemory else inRegister

def alu (cpu : Cpu) (op : AluOp) (value : UInt8) : Cpu :=
  let (a, f) := op.apply cpu.regs.a value cpu.regs.f
  { cpu with regs := { cpu.regs with a, f } }

/-- Unlike a shift of the second page, a rotate of A always clears the zero flag. -/
def rotateA (cpu : Cpu) (op : ShiftOp) : Cpu :=
  let (a, f) := op.apply cpu.regs.a cpu.regs.f.c
  { cpu with regs := { cpu.regs with a, f := f.set .z false } }

def daa (cpu : Cpu) : Cpu :=
  let (a, f) := Arithmetic.daa cpu.regs.a cpu.regs.f
  { cpu with regs := { cpu.regs with a, f } }

def addHl (cpu : Cpu) (value : UInt16) : Cpu :=
  let (hl, f) := Arithmetic.addWords cpu.regs.hl value cpu.regs.f
  { cpu with regs := { cpu.regs.setHl hl with f } }

/-- With `ime` clear and an interrupt pending the processor does not sleep, but trips over the next
fetch. -/
def halt (cpu : Cpu) : Access Cpu := do
  if cpu.ime then
    return { cpu with halted := true }
  else
    let pending ← Interrupt.pending
    return if pending = 0 then { cpu with halted := true } else { cpu with haltBug := true }

def jumpRelative (cpu : Cpu) (cond : Option Condition) : Access (Nat × Cpu) := do
  let taken := cpu.holds cond
  let (offset, cpu) ← cpu.imm8
  return if taken then (12, cpu.skip (Byte.signExtend offset)) else (8, cpu)

def jumpAbsolute (cpu : Cpu) (cond : Option Condition) : Access (Nat × Cpu) := do
  let taken := cpu.holds cond
  let (addr, cpu) ← cpu.imm16
  return if taken then (16, cpu.jump addr) else (12, cpu)

def call (cpu : Cpu) (cond : Option Condition) : Access (Nat × Cpu) := do
  let taken := cpu.holds cond
  let (addr, cpu) ← cpu.imm16
  if taken then
    let cpu ← cpu.push cpu.regs.pc
    return (24, cpu.jump addr)
  else
    return (12, cpu)

def ret (cpu : Cpu) : Access Cpu := do
  let (addr, cpu) ← cpu.pop
  return cpu.jump addr

def executeExtended (cpu : Cpu) : ExtendedInstruction → Access (Nat × Cpu)
  | .shift op dst => do
    let value ← cpu.readOperand dst
    let (result, f) := op.apply value cpu.regs.f.c
    let cpu ← writeOperand { cpu with regs.f := f } dst result
    return (costOf dst 8 16, cpu)
  | .bit index src => do
    let value ← cpu.readOperand src
    let f := ((cpu.regs.f.set .z !Byte.bit index value).set .n false).set .h true
    return (costOf src 8 12, { cpu with regs.f := f })
  | .res index dst => do
    let value ← cpu.readOperand dst
    let cpu ← cpu.writeOperand dst (Byte.clearBit index value)
    return (costOf dst 8 16, cpu)
  | .set index dst => do
    let value ← cpu.readOperand dst
    let cpu ← cpu.writeOperand dst (Byte.setBit index value)
    return (costOf dst 8 16, cpu)

def execute (cpu : Cpu) : Instruction → Access (Nat × Cpu)
  | .nop => return (4, cpu)
  | .stop => do
    let (_, cpu) ← cpu.imm8
    return (4, { cpu with stopped := true, halted := false })
  | .halt => do
    let cpu ← cpu.halt
    return (4, cpu)
  | .di => return (4, { cpu with ime := false, eiPending := false, eiDelay := false })
  | .ei => return (4, { cpu with eiPending := true })
  | .loadPair dst => do
    let (value, cpu) ← cpu.imm16
    return (12, { cpu with regs := cpu.regs.setPair dst value })
  | .loadAbsSp => do
    let (addr, cpu) ← cpu.imm16
    .write addr (Word.low cpu.regs.sp)
    .write (addr + 1) (Word.high cpu.regs.sp)
    return (20, cpu)
  | .loadSpHl => return (8, { cpu with regs.sp := cpu.regs.hl })
  | .loadHlSp => do
    let (offset, cpu) ← cpu.imm8
    let (hl, f) := Arithmetic.addOffset cpu.regs.sp offset
    return (12, { cpu with regs := { cpu.regs.setHl hl with f } })
  | .storeA dst => do
    .write (cpu.regs.target dst) cpu.regs.a
    return (8, { cpu with regs := cpu.regs.step dst })
  | .loadA src => do
    let a ← .read (cpu.regs.target src)
    return (8, { cpu with regs := { cpu.regs.step src with a } })
  | .load dst src => do
    let value ← cpu.readOperand src
    let cpu ← cpu.writeOperand dst value
    return (if dst.isMemory || src.isMemory then 8 else 4, cpu)
  | .loadImm dst => do
    let (value, cpu) ← cpu.imm8
    let cpu ← cpu.writeOperand dst value
    return (costOf dst 8 12, cpu)
  | .storeAbs => do
    let (addr, cpu) ← cpu.imm16
    .write addr cpu.regs.a
    return (16, cpu)
  | .loadAbs => do
    let (addr, cpu) ← cpu.imm16
    let a ← .read addr
    return (16, { cpu with regs.a := a })
  | .storeHigh => do
    let (offset, cpu) ← cpu.imm8
    .write (highPage offset) cpu.regs.a
    return (12, cpu)
  | .loadHigh => do
    let (offset, cpu) ← cpu.imm8
    let a ← .read (highPage offset)
    return (12, { cpu with regs.a := a })
  | .storeHighC => do
    .write (highPage cpu.regs.c) cpu.regs.a
    return (8, cpu)
  | .loadHighC => do
    let a ← .read (highPage cpu.regs.c)
    return (8, { cpu with regs.a := a })
  | .push src => do
    let cpu ← cpu.push (cpu.regs.stackPair src)
    return (16, cpu)
  | .pop dst => do
    let (value, cpu) ← cpu.pop
    return (12, { cpu with regs := cpu.regs.setStackPair dst value })
  | .inc dst => do
    let value ← cpu.readOperand dst
    let (result, f) := Arithmetic.inc value cpu.regs.f
    let cpu ← writeOperand { cpu with regs.f := f } dst result
    return (costOf dst 4 12, cpu)
  | .dec dst => do
    let value ← cpu.readOperand dst
    let (result, f) := Arithmetic.dec value cpu.regs.f
    let cpu ← writeOperand { cpu with regs.f := f } dst result
    return (costOf dst 4 12, cpu)
  | .incPair dst => return (8, { cpu with regs := cpu.regs.setPair dst (cpu.regs.pair dst + 1) })
  | .decPair dst => return (8, { cpu with regs := cpu.regs.setPair dst (cpu.regs.pair dst - 1) })
  | .alu op src => do
    let value ← cpu.readOperand src
    return (costOf src 4 8, cpu.alu op value)
  | .aluImm op => do
    let (value, cpu) ← cpu.imm8
    return (8, cpu.alu op value)
  | .addHl src => return (8, cpu.addHl (cpu.regs.pair src))
  | .addSp => do
    let (offset, cpu) ← cpu.imm8
    let (sp, f) := Arithmetic.addOffset cpu.regs.sp offset
    return (16, { cpu with regs := { cpu.regs with sp, f } })
  | .rotateA op => return (4, cpu.rotateA op)
  | .daa => return (4, cpu.daa)
  | .cpl =>
    let f := (cpu.regs.f.set .h true).set .n true
    return (4, { cpu with regs := { cpu.regs with a := ~~~cpu.regs.a, f } })
  | .scf =>
    let f := ((cpu.regs.f.set .c true).set .h false).set .n false
    return (4, { cpu with regs.f := f })
  | .ccf =>
    let f := ((cpu.regs.f.set .c !cpu.regs.f.c).set .h false).set .n false
    return (4, { cpu with regs.f := f })
  | .jr cond => cpu.jumpRelative cond
  | .jp cond => cpu.jumpAbsolute cond
  | .jpHl => return (4, cpu.jump cpu.regs.hl)
  | .call cond => cpu.call cond
  | .ret none => do
    let cpu ← cpu.ret
    return (16, cpu)
  | .ret (some cond) => do
    if cpu.regs.holds cond then
      let cpu ← cpu.ret
      return (20, cpu)
    else
      return (8, cpu)
  | .reti => do
    let cpu ← cpu.ret
    return (16, { cpu with ime := true })
  | .rst vector => do
    let cpu ← cpu.push cpu.regs.pc
    return (16, cpu.jump vector.toUInt16)
  | .extended => do
    let (opcode, cpu) ← cpu.imm8
    executeExtended { cpu with lastOpcode := 0xCB00 ||| opcode.toUInt16 } (.decode opcode)

end Cpu

end DotMatrix
