import DotMatrix.Proofs.Cpu.ControlTransfer
import DotMatrix.Proofs.Instruction.Extended

namespace DotMatrix

theorem Word.combine_eq_ofNat (low high : UInt8) :
    Word.combine low high = .ofNat (low.toNat + 0x100 * high.toNat) := by
  have hl := low.toNat_lt
  have hh := high.toNat_lt
  apply UInt16.toNat_inj.1
  rw [Word.toNat_combine, UInt16.toNat_ofNat']
  omega

namespace Cpu

theorem highPage_eq (offset : UInt8) : highPage offset = 0xFF00 + offset.toUInt16 := by
  obtain ⟨⟨n⟩⟩ := offset
  revert n
  decide +kernel

def pushCells (sp w : UInt16) : List (UInt16 × UInt8) :=
  [(sp - 1, Word.high w), (sp - 2, Word.low w)]

section

variable {β : Type} [Bus β] (cpu : Cpu) (bus : β)

/-- Where the operands of the next instruction lie. Under the halt bug its opcode is read again. -/
def operandAddr : UInt16 := if cpu.haltBug then cpu.regs.pc else cpu.regs.pc + 1

def operandByte : UInt8 := Bus.read bus cpu.operandAddr

def operandWord : UInt16 :=
  .ofNat ((Bus.read bus cpu.operandAddr).toNat +
    0x100 * (Bus.read bus (cpu.operandAddr + 1)).toNat)

def extendedStores (i : ExtendedInstruction) : List (UInt16 × UInt8) :=
  match i with
  | .bit _ _ | .shift _ (.reg _) | .res _ (.reg _) | .set _ (.reg _) => []
  | i => [(cpu.regs.hl, (i.perform (Bus.read bus cpu.regs.hl) cpu.regs.f).1)]

def stores : Instruction → List (UInt16 × UInt8)
  | .load .atHL (.reg src) => [(cpu.regs.hl, cpu.regs.get src)]
  | .loadImm .atHL => [(cpu.regs.hl, cpu.operandByte bus)]
  | .inc .atHL => [(cpu.regs.hl, Bus.read bus cpu.regs.hl + 1)]
  | .dec .atHL => [(cpu.regs.hl, Bus.read bus cpu.regs.hl - 1)]
  | .storeA dst => [(cpu.regs.target dst, cpu.regs.a)]
  | .storeHigh => [(0xFF00 + (cpu.operandByte bus).toUInt16, cpu.regs.a)]
  | .storeHighC => [(0xFF00 + cpu.regs.c.toUInt16, cpu.regs.a)]
  | .storeAbs => [(cpu.operandWord bus, cpu.regs.a)]
  | .loadAbsSp =>
    [(cpu.operandWord bus, Word.low cpu.regs.sp), (cpu.operandWord bus + 1, Word.high cpu.regs.sp)]
  | .push src => pushCells cpu.regs.sp (cpu.regs.stackPair src)
  | .rst _ => pushCells cpu.regs.sp cpu.operandAddr
  | .call none => pushCells cpu.regs.sp (cpu.operandAddr + 2)
  | .call (some cc) =>
    if cc.Met cpu.regs.f then pushCells cpu.regs.sp (cpu.operandAddr + 2) else []
  | .extended => cpu.extendedStores bus (.decode (cpu.operandByte bus))
  | _ => []

theorem run_imm16_eq (opcode : UInt8) :
    (cpu.fetched opcode).imm16.run bus =
      ((cpu.operandWord bus, (cpu.fetched opcode).skip 2), bus) := by
  rw [run_imm16, Word.combine_eq_ofNat]
  rfl

variable {cpu bus}

end

end Cpu

end DotMatrix
