import DotMatrix.Instruction.Basic

/-!
Decoding. An opcode has the fields `xxyyyzzz`, and `yyy` splits further into `ppq`. The top field
names one of four blocks; eleven opcodes of the last block have no instruction.
-/

namespace DotMatrix

namespace Operand

def ofIndex (index : UInt8) : Operand :=
  match index &&& 7 with
  | 0 => reg .b
  | 1 => reg .c
  | 2 => reg .d
  | 3 => reg .e
  | 4 => reg .h
  | 5 => reg .l
  | 6 => atHL
  | _ => reg .a

end Operand

def Pair.ofIndex (index : UInt8) : Pair :=
  match index &&& 3 with
  | 0 => bc
  | 1 => de
  | 2 => hl
  | _ => sp

def StackPair.ofIndex (index : UInt8) : StackPair :=
  match index &&& 3 with
  | 0 => bc
  | 1 => de
  | 2 => hl
  | _ => af

def Pointer.ofIndex (index : UInt8) : Pointer :=
  match index &&& 3 with
  | 0 => bc
  | 1 => de
  | 2 => hlInc
  | _ => hlDec

def Condition.ofIndex (index : UInt8) : Condition :=
  match index &&& 3 with
  | 0 => nz
  | 1 => z
  | 2 => nc
  | _ => c

def AluOp.ofIndex (index : UInt8) : AluOp :=
  match index &&& 7 with
  | 0 => add
  | 1 => adc
  | 2 => sub
  | 3 => sbc
  | 4 => and
  | 5 => xor
  | 6 => or
  | _ => cp

def ShiftOp.ofIndex (index : UInt8) : ShiftOp :=
  match index &&& 7 with
  | 0 => rlc
  | 1 => rrc
  | 2 => rl
  | 3 => rr
  | 4 => sla
  | 5 => sra
  | 6 => swap
  | _ => srl

namespace Opcode

def x (opcode : UInt8) : UInt8 := opcode >>> 6

def y (opcode : UInt8) : UInt8 := opcode >>> 3 &&& 7

def z (opcode : UInt8) : UInt8 := opcode &&& 7

def p (opcode : UInt8) : UInt8 := opcode >>> 4 &&& 3

def q (opcode : UInt8) : Bool := opcode &&& 8 != 0

end Opcode

namespace Instruction

open Opcode

def ofLowBlock (op : UInt8) : Instruction :=
  match z op with
  | 0 =>
    match y op with
    | 0 => nop
    | 1 => loadAbsSp
    | 2 => stop
    | 3 => jr none
    | _ => jr (some (.ofIndex (y op)))
  | 1 => if q op then addHl (.ofIndex (p op)) else loadPair (.ofIndex (p op))
  | 2 => if q op then loadA (.ofIndex (p op)) else storeA (.ofIndex (p op))
  | 3 => if q op then decPair (.ofIndex (p op)) else incPair (.ofIndex (p op))
  | 4 => inc (.ofIndex (y op))
  | 5 => dec (.ofIndex (y op))
  | 6 => loadImm (.ofIndex (y op))
  | _ =>
    match y op with
    | 4 => daa
    | 5 => cpl
    | 6 => scf
    | 7 => ccf
    | _ => rotateA (.ofIndex (y op))

/-- Opcodes 40 to 7F. A load from memory to memory is a halt instead. -/
def ofLoadBlock (op : UInt8) : Instruction :=
  match Operand.ofIndex (y op), Operand.ofIndex (z op) with
  | .atHL, .atHL => halt
  | dst, src => load dst src

def ofHighBlock (op : UInt8) : Option Instruction :=
  match z op with
  | 0 =>
    match y op with
    | 4 => some storeHigh
    | 5 => some addSp
    | 6 => some loadHigh
    | 7 => some loadHlSp
    | _ => some (ret (some (.ofIndex (y op))))
  | 1 =>
    if q op then
      match p op with
      | 0 => some (ret none)
      | 1 => some reti
      | 2 => some jpHl
      | _ => some loadSpHl
    else some (pop (.ofIndex (p op)))
  | 2 =>
    match y op with
    | 4 => some storeHighC
    | 5 => some storeAbs
    | 6 => some loadHighC
    | 7 => some loadAbs
    | _ => some (jp (some (.ofIndex (y op))))
  | 3 =>
    match y op with
    | 0 => some (jp none)
    | 1 => some extended
    | 6 => some di
    | 7 => some ei
    | _ => none
  | 4 => if y op < 4 then some (call (some (.ofIndex (y op)))) else none
  | 5 =>
    if q op then if p op = 0 then some (call none) else none
    else some (push (.ofIndex (p op)))
  | 6 => some (aluImm (.ofIndex (y op)))
  | _ => some (rst (y op * 8))

def decode (opcode : UInt8) : Option Instruction :=
  match x opcode with
  | 0 => some (ofLowBlock opcode)
  | 1 => some (ofLoadBlock opcode)
  | 2 => some (alu (.ofIndex (y opcode)) (.ofIndex (z opcode)))
  | _ => ofHighBlock opcode

end Instruction

def ExtendedInstruction.decode (opcode : UInt8) : ExtendedInstruction :=
  let operand := Operand.ofIndex (Opcode.z opcode)
  match Opcode.x opcode with
  | 0 => shift (.ofIndex (Opcode.y opcode)) operand
  | 1 => bit (Opcode.y opcode) operand
  | 2 => res (Opcode.y opcode) operand
  | _ => set (Opcode.y opcode) operand

end DotMatrix
