namespace DotMatrix

inductive Reg8
  | a | b | c | d | e | h | l
  deriving DecidableEq

inductive Operand
  | reg (r : Reg8)
  | atHL
  deriving DecidableEq

inductive Pair
  | bc | de | hl | sp
  deriving DecidableEq

inductive StackPair
  | bc | de | hl | af
  deriving DecidableEq

inductive Pointer
  | bc | de | hlInc | hlDec
  deriving DecidableEq

inductive Condition
  | nz | z | nc | c
  deriving DecidableEq

inductive AluOp
  | add | adc | sub | sbc | and | xor | or | cp
  deriving DecidableEq

inductive ShiftOp
  | rlc | rrc | rl | rr | sla | sra | swap | srl
  deriving DecidableEq

/-- An instruction of the first page. A jump, call or return without a condition is always taken. -/
inductive Instruction
  | nop
  | stop
  | halt
  | di
  | ei
  | loadPair (dst : Pair)
  | loadAbsSp
  | loadSpHl
  | loadHlSp
  | storeA (dst : Pointer)
  | loadA (src : Pointer)
  | load (dst src : Operand)
  | loadImm (dst : Operand)
  | storeAbs
  | loadAbs
  | storeHigh
  | loadHigh
  | storeHighC
  | loadHighC
  | push (src : StackPair)
  | pop (dst : StackPair)
  | inc (dst : Operand)
  | dec (dst : Operand)
  | incPair (dst : Pair)
  | decPair (dst : Pair)
  | alu (op : AluOp) (src : Operand)
  | aluImm (op : AluOp)
  | addHl (src : Pair)
  | addSp
  | rotateA (op : ShiftOp)
  | daa
  | cpl
  | scf
  | ccf
  | jr (cond : Option Condition)
  | jp (cond : Option Condition)
  | jpHl
  | call (cond : Option Condition)
  | ret (cond : Option Condition)
  | reti
  | rst (vector : UInt8)
  | extended
  deriving DecidableEq

inductive ExtendedInstruction
  | shift (op : ShiftOp) (dst : Operand)
  | bit (index : UInt8) (src : Operand)
  | res (index : UInt8) (dst : Operand)
  | set (index : UInt8) (dst : Operand)
  deriving DecidableEq

def Operand.isMemory : Operand → Bool
  | reg _ => false
  | atHL => true

end DotMatrix
