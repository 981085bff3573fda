import DotMatrix.Instruction.Basic
import DotMatrix.Text.Hex

namespace DotMatrix

def Reg8.name : Reg8 → String
  | a => "A"
  | b => "B"
  | c => "C"
  | d => "D"
  | e => "E"
  | h => "H"
  | l => "L"

def Operand.name : Operand → String
  | reg r => r.name
  | atHL => "(HL)"

def Pair.name : Pair → String
  | bc => "BC"
  | de => "DE"
  | hl => "HL"
  | sp => "SP"

def StackPair.name : StackPair → String
  | bc => "BC"
  | de => "DE"
  | hl => "HL"
  | af => "AF"

def Pointer.name : Pointer → String
  | bc => "(BC)"
  | de => "(DE)"
  | hlInc => "(HL+)"
  | hlDec => "(HL-)"

def Condition.name : Condition → String
  | nz => "NZ"
  | z => "Z"
  | nc => "NC"
  | c => "C"

def AluOp.head : AluOp → String
  | add => "ADD A,"
  | adc => "ADC A,"
  | sub => "SUB "
  | sbc => "SBC A,"
  | and => "AND "
  | xor => "XOR "
  | or => "OR "
  | cp => "CP "

def ShiftOp.name : ShiftOp → String
  | rlc => "RLC"
  | rrc => "RRC"
  | rl => "RL"
  | rr => "RR"
  | sla => "SLA"
  | sra => "SRA"
  | swap => "SWAP"
  | srl => "SRL"

namespace Instruction

def transfer (name : String) (cond : Option Condition) (target : String) : String :=
  match cond with
  | none => name ++ " " ++ target
  | some cc => name ++ " " ++ cc.name ++ "," ++ target

def mnemonic : Instruction → String
  | nop => "NOP"
  | stop => "STOP"
  | halt => "HALT"
  | di => "DI"
  | ei => "EI"
  | loadPair dst => "LD " ++ dst.name ++ ",d16"
  | loadAbsSp => "LD (a16),SP"
  | loadSpHl => "LD SP,HL"
  | loadHlSp => "LD HL,SP+r8"
  | storeA dst => "LD " ++ dst.name ++ ",A"
  | loadA src => "LD A," ++ src.name
  | load dst src => "LD " ++ dst.name ++ "," ++ src.name
  | loadImm dst => "LD " ++ dst.name ++ ",d8"
  | storeAbs => "LD (a16),A"
  | loadAbs => "LD A,(a16)"
  | storeHigh => "LDH (a8),A"
  | loadHigh => "LDH A,(a8)"
  | storeHighC => "LD (C),A"
  | loadHighC => "LD A,(C)"
  | push src => "PUSH " ++ src.name
  | pop dst => "POP " ++ dst.name
  | inc dst => "INC " ++ dst.name
  | dec dst => "DEC " ++ dst.name
  | incPair dst => "INC " ++ dst.name
  | decPair dst => "DEC " ++ dst.name
  | alu op src => op.head ++ src.name
  | aluImm op => op.head ++ "d8"
  | addHl src => "ADD HL," ++ src.name
  | addSp => "ADD SP,r8"
  | rotateA op => op.name ++ "A"
  | daa => "DAA"
  | cpl => "CPL"
  | scf => "SCF"
  | ccf => "CCF"
  | jr cond => transfer "JR" cond "r8"
  | jp cond => transfer "JP" cond "a16"
  | jpHl => "JP HL"
  | call cond => transfer "CALL" cond "a16"
  | ret none => "RET"
  | ret (some cc) => "RET " ++ cc.name
  | reti => "RETI"
  | rst vector => "RST " ++ Hex.ofByte vector ++ "H"
  | extended => "PREFIX CB"

end Instruction

def ExtendedInstruction.mnemonic : ExtendedInstruction → String
  | shift op dst => op.name ++ " " ++ dst.name
  | bit index src => "BIT " ++ toString index.toNat ++ "," ++ src.name
  | res index dst => "RES " ++ toString index.toNat ++ "," ++ dst.name
  | set index dst => "SET " ++ toString index.toNat ++ "," ++ dst.name

end DotMatrix
