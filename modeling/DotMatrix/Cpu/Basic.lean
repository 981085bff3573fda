import DotMatrix.Cpu.Registers
import DotMatrix.Text.Hex

namespace DotMatrix

/-- A fetched byte that is no instruction, where it was fetched, and the cycles spent before. -/
structure IllegalOpcode where
  opcode : UInt8
  pc : UInt16
  cycles : UInt64
  deriving DecidableEq

def IllegalOpcode.message (e : IllegalOpcode) : String :=
  "illegal opcode 0x" ++ Hex.ofByte e.opcode ++ " at 0x" ++ Hex.ofWord e.pc ++ " after " ++
    toString e.cycles.toNat ++ " cycles"

structure Cpu where
  regs : Registers
  ime : Bool := false
  halted : Bool := false
  stopped : Bool := false
  /-- The next opcode is fetched without moving on. -/
  haltBug : Bool := false
  /-- The step under way asked for `ime`. -/
  eiPending : Bool := false
  /-- The step before asked for `ime`. -/
  eiDelay : Bool := false
  locked : Option IllegalOpcode := none
  cycles : UInt64 := 0
  /-- The last opcode fetched; `0xCB` and its second byte on the second page. -/
  lastOpcode : UInt16 := 0
  deriving DecidableEq

namespace Cpu

/-- The state in which the boot program hands over to the cartridge. -/
def powerOn : Cpu where
  regs :=
    { a := 0x01, f := ⟨0xB0, rfl⟩, b := 0x00, c := 0x13, d := 0x00, e := 0xD8, h := 0x01,
      l := 0x4D, sp := 0xFFFE, pc := 0x0100 }

def reset (_cpu : Cpu) : Cpu := powerOn

def skip (cpu : Cpu) (n : UInt16) : Cpu := { cpu with regs.pc := cpu.regs.pc + n }

def jump (cpu : Cpu) (addr : UInt16) : Cpu := { cpu with regs.pc := addr }

def holds (cpu : Cpu) : Option Condition → Bool
  | none => true
  | some cond => cpu.regs.holds cond

end Cpu

end DotMatrix
