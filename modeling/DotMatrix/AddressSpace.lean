import DotMatrix.Cartridge.Basic
import DotMatrix.Interrupt
import DotMatrix.Memory
import DotMatrix.Region

namespace DotMatrix

structure AddressSpace where
  memory : Memory
  cartridge : Option Cartridge

namespace AddressSpace

def echoOffset : UInt16 := 0x2000

def bootRegisters : List (UInt16 × UInt8) :=
  [(0xFF00, 0xCF),
   (0xFF01, 0x00), (0xFF02, 0x7E),
   (0xFF04, 0xAB), (0xFF05, 0x00), (0xFF06, 0x00), (0xFF07, 0xF8),
   (0xFF0F, 0xE1),
   (0xFF10, 0x80), (0xFF11, 0xBF), (0xFF12, 0xF3), (0xFF13, 0xFF), (0xFF14, 0xBF),
   (0xFF16, 0x3F), (0xFF17, 0x00), (0xFF18, 0xFF), (0xFF19, 0xBF),
   (0xFF1A, 0x7F), (0xFF1B, 0xFF), (0xFF1C, 0x9F), (0xFF1D, 0xFF), (0xFF1E, 0xBF),
   (0xFF20, 0xFF), (0xFF21, 0x00), (0xFF22, 0x00), (0xFF23, 0xBF),
   (0xFF24, 0x77), (0xFF25, 0xF3), (0xFF26, 0xF1),
   (0xFF40, 0x91), (0xFF41, 0x85), (0xFF42, 0x00), (0xFF43, 0x00), (0xFF44, 0x00), (0xFF45, 0x00),
   (0xFF46, 0xFF), (0xFF47, 0xFC), (0xFF4A, 0x00), (0xFF4B, 0x00),
   (0xFFFF, 0x00)]

def powerOn (cartridge : Option Cartridge) : AddressSpace :=
  ⟨Memory.zero.writeAll bootRegisters, cartridge⟩

def read (s : AddressSpace) (addr : UInt16) : UInt8 :=
  match Region.ofAddr addr with
  | .cartridgeRom => (s.cartridge.bind (·.read? addr)).getD openBus
  | .cartridgeRam => (s.cartridge.map (·.readRam addr)).getD openBus
  | .echoRam => s.memory.read (addr - echoOffset)
  | _ => s.memory.read addr

def write (s : AddressSpace) (addr : UInt16) (value : UInt8) : AddressSpace :=
  match Region.ofAddr addr with
  | .cartridgeRom => { s with cartridge := s.cartridge.map (·.write addr value) }
  | .cartridgeRam => { s with cartridge := s.cartridge.map (·.writeRam addr value) }
  | .echoRam => { s with memory := s.memory.write (addr - echoOffset) value }
  | _ => { s with memory := s.memory.write addr value }

instance : Bus AddressSpace := ⟨read, write⟩

@[simp] theorem bus_read (s : AddressSpace) (addr : UInt16) : Bus.read s addr = s.read addr := rfl

@[simp] theorem bus_write (s : AddressSpace) (addr : UInt16) (value : UInt8) :
    Bus.write s addr value = s.write addr value := rfl

def request (s : AddressSpace) (i : Interrupt) : AddressSpace :=
  s.write Interrupt.requestAddr (s.read Interrupt.requestAddr ||| i.mask)

end AddressSpace

end DotMatrix
