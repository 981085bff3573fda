namespace DotMatrix

inductive Interrupt
  | vblank
  | lcdStat
  | timer
  | serial
  | joypad
  deriving DecidableEq

namespace Interrupt

def enableAddr : UInt16 := 0xFFFF

def requestAddr : UInt16 := 0xFF0F

def vectorBase : UInt16 := 0x0040

def all : List Interrupt := [vblank, lcdStat, timer, serial, joypad]

def index : Interrupt → UInt8
  | vblank => 0
  | lcdStat => 1
  | timer => 2
  | serial => 3
  | joypad => 4

def mask (i : Interrupt) : UInt8 := 1 <<< i.index

def vector (i : Interrupt) : UInt16 := vectorBase + i.index.toUInt16 * 8

def sources (register : UInt8) : UInt8 := register &&& 0x1F

def first? (pending : UInt8) : Option Interrupt :=
  all.find? fun i => pending &&& i.mask != 0

end Interrupt

end DotMatrix
