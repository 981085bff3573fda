namespace DotMatrix

inductive Region
  | cartridgeRom
  | videoRam
  | cartridgeRam
  | workRam
  | echoRam
  | oam
  | unusable
  | io
  | highRam
  | interruptEnable
  deriving DecidableEq

namespace Region

def ofAddr (addr : UInt16) : Region :=
  if addr < 0x8000 then cartridgeRom
  else if addr < 0xA000 then videoRam
  else if addr < 0xC000 then cartridgeRam
  else if addr < 0xE000 then workRam
  else if addr < 0xFE00 then echoRam
  else if addr < 0xFEA0 then oam
  else if addr < 0xFF00 then unusable
  else if addr < 0xFF80 then io
  else if addr < 0xFFFF then highRam
  else interruptEnable

def isCartridge (r : Region) : Bool := r == cartridgeRom || r == cartridgeRam

end Region

end DotMatrix
