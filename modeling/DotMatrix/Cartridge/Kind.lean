namespace DotMatrix

inductive Mapper
  | none
  | mbc1
  | mbc2
  | mmm01
  | mbc3
  | mbc5
  | mbc6
  | mbc7
  | pocketCamera
  | bandaiTama5
  | huC3
  | huC1
  | unknown (code : UInt8)
  deriving DecidableEq

def Mapper.name : Mapper → String
  | none => "None"
  | mbc1 => "Mbc1"
  | mbc2 => "Mbc2"
  | mmm01 => "Mmm01"
  | mbc3 => "Mbc3"
  | mbc5 => "Mbc5"
  | mbc6 => "Mbc6"
  | mbc7 => "Mbc7"
  | pocketCamera => "PocketCamera"
  | bandaiTama5 => "BandaiTama5"
  | huC3 => "HuC3"
  | huC1 => "HuC1"
  | unknown code => "Unknown(" ++ toString code.toNat ++ ")"

structure Kind where
  mapper : Mapper
  ram : Bool := false
  battery : Bool := false
  timer : Bool := false
  rumble : Bool := false
  deriving DecidableEq

namespace Kind

def ofCode : UInt8 → Kind
  | 0x00 => { mapper := .none }
  | 0x01 => { mapper := .mbc1 }
  | 0x02 => { mapper := .mbc1, ram := true }
  | 0x03 => { mapper := .mbc1, ram := true, battery := true }
  | 0x05 => { mapper := .mbc2 }
  | 0x06 => { mapper := .mbc2, battery := true }
  | 0x08 => { mapper := .none, ram := true }
  | 0x09 => { mapper := .none, ram := true, battery := true }
  | 0x0B => { mapper := .mmm01 }
  | 0x0C => { mapper := .mmm01, ram := true }
  | 0x0D => { mapper := .mmm01, ram := true, battery := true }
  | 0x0F => { mapper := .mbc3, battery := true, timer := true }
  | 0x10 => { mapper := .mbc3, ram := true, battery := true, timer := true }
  | 0x11 => { mapper := .mbc3 }
  | 0x12 => { mapper := .mbc3, ram := true }
  | 0x13 => { mapper := .mbc3, ram := true, battery := true }
  | 0x19 => { mapper := .mbc5 }
  | 0x1A => { mapper := .mbc5, ram := true }
  | 0x1B => { mapper := .mbc5, ram := true, battery := true }
  | 0x1C => { mapper := .mbc5, rumble := true }
  | 0x1D => { mapper := .mbc5, ram := true, rumble := true }
  | 0x1E => { mapper := .mbc5, ram := true, battery := true, rumble := true }
  | 0x20 => { mapper := .mbc6 }
  | 0x22 => { mapper := .mbc7, ram := true, battery := true, rumble := true }
  | 0xFC => { mapper := .pocketCamera }
  | 0xFD => { mapper := .bandaiTama5 }
  | 0xFE => { mapper := .huC3 }
  | 0xFF => { mapper := .huC1, ram := true, battery := true }
  | code => { mapper := .unknown code }

def needsMapper (k : Kind) : Bool := k.mapper != .none

def features (k : Kind) : String :=
  String.join <|
    [(k.ram, "+RAM"), (k.battery, "+BATTERY"), (k.timer, "+TIMER"), (k.rumble, "+RUMBLE")].filterMap
      fun (present, name) => if present then some name else none

end Kind

end DotMatrix
