import DotMatrix.Cpu.Registers

namespace DotMatrix

namespace Arithmetic

def add (a value : UInt8) (carry : Bool) : UInt8 × Flags :=
  let (result, c) := Byte.add a value carry
  (result, .ofBits (result == 0) false (Byte.halfCarry a value carry) c)

def sub (a value : UInt8) (borrow : Bool) : UInt8 × Flags :=
  let (result, c) := Byte.sub a value borrow
  (result, .ofBits (result == 0) true (Byte.halfBorrow a value borrow) c)

def inc (value : UInt8) (f : Flags) : UInt8 × Flags :=
  let (result, _) := Byte.checkedAdd value 1
  (result, ((f.set .z (result == 0)).set .n false).set .h (Byte.halfCarry value 1 false))

def dec (value : UInt8) (f : Flags) : UInt8 × Flags :=
  let (result, _) := Byte.checkedSub value 1
  (result, ((f.set .z (result == 0)).set .n true).set .h (Byte.halfBorrow value 1 false))

def decimalAdjustment (a : UInt8) (f : Flags) : UInt8 :=
  let tens := f.c || !f.n && 0x99 < a
  let ones := f.h || !f.n && 0x09 < a &&& 0x0F
  (if tens then 0x60 else 0) + (if ones then 0x06 else 0)

def daa (a : UInt8) (f : Flags) : UInt8 × Flags :=
  let adjustment := decimalAdjustment a f
  let result := if f.n then a - adjustment else a + adjustment
  (result, ((f.set .c (0x60 ≤ adjustment)).set .h false).set .z (result == 0))

def addWords (x y : UInt16) (f : Flags) : UInt16 × Flags :=
  let f := f.set .n false
  let f := f.set .h (0x0FFF < x.toNat % 0x1000 + y.toNat % 0x1000)
  (x + y, f.set .c (0xFFFF < x.toNat + y.toNat))

/-- A word and a signed offset. The flags come from the unsigned sum of the low bytes. -/
def addOffset (base : UInt16) (offset : UInt8) : UInt16 × Flags :=
  let (_, carry) := Byte.checkedAdd (Word.low base) offset
  (base + Byte.signExtend offset,
    .ofBits false false (Byte.halfCarry (Word.low base) offset false) carry)

theorem toNat_add (a value : UInt8) (carry : Bool) :
    (add a value carry).1.toNat + 0x100 * (add a value carry).2.c.toNat =
      a.toNat + value.toNat + carry.toNat := by
  simpa [add] using Byte.toNat_add a value carry

theorem toNat_fst_add (a value : UInt8) (carry : Bool) :
    (add a value carry).1.toNat = (a.toNat + value.toNat + carry.toNat) % 0x100 := by
  have hsum := toNat_add a value carry
  have hlt := (add a value carry).1.toNat_lt
  omega

theorem toNat_carry_add (a value : UInt8) (carry : Bool) :
    (add a value carry).2.c.toNat = (a.toNat + value.toNat + carry.toNat) / 0x100 := by
  have hsum := toNat_add a value carry
  have hlt := (add a value carry).1.toNat_lt
  omega

theorem toNat_sub (a value : UInt8) (borrow : Bool) :
    (sub a value borrow).1.toNat + value.toNat + borrow.toNat =
      a.toNat + 0x100 * (sub a value borrow).2.c.toNat := by
  simpa [sub] using Byte.toNat_sub a value borrow

end Arithmetic

def AluOp.apply (op : AluOp) (a value : UInt8) (f : Flags) : UInt8 × Flags :=
  match op with
  | add => Arithmetic.add a value false
  | adc => Arithmetic.add a value f.c
  | sub => Arithmetic.sub a value false
  | sbc => Arithmetic.sub a value f.c
  | and => (a &&& value, .ofBits (a &&& value == 0) false true false)
  | xor => (a ^^^ value, .ofBits (a ^^^ value == 0) false false false)
  | or => (a ||| value, .ofBits (a ||| value == 0) false false false)
  | cp => (a, (Arithmetic.sub a value false).2)

def ShiftOp.shift (op : ShiftOp) (value : UInt8) (carry : Bool) : UInt8 × Bool :=
  match op with
  | rlc => (Byte.rotateLeft value, Byte.bit 7 value)
  | rrc => (Byte.rotateRight value, Byte.bit 0 value)
  | rl => (value <<< 1 ||| carry.toUInt8, Byte.bit 7 value)
  | rr => (value >>> 1 ||| carry.toUInt8 <<< 7, Byte.bit 0 value)
  | sla => (value <<< 1, Byte.bit 7 value)
  | sra => (value >>> 1 ||| value &&& 0x80, Byte.bit 0 value)
  | swap => (Byte.swapNibbles value, false)
  | srl => (value >>> 1, Byte.bit 0 value)

def ShiftOp.apply (op : ShiftOp) (value : UInt8) (carry : Bool) : UInt8 × Flags :=
  let (result, out) := op.shift value carry
  (result, .ofBits (result == 0) false false out)

end DotMatrix
