import DotMatrix.Bits

namespace DotMatrix

inductive Flag
  | z | n | h | c
  deriving DecidableEq

def Flag.index : Flag → UInt8
  | z => 7
  | n => 6
  | h => 5
  | c => 4

/-- The register F: zero, subtract, half carry and carry, above four bits that are always clear.
Whatever writes the byte has to show that they stay clear. -/
@[ext] structure Flags where
  toByte : UInt8
  low_nibble : toByte &&& 0x0F = 0
  deriving DecidableEq

namespace Flags

def get (f : Flags) (flag : Flag) : Bool := Byte.bit flag.index f.toByte

abbrev z (f : Flags) : Bool := f.get .z

abbrev n (f : Flags) : Bool := f.get .n

abbrev h (f : Flags) : Bool := f.get .h

abbrev c (f : Flags) : Bool := f.get .c

def ofByte (b : UInt8) : Flags where
  toByte := b &&& 0xF0
  low_nibble := by rw [UInt8.and_assoc]; exact UInt8.and_zero

def set (f : Flags) (flag : Flag) (value : Bool) : Flags where
  toByte := if value then Byte.setBit flag.index f.toByte else Byte.clearBit flag.index f.toByte
  low_nibble := by
    cases value with
    | false => exact Byte.clearBit_and_eq_zero _ f.low_nibble
    | true => exact Byte.setBit_and_eq_zero f.low_nibble (by cases flag <;> rfl)

def ofBits (z n h c : Bool) : Flags where
  toByte := z.toUInt8 <<< 7 ||| n.toUInt8 <<< 6 ||| h.toUInt8 <<< 5 ||| c.toUInt8 <<< 4
  low_nibble := by cases z <;> cases n <;> cases h <;> cases c <;> rfl

theorem get_eq (f : Flags) (flag : Flag) :
    f.get flag = f.toByte.toNat.testBit (flag.index.toNat % 8) :=
  Byte.bit_eq ..

@[simp] theorem get_set (f : Flags) (flag other : Flag) (value : Bool) :
    (f.set flag value).get other = if flag = other then value else f.get other := by
  have hindex : (other.index.toNat % 8 == flag.index.toNat % 8) = decide (flag = other) := by
    cases flag <;> cases other <;> rfl
  rw [get_eq, get_eq]
  cases value with
  | false =>
    refine (Byte.testBit_clearBit _ _ (Nat.mod_lt _ (by decide))).trans ?_
    rw [bne, hindex]
    by_cases h : flag = other <;> simp [h]
  | true =>
    refine (Byte.testBit_setBit ..).trans ?_
    rw [hindex]
    by_cases h : flag = other <;> simp [h]

@[simp] theorem get_ofBits (z n h c : Bool) (flag : Flag) :
    (ofBits z n h c).get flag = flag.casesOn z n h c := by
  cases flag <;> cases z <;> cases n <;> cases h <;> cases c <;> rfl

theorem testBit_low (f : Flags) {k : Nat} (hk : k < 4) : f.toByte.toNat.testBit k = false := by
  have hmask : (0x0F : UInt8).toNat.testBit k = true := by
    revert k
    decide
  have hzero : (f.toByte &&& 0x0F).toNat.testBit k = false := by
    rw [f.low_nibble]
    exact Nat.zero_testBit k
  rwa [UInt8.toNat_and, Nat.testBit_and, hmask, Bool.and_true] at hzero

theorem ext_get {f g : Flags} (h : ∀ flag, f.get flag = g.get flag) : f = g := by
  simp only [get_eq] at h
  refine Flags.ext (UInt8.toNat_inj.1 (Nat.eq_of_testBit_eq fun k => ?_))
  match k with
  | 0 | 1 | 2 | 3 => rw [f.testBit_low (by decide), g.testBit_low (by decide)]
  | 4 => exact h .c
  | 5 => exact h .h
  | 6 => exact h .n
  | 7 => exact h .z
  | k + 8 =>
    have hlt (b : UInt8) : b.toNat.testBit (k + 8) = false :=
      Nat.testBit_lt_two_pow
        (Nat.lt_of_lt_of_le b.toNat_lt (Nat.pow_le_pow_right (by decide) (by omega)))
    rw [hlt, hlt]

@[simp] theorem toByte_and_high (f : Flags) : f.toByte &&& 0xF0 = f.toByte := by
  have hsplit : f.toByte &&& 0x0F ||| f.toByte &&& 0xF0 = f.toByte &&& 0xFF :=
    UInt8.toBitVec_inj.1 BitVec.and_or_distrib_left.symm
  rw [f.low_nibble, UInt8.zero_or] at hsplit
  exact hsplit.trans UInt8.and_neg_one

end Flags

end DotMatrix
