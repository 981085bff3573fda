namespace DotMatrix

namespace Word

def combine (low high : UInt8) : UInt16 := high.toUInt16 <<< 8 ||| low.toUInt16

def low (w : UInt16) : UInt8 := w.toUInt8

def high (w : UInt16) : UInt8 := (w >>> 8).toUInt8

theorem toNat_combine (low high : UInt8) :
    (combine low high).toNat = low.toNat + 0x100 * high.toNat := by
  have hl := low.toNat_lt
  have hh := high.toNat_lt
  have sum : high.toNat <<< 8 ||| low.toNat = low.toNat + 0x100 * high.toNat := by
    rw [← Nat.shiftLeft_add_eq_or_of_lt hl, Nat.shiftLeft_eq]
    omega
  simp only [combine, UInt16.toNat_or, UInt16.toNat_shiftLeft, UInt8.toNat_toUInt16]
  rw [Nat.mod_eq_of_lt (by rw [Nat.shiftLeft_eq]; simp; omega)]
  simpa using sum

@[simp] theorem toNat_low (w : UInt16) : (low w).toNat = w.toNat % 0x100 := by
  simp [low]

@[simp] theorem toNat_high (w : UInt16) : (high w).toNat = w.toNat / 0x100 := by
  have := w.toNat_lt
  simp [high, Nat.shiftRight_eq_div_pow]
  omega

@[simp] theorem combine_low_high (w : UInt16) : combine (low w) (high w) = w := by
  apply UInt16.toNat_inj.1
  rw [toNat_combine, toNat_low, toNat_high]
  omega

@[simp] theorem low_combine (l h : UInt8) : low (combine l h) = l := by
  have := l.toNat_lt
  apply UInt8.toNat_inj.1
  rw [toNat_low, toNat_combine]
  omega

@[simp] theorem high_combine (l h : UInt8) : high (combine l h) = h := by
  have := l.toNat_lt
  apply UInt8.toNat_inj.1
  rw [toNat_high, toNat_combine]
  omega

end Word

namespace Byte

def checkedAdd (a b : UInt8) : UInt8 × Bool :=
  let wide := a.toUInt16 + b.toUInt16
  (wide.toUInt8, wide &&& 0xFF00 != 0)

def checkedSub (a b : UInt8) : UInt8 × Bool :=
  let wide := a.toUInt16 - b.toUInt16
  (wide.toUInt8, wide &&& 0xFF00 != 0)

/-- The carry comes in by a second sum, and either of the two may carry out. -/
def add (a b : UInt8) (carry : Bool) : UInt8 × Bool :=
  let (low, first) := checkedAdd a b
  let (result, second) := checkedAdd low carry.toUInt8
  (result, first || second)

def sub (a b : UInt8) (borrow : Bool) : UInt8 × Bool :=
  let (low, first) := checkedSub a b
  let (result, second) := checkedSub low borrow.toUInt8
  (result, first || second)

def halfCarry (a b : UInt8) (carry : Bool) : Bool :=
  0x0F < a.toNat % 16 + b.toNat % 16 + carry.toNat

def halfBorrow (a b : UInt8) (borrow : Bool) : Bool :=
  a.toNat % 16 < b.toNat % 16 + borrow.toNat

/-- A shift takes its amount modulo eight, so only the low three bits of an index count. -/
def bit (index value : UInt8) : Bool := value >>> index &&& 1 == 1

def setBit (index value : UInt8) : UInt8 := value ||| 1 <<< index

def clearBit (index value : UInt8) : UInt8 := value &&& ~~~(1 <<< index)

def rotateLeft (value : UInt8) : UInt8 := value <<< 1 ||| value >>> 7

def rotateRight (value : UInt8) : UInt8 := value >>> 1 ||| value <<< 7

def swapNibbles (value : UInt8) : UInt8 := value <<< 4 ||| value >>> 4

def signed (value : UInt8) : Int :=
  if value < 0x80 then value.toNat else value.toNat - 0x100

def signExtend (value : UInt8) : UInt16 :=
  if value < 0x80 then value.toUInt16 else 0xFF00 ||| value.toUInt16

theorem high_ne_zero (w : UInt16) : (w &&& 0xFF00 != 0) = decide (0xFF < w.toNat) := by
  have hlt := w.toNat_lt
  have hdiv : (w.toNat &&& 0xFF00) / 2 ^ 8 = w.toNat / 2 ^ 8 &&& 2 ^ 8 - 1 := Nat.and_div_two_pow
  have hmod : (w.toNat &&& 0xFF00) % 2 ^ 8 = w.toNat % 2 ^ 8 &&& 0 := Nat.and_mod_two_pow
  have hzero : w &&& 0xFF00 = 0 ↔ w.toNat &&& 0xFF00 = 0 := UInt16.toNat_inj.symm
  rw [Nat.and_two_pow_sub_one_eq_mod] at hdiv
  rw [Nat.and_zero] at hmod
  rw [Bool.eq_iff_iff, bne_iff_ne, decide_eq_true_iff, Ne, hzero]
  omega

theorem checkedAdd_eq (a b : UInt8) :
    checkedAdd a b = (a + b, decide (0xFF < a.toNat + b.toNat)) := by
  have hwide : (a.toUInt16 + b.toUInt16).toNat = a.toNat + b.toNat := by
    have ha := a.toNat_lt
    have hb := b.toNat_lt
    simp
    omega
  simp [checkedAdd, high_ne_zero, hwide]

theorem checkedSub_eq (a b : UInt8) :
    checkedSub a b = (a - b, decide (a.toNat < b.toNat)) := by
  have hwide : 0xFF < (a.toUInt16 - b.toUInt16).toNat ↔ a.toNat < b.toNat := by
    have ha := a.toNat_lt
    have hb := b.toNat_lt
    simp [UInt16.toNat_sub]
    omega
  simp [checkedSub, high_ne_zero, hwide]

theorem toNat_toUInt8 (b : Bool) : b.toUInt8.toNat = b.toNat := by
  cases b <;> rfl

theorem add_eq (a b : UInt8) (carry : Bool) :
    add a b carry = (a + b + carry.toUInt8, decide (0xFF < a.toNat + b.toNat + carry.toNat)) := by
  have hjoined : 0xFF < a.toNat + b.toNat ∨ 0xFF < (a + b).toNat + carry.toNat ↔
      0xFF < a.toNat + b.toNat + carry.toNat := by
    have ha := a.toNat_lt
    have hb := b.toNat_lt
    have hc := carry.toNat_lt
    rw [UInt8.toNat_add]
    omega
  simp only [add, checkedAdd_eq, toNat_toUInt8, ← Bool.decide_or, hjoined]

theorem sub_eq (a b : UInt8) (borrow : Bool) :
    sub a b borrow = (a - b - borrow.toUInt8, decide (a.toNat < b.toNat + borrow.toNat)) := by
  have hjoined : a.toNat < b.toNat ∨ (a - b).toNat < borrow.toNat ↔
      a.toNat < b.toNat + borrow.toNat := by
    have ha := a.toNat_lt
    have hb := b.toNat_lt
    have hc := borrow.toNat_lt
    rw [UInt8.toNat_sub]
    omega
  simp only [sub, checkedSub_eq, toNat_toUInt8, ← Bool.decide_or, hjoined]

@[simp] theorem add_false (a b : UInt8) : add a b false = checkedAdd a b := by
  rw [add_eq, checkedAdd_eq]
  exact congrArg (Prod.mk · _) (UInt8.add_zero _)

@[simp] theorem sub_false (a b : UInt8) : sub a b false = checkedSub a b := by
  rw [sub_eq, checkedSub_eq]
  exact congrArg (Prod.mk · _) (UInt8.sub_zero _)

theorem toNat_add (a b : UInt8) (carry : Bool) :
    (add a b carry).1.toNat + 0x100 * (add a b carry).2.toNat =
      a.toNat + b.toNat + carry.toNat := by
  have ha := a.toNat_lt
  have hb := b.toNat_lt
  have hc := carry.toNat_lt
  rw [add_eq]
  by_cases h : 0xFF < a.toNat + b.toNat + carry.toNat <;> simp [h, toNat_toUInt8] <;> omega

theorem toNat_sub (a b : UInt8) (borrow : Bool) :
    (sub a b borrow).1.toNat + b.toNat + borrow.toNat =
      a.toNat + 0x100 * (sub a b borrow).2.toNat := by
  have ha := a.toNat_lt
  have hb := b.toNat_lt
  have hc := borrow.toNat_lt
  rw [sub_eq]
  by_cases h : a.toNat < b.toNat + borrow.toNat <;>
    simp [h, UInt8.toNat_sub, toNat_toUInt8] <;> omega

theorem bit_eq (index value : UInt8) :
    bit index value = value.toNat.testBit (index.toNat % 8) := by
  have hand : (value >>> index &&& 1).toNat = value.toNat / 2 ^ (index.toNat % 8) % 2 := by
    rw [UInt8.toNat_and, UInt8.toNat_shiftRight, Nat.shiftRight_eq_div_pow]
    exact Nat.and_one_is_mod _
  rw [bit, Nat.testBit_eq_decide_div_mod_eq, ← hand, Bool.eq_iff_iff, beq_iff_eq,
    decide_eq_true_iff]
  exact UInt8.toNat_inj.symm

theorem testBit_mask (index : UInt8) (k : Nat) :
    (1 <<< index : UInt8).toNat.testBit k = (k == index.toNat % 8) := by
  have hlt : 2 ^ (index.toNat % 8) < 2 ^ 8 :=
    Nat.pow_lt_pow_right (by decide) (Nat.mod_lt _ (by decide))
  have hmask : (1 <<< index : UInt8).toNat = 2 ^ (index.toNat % 8) := by
    rw [UInt8.toNat_shiftLeft, Nat.shiftLeft_eq, UInt8.toNat_one, Nat.one_mul]
    exact Nat.mod_eq_of_lt hlt
  rw [hmask, Nat.testBit_two_pow, Bool.eq_iff_iff, decide_eq_true_iff, beq_iff_eq, eq_comm]

theorem testBit_setBit (index value : UInt8) (k : Nat) :
    (setBit index value).toNat.testBit k =
      (value.toNat.testBit k || k == index.toNat % 8) := by
  rw [setBit, UInt8.toNat_or, Nat.testBit_or, testBit_mask]

theorem testBit_clearBit (index value : UInt8) {k : Nat} (hk : k < 8) :
    (clearBit index value).toNat.testBit k =
      (value.toNat.testBit k && k != index.toNat % 8) := by
  have hnot : (~~~(1 <<< index) : UInt8).toNat.testBit k =
      !(1 <<< index : UInt8).toNat.testBit k := by
    have hlsb := BitVec.getLsbD_not (x := (1 <<< index : UInt8).toBitVec) (i := k)
    rwa [decide_eq_true hk, Bool.true_and] at hlsb
  rw [clearBit, UInt8.toNat_and, Nat.testBit_and, hnot, testBit_mask, bne]

theorem setBit_and_eq_zero {index value mask : UInt8} (hvalue : value &&& mask = 0)
    (hindex : 1 <<< index &&& mask = 0) : setBit index value &&& mask = 0 := by
  have hdistrib : setBit index value &&& mask = value &&& mask ||| 1 <<< index &&& mask :=
    UInt8.toBitVec_inj.1 BitVec.and_or_distrib_right
  rw [hdistrib, hvalue, hindex]
  rfl

theorem clearBit_and_eq_zero {value mask : UInt8} (index : UInt8) (hvalue : value &&& mask = 0) :
    clearBit index value &&& mask = 0 := by
  rw [clearBit, UInt8.and_assoc, UInt8.and_comm _ mask, ← UInt8.and_assoc, hvalue, UInt8.zero_and]

theorem toNat_signExtend (value : UInt8) :
    (signExtend value).toNat = value.toNat + if value < 0x80 then 0 else 0xFF00 := by
  by_cases h : value < 0x80
  · simp [signExtend, h]
  · have sum : 0xFF <<< 8 + value.toNat = 0xFF <<< 8 ||| value.toNat :=
      Nat.shiftLeft_add_eq_or_of_lt value.toNat_lt 0xFF
    simp only [signExtend, h, if_false, UInt16.toNat_or, UInt8.toNat_toUInt16]
    exact sum.symm.trans (Nat.add_comm ..)

theorem toNat_add_signExtend (base : UInt16) (offset : UInt8) :
    ((base + signExtend offset).toNat : Int) = (base.toNat + signed offset) % 0x10000 := by
  have ho := offset.toNat_lt
  rw [UInt16.toNat_add, toNat_signExtend, signed]
  split <;> omega

end Byte

end DotMatrix
