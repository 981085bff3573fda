import DotMatrix.Cpu.Execute
import Mathlib.Data.Nat.Digits.Lemmas
import Mathlib.Tactic.Ring

namespace DotMatrix.Cpu

def withA (cpu : Cpu) (a : UInt8) : Cpu := { cpu with regs.a := a }

/-- The first byte of each pair is put into A and the second one operated with; A is kept. -/
def bytewise (op : Cpu → UInt8 → Cpu) (cpu : Cpu) : List (UInt8 × UInt8) → List UInt8 × Cpu
  | [] => ([], cpu)
  | (x, y) :: pairs =>
    let after := op (cpu.withA x) y
    let (bytes, last) := bytewise op after pairs
    (after.regs.a :: bytes, last)

def number (base : Nat) (digit : UInt8 → Nat) (bytes : List UInt8) : Nat :=
  Nat.ofDigits base (bytes.map digit)

@[simp] theorem number_nil (base : Nat) (digit : UInt8 → Nat) : number base digit [] = 0 := rfl

@[simp] theorem number_cons (base : Nat) (digit : UInt8 → Nat) (b : UInt8) (bytes : List UInt8) :
    number base digit (b :: bytes) = digit b + base * number base digit bytes :=
  Nat.ofDigits_cons ..

theorem number_lt {base : Nat} {digit : UInt8 → Nat} {bytes : List UInt8}
    (h : ∀ b ∈ bytes, digit b < base) : number base digit bytes < base ^ bytes.length := by
  induction bytes with
  | nil => simp
  | cons b bytes ih =>
    rw [List.forall_mem_cons] at h
    have hrest := ih h.2
    rw [number_cons, List.length_cons, pow_succ']
    calc
      digit b + base * number base digit bytes < base * (number base digit bytes + 1) := by
        rw [mul_add, mul_one, add_comm]
        exact Nat.add_lt_add_left h.1 _
      _ ≤ base * base ^ bytes.length := Nat.mul_le_mul_left _ hrest

/-- One digit of a sum or, with the sign turned, of a difference. What the digit has no room for is
carried. -/
def Carries (sign : Int) (base : Nat) (digit : UInt8 → Nat) (op : Cpu → UInt8 → Cpu)
    (cpu : Cpu) (y : UInt8) : Prop :=
  (digit (op cpu y).regs.a : Int) = digit cpu.regs.a +
    sign * (digit y + cpu.regs.f.c.toNat - base * (op cpu y).regs.f.c.toNat)

section

variable {op : Cpu → UInt8 → Cpu} {pairs : List (UInt8 × UInt8)}

@[simp] theorem length_bytewise (cpu : Cpu) :
    (cpu.bytewise op pairs).1.length = pairs.length := by
  induction pairs generalizing cpu with
  | nil => rfl
  | cons p pairs ih => exact congrArg (· + 1) (ih _)

theorem forall_mem_bytewise {p : UInt8 → Prop}
    (hop : ∀ pair ∈ pairs, ∀ cpu : Cpu, p (op (cpu.withA pair.1) pair.2).regs.a) (cpu : Cpu) :
    ∀ b ∈ (cpu.bytewise op pairs).1, p b := by
  induction pairs generalizing cpu with
  | nil => exact fun _ => nofun
  | cons pair pairs ih =>
    rw [List.forall_mem_cons] at hop
    exact List.forall_mem_cons.2 ⟨hop.1 cpu, ih hop.2 _⟩

theorem number_bytewise {sign : Int} {base : Nat} {digit : UInt8 → Nat}
    (hop : ∀ p ∈ pairs, ∀ cpu : Cpu, Carries sign base digit op (cpu.withA p.1) p.2) (cpu : Cpu) :
    (number base digit (cpu.bytewise op pairs).1 : Int) = number base digit (pairs.map Prod.fst) +
      sign * (number base digit (pairs.map Prod.snd) + cpu.regs.f.c.toNat -
        base ^ pairs.length * (cpu.bytewise op pairs).2.regs.f.c.toNat) := by
  -- The carry out of the first pair is the carry that the rest begins with.
  induction pairs generalizing cpu with
  | nil => simp [bytewise]
  | cons p pairs ih =>
    obtain ⟨x, y⟩ := p
    rw [List.forall_mem_cons] at hop
    have hdigit : (digit (op (cpu.withA x) y).regs.a : Int) = digit x +
        sign * (digit y + cpu.regs.f.c.toNat - base * (op (cpu.withA x) y).regs.f.c.toNat) :=
      hop.1 cpu
    have hrest := ih hop.2 (op (cpu.withA x) y)
    simp only [bytewise, List.map_cons, number_cons, List.length_cons]
    push_cast
    rw [hdigit, hrest]
    ring

variable {base : Nat} {digit : UInt8 → Nat} (cpu : Cpu)
  (hdigit : ∀ b ∈ (cpu.bytewise op pairs).1, digit b < base)

include hdigit

theorem sum_bytewise
    (hop : ∀ p ∈ pairs, ∀ cpu : Cpu, Carries 1 base digit op (cpu.withA p.1) p.2) :
    let total := number base digit (pairs.map Prod.fst) + number base digit (pairs.map Prod.snd) +
      cpu.regs.f.c.toNat
    number base digit (cpu.bytewise op pairs).1 = total % base ^ pairs.length ∧
      (cpu.bytewise op pairs).2.regs.f.c.toNat = total / base ^ pairs.length := by
  intro total
  have hlt := number_lt hdigit
  have hvalue := number_bytewise hop cpu
  rw [length_bytewise] at hlt
  have hsplit : number base digit (cpu.bytewise op pairs).1 +
      base ^ pairs.length * (cpu.bytewise op pairs).2.regs.f.c.toNat = total := by
    zify [total]
    rw [hvalue]
    ring
  obtain ⟨hdiv, hmod⟩ := (Nat.div_mod_unique (Nat.zero_lt_of_lt hlt)).2 ⟨hsplit, hlt⟩
  exact ⟨hmod.symm, hdiv.symm⟩

theorem difference_bytewise
    (hop : ∀ p ∈ pairs, ∀ cpu : Cpu, Carries (-1) base digit op (cpu.withA p.1) p.2) :
    let x := number base digit (pairs.map Prod.fst)
    let y := number base digit (pairs.map Prod.snd)
    (number base digit (cpu.bytewise op pairs).1 : Int) =
        (x - y - cpu.regs.f.c.toNat) % base ^ pairs.length ∧
      ((cpu.bytewise op pairs).2.regs.f.c ↔ x < y + cpu.regs.f.c.toNat) := by
  intro x y
  have hlt := number_lt hdigit
  have hvalue := number_bytewise hop cpu
  rw [length_bytewise] at hlt
  have hlt' : (number base digit (cpu.bytewise op pairs).1 : Int) < base ^ pairs.length := by
    exact_mod_cast hlt
  have hsplit : (x - y - cpu.regs.f.c.toNat : Int) =
      number base digit (cpu.bytewise op pairs).1 -
        base ^ pairs.length * (cpu.bytewise op pairs).2.regs.f.c.toNat := by
    rw [hvalue]
    ring
  constructor
  · rw [hsplit, Int.sub_mul_emod_self_left, Int.emod_eq_of_lt (Int.natCast_nonneg _) hlt']
  · cases hcarry : (cpu.bytewise op pairs).2.regs.f.c with
    | false =>
      rw [hcarry, Bool.toNat_false, Nat.cast_zero, mul_zero, sub_zero] at hsplit
      exact iff_of_false Bool.false_ne_true (by omega)
    | true =>
      rw [hcarry, Bool.toNat_true, Nat.cast_one, mul_one] at hsplit
      exact iff_of_true rfl (by omega)

end

section

variable (cpu : Cpu) (value : UInt8)

theorem carries_adc : Carries 1 0x100 UInt8.toNat (alu · .adc ·) cpu value := by
  have hsum := Arithmetic.toNat_add cpu.regs.a value cpu.regs.f.c
  simp only [Carries, alu, AluOp.apply]
  omega

theorem carries_sbc : Carries (-1) 0x100 UInt8.toNat (alu · .sbc ·) cpu value := by
  have hdifference := Arithmetic.toNat_sub cpu.regs.a value cpu.regs.f.c
  simp only [Carries, alu, AluOp.apply]
  omega

end

structure Tells (after : Registers) (n : Bool) (half : Prop) : Prop where
  n_eq : after.f.n = n
  z_iff : after.f.z ↔ after.a = 0
  h_iff : after.f.h ↔ half

def withCarry (cpu : Cpu) (carry : Bool) : Cpu := { cpu with regs.f := cpu.regs.f.set .c carry }

section

variable (cpu : Cpu) (value : UInt8)

theorem tells_adc : Tells (cpu.alu .adc value).regs false
    (0x10 ≤ cpu.regs.a.toNat % 0x10 + value.toNat % 0x10 + cpu.regs.f.c.toNat) where
  n_eq := Flags.get_ofBits ..
  z_iff := by simp [alu, AluOp.apply, Arithmetic.add]
  h_iff := by simp [alu, AluOp.apply, Arithmetic.add, Byte.halfCarry, Nat.lt_iff_add_one_le]

theorem tells_sbc : Tells (cpu.alu .sbc value).regs true
    (cpu.regs.a.toNat % 0x10 < value.toNat % 0x10 + cpu.regs.f.c.toNat) where
  n_eq := Flags.get_ofBits ..
  z_iff := by simp [alu, AluOp.apply, Arithmetic.sub]
  h_iff := by simp [alu, AluOp.apply, Arithmetic.sub, Byte.halfBorrow]

theorem alu_add : cpu.alu .add value = (cpu.withCarry false).alu .adc value := by
  simp [alu, AluOp.apply, withCarry]

theorem alu_sub : cpu.alu .sub value = (cpu.withCarry false).alu .sbc value := by
  simp [alu, AluOp.apply, withCarry]

theorem alu_cp :
    cpu.alu .cp value = { cpu with regs.f := (cpu.alu .sub value).regs.f } := rfl

theorem carry_cp : (cpu.alu .cp value).regs.f.c ↔ cpu.regs.a < value := by
  simp [alu, AluOp.apply, Arithmetic.sub, Byte.checkedSub_eq, UInt8.lt_iff_toNat_lt]

theorem zero_cp : (cpu.alu .cp value).regs.f.z ↔ cpu.regs.a = value := by
  simp [alu, AluOp.apply, Arithmetic.sub, Byte.checkedSub_eq, UInt8.sub_eq_iff_eq_add]

end

/-- The numbers have any length and the flags are as they come. At each byte the flags tell about
that byte; an operation without a carry is the one with a carry of zero, and a comparison is a
difference that leaves A alone. -/
theorem long_arithmetic (n : Nat) (x y : Vector UInt8 n) (cpu : Cpu) :
    let sum := cpu.bytewise (alu · .adc ·) (x.zip y).toList
    let difference := cpu.bytewise (alu · .sbc ·) (x.zip y).toList
    let value := number 0x100 UInt8.toNat
    let c := cpu.regs.f.c.toNat
    (sum.1.length = n ∧ value sum.1 = (value x.toList + value y.toList + c) % 0x100 ^ n ∧
      sum.2.regs.f.c.toNat = (value x.toList + value y.toList + c) / 0x100 ^ n) ∧
    (difference.1.length = n ∧
      (value difference.1 : Int) = (value x.toList - value y.toList - c) % 0x100 ^ n ∧
      (difference.2.regs.f.c ↔ value x.toList < value y.toList + c)) ∧
    ∀ (cpu : Cpu) (b : UInt8),
      let a := cpu.regs.a
      let c := cpu.regs.f.c.toNat
      Tells (cpu.alu .adc b).regs false (0x10 ≤ a.toNat % 0x10 + b.toNat % 0x10 + c) ∧
      Tells (cpu.alu .sbc b).regs true (a.toNat % 0x10 < b.toNat % 0x10 + c) ∧
      cpu.alu .add b = (cpu.withCarry false).alu .adc b ∧
      cpu.alu .sub b = (cpu.withCarry false).alu .sbc b ∧
      cpu.alu .cp b = { cpu with regs.f := (cpu.alu .sub b).regs.f } ∧
      ((cpu.alu .cp b).regs.f.c ↔ a < b) ∧ ((cpu.alu .cp b).regs.f.z ↔ a = b) := by
  have hfst : (x.zip y).toList.map Prod.fst = x.toList := by
    rw [Vector.toList_zip, List.map_fst_zip (by simp)]
  have hsnd : (x.zip y).toList.map Prod.snd = y.toList := by
    rw [Vector.toList_zip, List.map_snd_zip (by simp)]
  have hlength : (x.zip y).toList.length = n := by simp
  have hsum := sum_bytewise cpu (fun b _ => b.toNat_lt)
    fun p (_ : p ∈ (x.zip y).toList) _ => carries_adc ..
  have hdifference := difference_bytewise cpu (fun b _ => b.toNat_lt)
    fun p (_ : p ∈ (x.zip y).toList) _ => carries_sbc ..
  rw [hfst, hsnd, hlength] at hsum hdifference
  refine ⟨⟨by simp, hsum⟩, ⟨by simp, hdifference⟩, fun cpu b => ?_⟩
  exact ⟨cpu.tells_adc b, cpu.tells_sbc b, cpu.alu_add b, cpu.alu_sub b, cpu.alu_cp b,
    cpu.carry_cp b, cpu.zero_cp b⟩

example : (powerOn.bytewise (alu · .adc ·) [(0xFF, 0xFF), (0x00, 0x01)]).1 = [0xFF, 0x02] := by
  decide

end DotMatrix.Cpu
