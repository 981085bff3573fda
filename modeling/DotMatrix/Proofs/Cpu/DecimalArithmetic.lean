import DotMatrix.Proofs.Cpu.LongArithmetic

/-!
Decimal numbers of any length, two digits to a byte. A nibble carries at sixteen and a digit at ten;
the adjustment after each byte makes good the difference, and hands on the decimal carry.
-/

namespace DotMatrix

namespace Byte

def IsPacked (b : UInt8) : Prop := b.toNat % 0x10 < 10 ∧ b.toNat / 0x10 < 10

instance : DecidablePred IsPacked := fun _ => inferInstanceAs (Decidable (_ ∧ _))

/-- The number that two packed digits stand for. -/
def decimal (b : UInt8) : Nat := b.toNat % 0x10 + 10 * (b.toNat / 0x10)

def ofDecimal (n : Nat) : UInt8 := .ofNat (n % 10 + 0x10 * (n / 10 % 10))

namespace IsPacked

variable {b : UInt8} (h : IsPacked b)

include h

theorem decimal_lt : decimal b < 100 := by
  obtain ⟨hones, htens⟩ := h
  unfold decimal
  omega

theorem ofDecimal_decimal_add (n : Nat) : ofDecimal (decimal b + 100 * n) = b := by
  obtain ⟨hones, htens⟩ := h
  apply UInt8.toNat_inj.1
  rw [ofDecimal, UInt8.toNat_ofNat', decimal]
  omega

end IsPacked

def packDecimal : (count value : Nat) → List UInt8
  | 0, _ => []
  | count + 1, value => ofDecimal value :: packDecimal count (value / 100)

theorem packDecimal_number {bytes : List UInt8} (h : ∀ b ∈ bytes, IsPacked b) :
    packDecimal bytes.length (Cpu.number 100 decimal bytes) = bytes := by
  induction bytes with
  | nil => rfl
  | cons b bytes ih =>
    obtain ⟨hb, hrest⟩ := List.forall_mem_cons.1 h
    have hdiv : (decimal b + 100 * Cpu.number 100 decimal bytes) / 100 =
        Cpu.number 100 decimal bytes := by
      have hlt := hb.decimal_lt
      omega
    rw [Cpu.number_cons, List.length_cons, packDecimal, hb.ofDecimal_decimal_add, hdiv, ih hrest]

end Byte

open Byte

namespace Arithmetic

theorem toNat_adjustment (tens ones : Prop) [Decidable tens] [Decidable ones] :
    ((if tens then 0x60 else 0) + if ones then 0x06 else 0 : UInt8).toNat =
      (if tens then 0x60 else 0) + if ones then 0x06 else 0 := by
  split <;> split <;> rfl

theorem toNat_carry_daa {a : UInt8} {f : Flags} {tens ones : Prop} [Decidable tens]
    [Decidable ones] (h : decimalAdjustment a f =
      (if tens then 0x60 else 0) + if ones then 0x06 else 0) :
    (daa a f).2.c.toNat = if tens then 1 else 0 := by
  have hcarry : (daa a f).2.c = decide (0x60 ≤ decimalAdjustment a f) := by simp [daa]
  rw [hcarry, h]
  by_cases ht : tens <;> by_cases ho : ones <;> simp [ht, ho]

section

variable {x y : UInt8} (hx : IsPacked x) (hy : IsPacked y) (carry : Bool)

include hx hy

/-- A sum is six short where a digit is carried out of. -/
theorem decimalAdjustment_add :
    decimalAdjustment (add x y carry).1 (add x y carry).2 =
      (if 100 ≤ decimal x + decimal y + carry.toNat then 0x60 else 0) +
        if 10 ≤ x.toNat % 0x10 + y.toNat % 0x10 + carry.toNat then 0x06 else 0 := by
  obtain ⟨hxOnes, hxTens⟩ := hx
  obtain ⟨hyOnes, hyTens⟩ := hy
  have hcarry := carry.toNat_lt
  have hresult := toNat_fst_add x y carry
  have hmask : ((add x y carry).1 &&& 0x0F).toNat = (add x y carry).1.toNat % 0x10 :=
    Nat.and_two_pow_sub_one_eq_mod _ 4
  -- The flags tell of a digit above fifteen, and the nibbles of one between ten and fifteen.
  have htens : 0xFF < x.toNat + y.toNat + carry.toNat ∨ 0x99 < (add x y carry).1.toNat ↔
      100 ≤ decimal x + decimal y + carry.toNat := by
    rw [hresult, decimal, decimal]
    omega
  have hones : 0x0F < x.toNat % 0x10 + y.toNat % 0x10 + carry.toNat ∨
      0x09 < ((add x y carry).1 &&& 0x0F).toNat ↔
        10 ≤ x.toNat % 0x10 + y.toNat % 0x10 + carry.toNat := by
    rw [hmask, hresult]
    omega
  simp only [← htens, ← hones]
  simp [decimalAdjustment, add, Byte.add_eq, halfCarry, UInt8.lt_iff_toNat_lt]

/-- A difference is six too many where a digit borrows. -/
theorem decimalAdjustment_sub :
    decimalAdjustment (sub x y carry).1 (sub x y carry).2 =
      (if decimal x < decimal y + carry.toNat then 0x60 else 0) +
        if x.toNat % 0x10 < y.toNat % 0x10 + carry.toNat then 0x06 else 0 := by
  obtain ⟨hxOnes, hxTens⟩ := hx
  obtain ⟨hyOnes, hyTens⟩ := hy
  have hcarry := carry.toNat_lt
  have htens : x.toNat < y.toNat + carry.toNat ↔ decimal x < decimal y + carry.toNat := by
    unfold decimal
    omega
  simp [decimalAdjustment, sub, Byte.sub_eq, halfBorrow, ← htens]

theorem daa_add :
    let r := daa (add x y carry).1 (add x y carry).2
    IsPacked r.1 ∧ decimal r.1 + 100 * r.2.c.toNat = decimal x + decimal y + carry.toNat := by
  intro r
  have hadjust := decimalAdjustment_add hx hy carry
  have hcarry := carry.toNat_lt
  have hsum := toNat_add x y carry
  have hn : (add x y carry).2.n = false := Flags.get_ofBits ..
  have hresult : r.1.toNat = ((add x y carry).1.toNat +
      (decimalAdjustment (add x y carry).1 (add x y carry).2).toNat) % 0x100 := by
    simp [r, daa, hn]
  rw [hadjust, toNat_adjustment] at hresult
  rw [toNat_carry_daa hadjust]
  unfold IsPacked decimal at *
  split_ifs at hresult ⊢ <;> omega

theorem daa_sub :
    let r := daa (sub x y carry).1 (sub x y carry).2
    IsPacked r.1 ∧ decimal r.1 + decimal y + carry.toNat = decimal x + 100 * r.2.c.toNat := by
  intro r
  have hadjust := decimalAdjustment_sub hx hy carry
  have hcarry := carry.toNat_lt
  have hdifference := toNat_sub x y carry
  have hn : (sub x y carry).2.n = true := Flags.get_ofBits ..
  have hresult : r.1.toNat = (0x100 -
      (decimalAdjustment (sub x y carry).1 (sub x y carry).2).toNat +
        (sub x y carry).1.toNat) % 0x100 := by
    simp [r, daa, hn, UInt8.toNat_sub]
  rw [hadjust, toNat_adjustment] at hresult
  rw [toNat_carry_daa hadjust]
  unfold IsPacked decimal at *
  split_ifs at hresult ⊢ <;> omega

end

end Arithmetic

namespace Cpu

def decimalAdd (cpu : Cpu) (value : UInt8) : Cpu := (cpu.alu .adc value).daa

def decimalSub (cpu : Cpu) (value : UInt8) : Cpu := (cpu.alu .sbc value).daa

section

variable {cpu : Cpu} {value : UInt8} (hx : IsPacked cpu.regs.a) (hy : IsPacked value)

include hx hy

theorem isPacked_decimalAdd : IsPacked (cpu.decimalAdd value).regs.a :=
  (Arithmetic.daa_add hx hy cpu.regs.f.c).1

theorem isPacked_decimalSub : IsPacked (cpu.decimalSub value).regs.a :=
  (Arithmetic.daa_sub hx hy cpu.regs.f.c).1

theorem carries_decimalAdd : Carries 1 100 decimal decimalAdd cpu value := by
  have hsum : decimal (cpu.decimalAdd value).regs.a +
      100 * (cpu.decimalAdd value).regs.f.c.toNat =
        decimal cpu.regs.a + decimal value + cpu.regs.f.c.toNat :=
    (Arithmetic.daa_add hx hy cpu.regs.f.c).2
  unfold Carries
  omega

theorem carries_decimalSub : Carries (-1) 100 decimal decimalSub cpu value := by
  have hdifference : decimal (cpu.decimalSub value).regs.a + decimal value + cpu.regs.f.c.toNat =
      decimal cpu.regs.a + 100 * (cpu.decimalSub value).regs.f.c.toNat :=
    (Arithmetic.daa_sub hx hy cpu.regs.f.c).2
  unfold Carries
  omega

end

/-- The numbers have any length and the carry is as it comes. -/
theorem decimal_arithmetic (n : Nat) (x y : Vector UInt8 n) (hx : ∀ b ∈ x, IsPacked b)
    (hy : ∀ b ∈ y, IsPacked b) (cpu : Cpu) :
    let sum := cpu.bytewise decimalAdd (x.zip y).toList
    let difference := cpu.bytewise decimalSub (x.zip y).toList
    let value := number 100 decimal
    let c := cpu.regs.f.c.toNat
    (sum.1 = packDecimal n ((value x.toList + value y.toList + c) % 100 ^ n) ∧
      sum.2.regs.f.c.toNat = (value x.toList + value y.toList + c) / 100 ^ n) ∧
    (difference.1 =
        packDecimal n ((value x.toList - value y.toList - c : Int) % 100 ^ n).toNat ∧
      (difference.2.regs.f.c ↔ value x.toList < value y.toList + c)) ∧
    ∀ cpu : Cpu, cpu.daa.regs.f.n = cpu.regs.f.n ∧ cpu.daa.regs.f.h = false ∧
      (cpu.daa.regs.f.z ↔ cpu.daa.regs.a = 0) := by
  intro sum difference value c
  have hfst : (x.zip y).toList.map Prod.fst = x.toList := by
    rw [Vector.toList_zip, List.map_fst_zip (by simp)]
  have hsnd : (x.zip y).toList.map Prod.snd = y.toList := by
    rw [Vector.toList_zip, List.map_snd_zip (by simp)]
  have hlength : (x.zip y).toList.length = n := by simp
  have hpacked : ∀ p ∈ (x.zip y).toList, IsPacked p.1 ∧ IsPacked p.2 := by
    intro p hp
    rw [Vector.toList_zip] at hp
    obtain ⟨hleft, hright⟩ := List.of_mem_zip hp
    exact ⟨hx _ (Vector.mem_toList_iff.1 hleft), hy _ (Vector.mem_toList_iff.1 hright)⟩
  have hsumPacked : ∀ b ∈ sum.1, IsPacked b :=
    forall_mem_bytewise (fun p hp _ => isPacked_decimalAdd (hpacked p hp).1 (hpacked p hp).2) cpu
  have hdifferencePacked : ∀ b ∈ difference.1, IsPacked b :=
    forall_mem_bytewise (fun p hp _ => isPacked_decimalSub (hpacked p hp).1 (hpacked p hp).2) cpu
  have hsum := sum_bytewise cpu (fun b hb => (hsumPacked b hb).decimal_lt)
    fun p hp _ => carries_decimalAdd (hpacked p hp).1 (hpacked p hp).2
  have hdifference := difference_bytewise cpu (fun b hb => (hdifferencePacked b hb).decimal_lt)
    fun p hp _ => carries_decimalSub (hpacked p hp).1 (hpacked p hp).2
  rw [hfst, hsnd, hlength] at hsum hdifference
  have hsumValue : value sum.1 = (value x.toList + value y.toList + c) % 100 ^ n := hsum.1
  have hdifferenceValue :
      (value difference.1 : Int) = (value x.toList - value y.toList - c) % 100 ^ n :=
    hdifference.1
  refine ⟨⟨?_, hsum.2⟩, ⟨?_, hdifference.2⟩, fun cpu => by simp [daa, Arithmetic.daa]⟩
  · calc
      sum.1 = packDecimal sum.1.length (value sum.1) := (packDecimal_number hsumPacked).symm
      _ = packDecimal n ((value x.toList + value y.toList + c) % 100 ^ n) := by
        rw [length_bytewise, hlength, hsumValue]
  · calc
      difference.1 = packDecimal difference.1.length (value difference.1) :=
        (packDecimal_number hdifferencePacked).symm
      _ = packDecimal n ((value x.toList - value y.toList - c : Int) % 100 ^ n).toNat := by
        rw [length_bytewise, hlength, ← hdifferenceValue, Int.toNat_natCast]

theorem decimal_carry_runs_through :
    let x : Vector UInt8 3 := #v[0x99, 0x49, 0x00]
    let y : Vector UInt8 3 := #v[0x01, 0x50, 0x99]
    (∀ b ∈ x, IsPacked b) ∧ (∀ b ∈ y, IsPacked b) ∧ powerOn.regs.f.c ∧
      (powerOn.bytewise decimalAdd (x.zip y).toList).1 = [0x01, 0x00, 0x00] ∧
      (powerOn.bytewise decimalAdd (x.zip y).toList).2.regs.f.c.toNat = 1 ∧
      (powerOn.bytewise decimalSub (x.zip y).toList).1 = [0x97, 0x99, 0x00] ∧
      (powerOn.bytewise decimalSub (x.zip y).toList).2.regs.f.c := by
  intro x y
  have hx : ∀ b ∈ x, IsPacked b := by simp [x, IsPacked]
  have hy : ∀ b ∈ y, IsPacked b := by simp [y, IsPacked]
  obtain ⟨⟨hsum, hcarry⟩, ⟨hdifference, hborrow⟩, -⟩ := decimal_arithmetic 3 x y hx hy powerOn
  refine ⟨hx, hy, rfl, ?_, ?_, ?_, ?_⟩
  · exact hsum.trans (by decide)
  · exact hcarry.trans (by decide)
  · exact hdifference.trans (by decide)
  · exact hborrow.2 (by decide)

end Cpu

end DotMatrix
