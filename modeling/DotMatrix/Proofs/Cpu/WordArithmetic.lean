import DotMatrix.Proofs.Cpu.LongArithmetic

namespace DotMatrix

namespace Arithmetic

theorem addWords_eq (x y : UInt16) (f : Flags) :
    let low := add (Word.low x) (Word.low y) false
    let high := add (Word.high x) (Word.high y) low.2.c
    addWords x y f = (Word.combine low.1 high.1, Flags.ofBits f.z false high.2.h high.2.c) := by
  intro low high
  have hcarry : low.2.c.toNat = (x.toNat % 0x100 + y.toNat % 0x100) / 0x100 := by
    simp [low, toNat_carry_add]
  have hlow : low.1.toNat = (x.toNat % 0x100 + y.toNat % 0x100) % 0x100 := by
    simp [low, toNat_fst_add]
  have hhigh : high.1.toNat = (x.toNat / 0x100 + y.toNat / 0x100 + low.2.c.toNat) % 0x100 := by
    simp [high, toNat_fst_add]
  have hsum : x + y = Word.combine low.1 high.1 := by
    apply UInt16.toNat_inj.1
    rw [Word.toNat_combine, UInt16.toNat_add]
    omega
  have hhalf : decide (0x0FFF < x.toNat % 0x1000 + y.toNat % 0x1000) = high.2.h := by
    have hhigh : high.2.h = Byte.halfCarry (Word.high x) (Word.high y) low.2.c :=
      Flags.get_ofBits ..
    rw [hhigh, Byte.halfCarry, decide_eq_decide, hcarry, Word.toNat_high, Word.toNat_high]
    omega
  have hout : decide (0xFFFF < x.toNat + y.toNat) = high.2.c := by
    have hhigh : high.2.c =
        decide (0xFF < (Word.high x).toNat + (Word.high y).toNat + low.2.c.toNat) := by
      simp [high, add, Byte.add_eq]
    rw [hhigh, decide_eq_decide, hcarry, Word.toNat_high, Word.toNat_high]
    omega
  rw [addWords, hsum, hhalf, hout]
  refine congrArg (Prod.mk _) (Flags.ext_get fun flag => ?_)
  cases flag <;> simp

theorem addOffset_snd (base : UInt16) (offset : UInt8) :
    let low := add (Word.low base) offset false
    (addOffset base offset).2 = .ofBits false false low.2.h low.2.c := by
  simp [addOffset, add]

theorem toNat_high_addOffset (base : UInt16) (offset : UInt8) :
    (Word.high (addOffset base offset).1).toNat =
      ((Word.high base).toNat + (add (Word.low base) offset false).2.c.toNat +
        if 0x80 ≤ offset then 0xFF else 0) % 0x100 := by
  have hcarry : (add (Word.low base) offset false).2.c.toNat =
      (base.toNat % 0x100 + offset.toNat) / 0x100 := by
    simp [toNat_carry_add]
  have hbase := base.toNat_lt
  have hoffset := offset.toNat_lt
  have hsum : (addOffset base offset).1 = base + Byte.signExtend offset := rfl
  rw [hcarry, hsum, Word.toNat_high, Word.toNat_high, UInt16.toNat_add, Byte.toNat_signExtend]
  by_cases h : offset < 0x80
  · rw [if_pos h, if_neg (UInt8.not_le.2 h)]
    omega
  · rw [if_neg h, if_pos (UInt8.not_lt.1 h)]
    omega

end Arithmetic

namespace Cpu

variable {β : Type} [Bus β]

/-- A sum of two words leaves the flags of the sum of their bytes, made in A, with the zero flag
kept. A sum of SP and an offset is the same word with the same flags wherever it is put, and the
flags are those of the low byte. -/
theorem word_sums_of_bytes (cpu : Cpu) (bus : β) :
    (∀ src : Pair,
      let x := cpu.regs.hl
      let y := cpu.regs.pair src
      let low := (cpu.withA (Word.low x)).alu .add (Word.low y)
      let high := (low.withA (Word.high x)).alu .adc (Word.high y)
      let after := ((cpu.execute (.addHl src)).run bus).1.2.regs
      after.hl.toNat = (x.toNat + y.toNat) % 0x10000 ∧
        after.f = .ofBits cpu.regs.f.z false high.regs.f.h high.regs.f.c ∧
        after = { cpu.regs with h := after.h, l := after.l, f := after.f }) ∧
    let offset := Bus.read bus cpu.regs.pc
    let low := (cpu.withA (Word.low cpu.regs.sp)).alu .add offset
    let inSp := ((cpu.execute .addSp).run bus).1.2.regs
    let inHl := ((cpu.execute .loadHlSp).run bus).1.2.regs
    (inSp.sp.toNat : Int) = (cpu.regs.sp.toNat + Byte.signed offset) % 0x10000 ∧
      inSp.f = .ofBits false false low.regs.f.h low.regs.f.c ∧
      (Word.high inSp.sp).toNat =
        ((Word.high cpu.regs.sp).toNat + low.regs.f.c.toNat + if 0x80 ≤ offset then 0xFF else 0) %
          0x100 ∧
      inHl.hl = inSp.sp ∧ inHl.f = inSp.f ∧
      inSp = { cpu.regs with sp := inSp.sp, f := inSp.f, pc := cpu.regs.pc + 1 } ∧
      inHl = { cpu.regs with h := inHl.h, l := inHl.l, f := inHl.f, pc := cpu.regs.pc + 1 } := by
  refine ⟨fun src => ⟨?_, ?_, rfl⟩, ?_, Arithmetic.addOffset_snd .., ?_, ?_, rfl, rfl, rfl⟩
  · exact (congrArg UInt16.toNat (cpu.regs.hl_setHl _)).trans (UInt16.toNat_add ..)
  · exact congrArg Prod.snd (Arithmetic.addWords_eq ..)
  · exact Byte.toNat_add_signExtend ..
  · exact Arithmetic.toNat_high_addOffset ..
  · exact (cpu.skip 1).regs.hl_setHl _

end Cpu

end DotMatrix
