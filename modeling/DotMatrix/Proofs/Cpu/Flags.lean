import DotMatrix.Proofs.Cpu.Footprint
import DotMatrix.Proofs.Cpu.LongArithmetic

namespace DotMatrix

def ExtendedInstruction.owned : ExtendedInstruction → List Flag
  | shift _ _ => [.z, .n, .h, .c]
  | bit _ _ => [.z, .n, .h]
  | res _ _ | set _ _ => []

/-- The flags that an instruction may change. One of the second page is given beside its opcode. -/
def Instruction.owned (second : ExtendedInstruction) : Instruction → List Flag
  | loadHlSp | pop .af | alu _ _ | aluImm _ | addSp | rotateA _ => [.z, .n, .h, .c]
  | addHl _ | scf | ccf => [.n, .h, .c]
  | inc _ | dec _ => [.z, .n, .h]
  | daa => [.z, .h, .c]
  | cpl => [.n, .h]
  | extended => second.owned
  | _ => []

namespace Arithmetic

theorem inc_eq_add (value : UInt8) (f : Flags) :
    inc value f = ((add value 1 false).1, (add value 1 false).2.set .c f.c) := by
  simp only [inc, add, Byte.add_false]
  refine congrArg (Prod.mk _) (Flags.ext_get fun flag => ?_)
  cases flag <;> simp

theorem dec_eq_sub (value : UInt8) (f : Flags) :
    dec value f = ((sub value 1 false).1, (sub value 1 false).2.set .c f.c) := by
  simp only [dec, sub, Byte.sub_false]
  refine congrArg (Prod.mk _) (Flags.ext_get fun flag => ?_)
  cases flag <;> simp

end Arithmetic

namespace Registers

variable (r : Registers)

@[simp] theorem flags_set (dst : Reg8) (value : UInt8) : (r.set dst value).f = r.f := by
  cases dst <;> rfl

@[simp] theorem flags_setPair (dst : Pair) (w : UInt16) : (r.setPair dst w).f = r.f := by
  cases dst <;> rfl

@[simp] theorem flags_step (p : Pointer) : (r.step p).f = r.f := by
  cases p <;> rfl

end Registers

namespace Cpu

section

variable {β : Type} [Bus β] (cpu : Cpu) (bus : β)

@[simp] theorem flags_writeOperand (dst : Operand) (value : UInt8) :
    ((cpu.writeOperand dst value).run bus).1.regs.f = cpu.regs.f := by
  cases dst with
  | reg r => exact cpu.regs.flags_set r value
  | atHL => rfl

theorem flags_executeExtended {i : ExtendedInstruction} {flag : Flag} (h : flag ∉ i.owned) :
    ((cpu.executeExtended i).run bus).1.2.regs.f.get flag = cpu.regs.f.get flag := by
  cases i with
  | shift op dst => cases flag <;> simp [ExtendedInstruction.owned] at h
  | bit index src =>
    cases flag with
    | c => simp [executeExtended]
    | _ => simp [ExtendedInstruction.owned] at h
  | res index dst | set index dst => simp [executeExtended]

theorem flags_execute {i : Instruction} {flag : Flag}
    (h : flag ∉ i.owned (.decode (Bus.read bus cpu.regs.pc))) :
    ((cpu.execute i).run bus).1.2.regs.f.get flag = cpu.regs.f.get flag := by
  cases i with
  | loadHlSp | alu op src | aluImm op | addSp | rotateA op =>
    cases flag <;> simp [Instruction.owned] at h
  | pop dst =>
    cases dst with
    | af => cases flag <;> simp [Instruction.owned] at h
    | _ => rfl
  | addHl src | scf | ccf =>
    cases flag with
    | z => simp [execute, addHl, Arithmetic.addWords]
    | _ => simp [Instruction.owned] at h
  | inc dst | dec dst =>
    cases flag with
    | c => simp [execute, Arithmetic.inc, Arithmetic.dec]
    | _ => simp [Instruction.owned] at h
  | daa =>
    cases flag with
    | n => simp [execute, daa, Arithmetic.daa]
    | _ => simp [Instruction.owned] at h
  | cpl =>
    cases flag with
    | z | c => simp [execute]
    | _ => simp [Instruction.owned] at h
  | halt => simp [execute]
  | loadPair dst | incPair dst | decPair dst => simp [execute, skip]
  | storeA dst | loadA dst => simp [execute]
  | load dst src | loadImm dst => simp [execute, skip]
  | jr cond => cases hholds : cpu.holds cond <;> simp [execute, jumpRelative, hholds, skip]
  | jp cond => cases hholds : cpu.holds cond <;> simp [execute, jumpAbsolute, hholds, skip, jump]
  | call cond => cases hholds : cpu.holds cond <;> simp [execute, call, hholds, skip, jump]
  | ret cond =>
    cases cond with
    | none => rfl
    | some cc => cases hholds : cpu.regs.holds cc <;> simp [execute, ret, hholds, jump]
  | extended => exact flags_executeExtended _ bus h
  | _ => rfl

def Leaves (o : Operand) (value : UInt8) : Prop :=
  match o with
  | .reg r => (cpu.after bus).regs.get r = value
  | .atHL => cpu.step.writes bus = [(cpu.regs.hl, value)]

variable {cpu bus}

theorem run_readOperand_fetched (opcode : UInt8) (o : Operand) :
    ((cpu.fetched opcode).readOperand o).run bus = (cpu.readOperand o).run bus := by
  cases o with
  | reg r => cases r <;> rfl
  | atHL => rfl

theorem leaves_of_execute (op : UInt8 → Flags → UInt8 × Flags) {i : Instruction} {o : Operand}
    (ha : cpu.activity bus = .execute i)
    (hi : ∀ cpu : Cpu, cpu.execute i = do
      let value ← cpu.readOperand o
      let cpu ← writeOperand { cpu with regs.f := (op value cpu.regs.f).2 } o
        (op value cpu.regs.f).1
      return (costOf o 4 12, cpu)) :
    let made := op ((cpu.readOperand o).run bus).1 cpu.regs.f
    cpu.Leaves bus o made.1 ∧ (cpu.after bus).regs.f = made.2 := by
  have hregs := regs_after_of_execute ha
  have hwrites : cpu.step.writes bus = _ := writes_step
  rw [ha] at hwrites
  simp only [hi, Access.run_bind, Access.writes_bind, run_readOperand_fetched] at hregs hwrites
  cases o with
  | reg r =>
    refine ⟨?_, (congrArg Registers.f hregs).trans (flags_writeOperand ..)⟩
    rw [Leaves, hregs]
    exact Registers.get_set_self ..
  | atHL => exact ⟨hwrites, congrArg Registers.f hregs⟩

theorem inc_leaves_sum {o : Operand} (ha : cpu.activity bus = .execute (.inc o)) :
    let sum := ((cpu.withA ((cpu.readOperand o).run bus).1).alu .add 1).regs
    cpu.Leaves bus o sum.a ∧ (cpu.after bus).regs.f = sum.f.set .c cpu.regs.f.c := by
  have hleaves := leaves_of_execute Arithmetic.inc ha fun _ => rfl
  rwa [Arithmetic.inc_eq_add] at hleaves

theorem dec_leaves_difference {o : Operand} (ha : cpu.activity bus = .execute (.dec o)) :
    let difference := ((cpu.withA ((cpu.readOperand o).run bus).1).alu .sub 1).regs
    cpu.Leaves bus o difference.a ∧
      (cpu.after bus).regs.f = difference.f.set .c cpu.regs.f.c := by
  have hleaves := leaves_of_execute Arithmetic.dec ha fun _ => rfl
  rwa [Arithmetic.dec_eq_sub] at hleaves

end

/-- A dispatch keeps all flags, and an instruction those that it does not own. An increment or a
decrement makes of its operand, and of the flags that it owns, what a sum or a difference with one
makes in A. -/
theorem flags_kept_by_step {β : Type} [Bus β] (cpu : Cpu) (bus : β) :
    (∀ i, cpu.activity bus = .dispatch i → (cpu.after bus).regs.f = cpu.regs.f) ∧
    (∀ i flag, cpu.activity bus = .execute i →
      flag ∉ i.owned (.decode (cpu.operandByte bus)) →
        (cpu.after bus).regs.f.get flag = cpu.regs.f.get flag) ∧
    ∀ o : Operand,
      let value := ((cpu.readOperand o).run bus).1
      let sum := ((cpu.withA value).alu .add 1).regs
      let difference := ((cpu.withA value).alu .sub 1).regs
      (cpu.activity bus = .execute (.inc o) →
        cpu.Leaves bus o sum.a ∧ (cpu.after bus).regs.f = sum.f.set .c cpu.regs.f.c) ∧
      (cpu.activity bus = .execute (.dec o) →
        cpu.Leaves bus o difference.a ∧
          (cpu.after bus).regs.f = difference.f.set .c cpu.regs.f.c) := by
  refine ⟨fun i ha => ?_, fun i flag ha hflag => ?_,
    fun o => ⟨inc_leaves_sum, dec_leaves_difference⟩⟩
  · rw [after, run_step_of_dispatch ha]
    rfl
  · rw [regs_after_of_execute ha]
    exact flags_execute _ bus hflag

def upOrDown : Memory :=
  Memory.zero.writeAll [(0x0100, 0x34), (0x0200, 0x35), (0xFF0F, 0x01), (0xFFFF, 0x01)]

theorem carry_kept_beside_zero :
    let down := powerOn.jump 0x0200
    powerOnWithIme.activity upOrDown = .dispatch .vblank ∧
      (powerOnWithIme.after upOrDown).regs.f = powerOnWithIme.regs.f ∧
      powerOn.activity upOrDown = .execute (.inc .atHL) ∧
      .c ∉ (Instruction.inc .atHL).owned (.decode (powerOn.operandByte upOrDown)) ∧
      (powerOn.after upOrDown).regs.f.get .c = true ∧
      powerOn.step.writes upOrDown = [(0x014D, 0x01)] ∧
      (powerOn.after upOrDown).regs.f = .ofBits false false false true ∧
      down.activity upOrDown = .execute (.dec .atHL) ∧
      down.step.writes upOrDown = [(0x014D, 0xFF)] ∧
      (down.after upOrDown).regs.f = .ofBits false true true true := by
  intro down
  have hpending : Interrupt.pendingOn upOrDown = 0x01 := by
    simp only [Interrupt.pendingOn, Memory.bus_read, upOrDown, Memory.read_writeAll]
    decide
  have hdispatch : powerOnWithIme.activity upOrDown = .dispatch .vblank := by
    refine activity_eq_dispatch_iff.2 ⟨rfl, rfl, ?_⟩
    rw [dueOn, hpending]
    rfl
  have hinc : powerOn.activity upOrDown = .execute (.inc .atHL) := by decide +kernel
  have hdec : down.activity upOrDown = .execute (.dec .atHL) := by decide +kernel
  have hown : .c ∉ (Instruction.inc .atHL).owned (.decode (powerOn.operandByte upOrDown)) := by
    simp [Instruction.owned]
  have hset : powerOn.regs.f.get .c = true := by decide
  obtain ⟨hinterrupted, -, -⟩ := flags_kept_by_step powerOnWithIme upOrDown
  obtain ⟨-, hkept, hup⟩ := flags_kept_by_step powerOn upOrDown
  obtain ⟨-, -, hdown⟩ := flags_kept_by_step down upOrDown
  obtain ⟨hone, honeFlags⟩ := (hup .atHL).1 hinc
  obtain ⟨hff, hffFlags⟩ := (hdown .atHL).2 hdec
  exact ⟨hdispatch, hinterrupted _ hdispatch, hinc, hown, (hkept _ _ hinc hown).trans hset,
    hone.trans (by decide +kernel), honeFlags.trans (by decide +kernel), hdec,
    hff.trans (by decide +kernel), hffFlags.trans (by decide +kernel)⟩

end Cpu

end DotMatrix
