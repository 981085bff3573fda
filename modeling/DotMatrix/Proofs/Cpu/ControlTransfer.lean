import DotMatrix.Proofs.AddressSpace
import DotMatrix.Proofs.Cpu.Timing

namespace DotMatrix

def Condition.Met (f : Flags) : Condition → Prop
  | nz => f.z = false
  | z => f.z = true
  | nc => f.c = false
  | c => f.c = true

instance (f : Flags) : (cc : Condition) → Decidable (cc.Met f)
  | .nz | .z | .nc | .c => inferInstanceAs (Decidable (_ = _))

theorem Registers.holds_iff {r : Registers} {cc : Condition} : r.holds cc ↔ cc.Met r.f := by
  cases cc with
  | nz | nc => exact iff_of_eq (Bool.not_eq_true' _)
  | z | c => exact Iff.rfl

namespace Memory

def HasWord (m : Memory) (addr w : UInt16) : Prop :=
  w.toNat = (m.read addr).toNat + 0x100 * (m.read (addr + 1)).toNat

variable (m : Memory) (sp w : UInt16)

def pushed : Memory := (m.write (sp - 1) (Word.high w)).write (sp - 2) (Word.low w)

theorem read_pushed_low : (m.pushed sp w).read (sp - 2) = Word.low w := read_write_self ..

theorem read_pushed_high : (m.pushed sp w).read (sp - 1) = Word.high w := by
  have hne : sp - 2 ≠ sp - 1 := by grind
  rw [pushed, read_write, if_neg hne, read_write_self]

theorem read_pushed_of_ne {addr : UInt16} (hhigh : addr ≠ sp - 1) (hlow : addr ≠ sp - 2) :
    (m.pushed sp w).read addr = m.read addr := by
  rw [pushed, read_write, if_neg hlow.symm, read_write, if_neg hhigh.symm]

end Memory

namespace Instruction

def isReturn : Instruction → Bool
  | ret _ | reti => true
  | _ => false

def enables (ime : Bool) : Instruction → Bool
  | reti => true
  | _ => ime

end Instruction

inductive Branch
  | jr | jp | call | ret

namespace Branch

def on (cond : Option Condition) : Branch → Instruction
  | jr => .jr cond
  | jp => .jp cond
  | call => .call cond
  | ret => .ret cond

def operandLength : Branch → Nat
  | jr => 1
  | jp => 2
  | call => 2
  | ret => 0

def takenCost (conditional : Bool) : Branch → Nat
  | jr => 12
  | jp => 16
  | call => 24
  | ret => if conditional then 20 else 16

def declinedCost : Branch → Nat
  | jr => 8
  | jp => 12
  | call => 12
  | ret => 8

def LeadsTo (cpu : Cpu) (m : Memory) (target : UInt16) : Branch → Prop
  | jr => (target.toNat : Int) =
      (cpu.regs.pc.toNat + 1 + Byte.signed (m.read cpu.regs.pc)) % 0x10000
  | jp | call => m.HasWord cpu.regs.pc target
  | ret => m.HasWord cpu.regs.sp target

end Branch

namespace Cpu

section

variable {β : Type} [Bus β] {cpu : Cpu} {bus : β} {cc : Condition}

theorem run_branch_of_holds (b : Branch) (h : cpu.regs.holds cc) :
    (cpu.execute (b.on (some cc))).run bus =
      ((b.takenCost true, ((cpu.execute (b.on none)).run bus).1.2),
        ((cpu.execute (b.on none)).run bus).2) := by
  have hholds : cpu.holds (some cc) = cpu.holds none := h
  cases b with
  | jr =>
    have hjump : cpu.jumpRelative (some cc) = cpu.jumpRelative none := by
      simp only [jumpRelative, hholds]
    exact congrArg (·.run bus) hjump
  | jp =>
    have hjump : cpu.jumpAbsolute (some cc) = cpu.jumpAbsolute none := by
      simp only [jumpAbsolute, hholds]
    exact congrArg (·.run bus) hjump
  | call =>
    have hcall : cpu.call (some cc) = cpu.call none := by simp only [call, hholds]
    exact congrArg (·.run bus) hcall
  | ret =>
    simp only [Branch.on, execute, h, if_true]
    rfl

theorem run_branch_of_not_holds (b : Branch) (h : cpu.regs.holds cc = false) :
    (cpu.execute (b.on (some cc))).run bus =
      ((b.declinedCost, cpu.skip (.ofNat b.operandLength)), bus) := by
  have hholds : cpu.holds (some cc) = false := h
  cases b with
  | jr =>
    simp only [Branch.on, execute, jumpRelative, hholds]
    rfl
  | jp =>
    simp only [Branch.on, execute, jumpAbsolute, hholds]
    rfl
  | call =>
    simp only [Branch.on, execute, call, hholds]
    rfl
  | ret => simp [Branch.on, execute, h, Branch.declinedCost, Branch.operandLength, skip]

theorem cost_branch (b : Branch) :
    ((cpu.execute (b.on none)).run bus).1.1 = b.takenCost false := by
  cases b <;> rfl

end

section

variable (cpu : Cpu) (m : Memory)

theorem leadsTo_branch (b : Branch) :
    b.LeadsTo cpu m ((cpu.execute (b.on none)).run m).1.2.regs.pc := by
  cases b with
  | jr =>
    have hoffset := Byte.toNat_add_signExtend (cpu.regs.pc + 1) (m.read cpu.regs.pc)
    have hnext : (cpu.regs.pc + 1).toNat = (cpu.regs.pc.toNat + 1) % 0x10000 :=
      UInt16.toNat_add ..
    rw [hnext] at hoffset
    refine hoffset.trans ?_
    omega
  | jp | call => exact Word.toNat_combine ..
  | ret => exact Word.toNat_combine ..

end

section

variable {cpu : Cpu} {i : Instruction}

theorem takes_with (sp pc : UInt16) :
    { cpu with regs.sp := sp, regs.pc := pc }.takes i = cpu.takes i := by
  cases i <;> rfl

theorem run_call (m : Memory) (hcall : i.isCall) (htaken : cpu.takes i) :
    ∃ cost target, (cpu.execute i).run m =
      ((cost, { cpu with regs.sp := cpu.regs.sp - 2, regs.pc := target }),
        m.pushed cpu.regs.sp (cpu.regs.pc + .ofNat i.following)) := by
  cases i with
  | call cond =>
    have hholds : cpu.holds cond = true := htaken
    simp only [execute, call, hholds]
    exact ⟨_, _, rfl⟩
  | rst vector =>
    have hpc : cpu.regs.pc + .ofNat (Instruction.rst vector).following = cpu.regs.pc :=
      UInt16.add_zero _
    rw [hpc]
    exact ⟨_, _, rfl⟩
  | _ => contradiction

theorem run_return (m : Memory) (hreturn : i.isReturn) (htaken : cpu.takes i) :
    ∃ cost, (cpu.execute i).run m =
      ((cost,
        { cpu with
          regs.sp := cpu.regs.sp + 2
          regs.pc := Word.combine (m.read cpu.regs.sp) (m.read (cpu.regs.sp + 1))
          ime := i.enables cpu.ime }), m) := by
  cases i with
  | ret cond =>
    cases cond with
    | none => exact ⟨_, rfl⟩
    | some cc =>
      have hholds : cpu.regs.holds cc = true := htaken
      simp only [execute, hholds]
      exact ⟨_, rfl⟩
  | reti => exact ⟨_, rfl⟩
  | _ => contradiction

/-- A routine that keeps the return address on its stack ends at that address. -/
theorem run_return_of_stacked (cpu : Cpu) {m : Memory} {sp w : UInt16} (hsp : cpu.regs.sp = sp - 2)
    (hlow : m.read (sp - 2) = Word.low w) (hhigh : m.read (sp - 1) = Word.high w)
    (hreturn : i.isReturn) (htaken : cpu.takes i) :
    ∃ cost, (cpu.execute i).run m =
      ((cost, { cpu with regs.sp := sp, regs.pc := w, ime := i.enables cpu.ime }), m) := by
  obtain ⟨cost, hrun⟩ := run_return m hreturn htaken
  have hback : sp - 2 + 2 = sp := UInt16.sub_add_cancel ..
  have hsecond : sp - 2 + 1 = sp - 1 := by grind
  refine ⟨cost, ?_⟩
  rw [hrun, hsp, hback, hsecond, hlow, hhigh, Word.combine_low_high]

def callAndReturn (cpu : Cpu) (caller back : Instruction) (pc : UInt16) : Access Cpu := do
  let (_, cpu) ← cpu.execute caller
  let (_, cpu) ← (cpu.jump pc).execute back
  return cpu

theorem run_callAndReturn {m : Memory} {caller back : Instruction} (hcall : caller.isCall)
    (htaken : cpu.takes caller) (hreturn : back.isReturn) (htakenBack : cpu.takes back)
    (pc : UInt16) :
    let returnAddr := cpu.regs.pc + .ofNat caller.following
    (cpu.callAndReturn caller back pc).run m =
      ({ cpu with regs.pc := returnAddr, ime := back.enables cpu.ime },
        m.pushed cpu.regs.sp returnAddr) := by
  intro returnAddr
  obtain ⟨callCost, target, hcalled⟩ := run_call m hcall htaken
  let callee : Cpu := { cpu with regs.sp := cpu.regs.sp - 2, regs.pc := pc }
  have htakenCallee : callee.takes back := (takes_with ..).trans htakenBack
  obtain ⟨cost, hreturned⟩ := callee.run_return_of_stacked rfl
    (m.read_pushed_low cpu.regs.sp returnAddr) (m.read_pushed_high ..) hreturn htakenCallee
  simp only [callAndReturn, Access.run_bind, hcalled]
  exact congrArg (fun r => (r.1.2, r.2)) hreturned

end

/-- Branches with and without a condition agree. A call goes where it says, and a return brings back
all but the two bytes below the stack. -/
theorem transfers_agree (cpu : Cpu) (m : Memory) :
    (∀ (b : Branch) (cc : Condition),
      let conditional := (cpu.execute (b.on (some cc))).run m
      let plain := (cpu.execute (b.on none)).run m
      (cc.Met cpu.regs.f → conditional = ((b.takenCost true, plain.1.2), plain.2)) ∧
        (¬ cc.Met cpu.regs.f →
          conditional = ((b.declinedCost, cpu.skip (.ofNat b.operandLength)), m)) ∧
        plain.1.1 = b.takenCost false ∧ b.LeadsTo cpu m plain.1.2.regs.pc) ∧
    (∀ vector, ((cpu.execute (.rst vector)).run m).1.2.regs.pc.toNat = vector.toNat) ∧
    ∀ caller back pc, caller.isCall → cpu.takes caller → back.isReturn → cpu.takes back →
      let final := (cpu.callAndReturn caller back pc).run m
      final.1 =
          { cpu with
            regs.pc := cpu.regs.pc + .ofNat caller.following
            ime := back.enables cpu.ime } ∧
        ∀ addr, addr ≠ cpu.regs.sp - 1 → addr ≠ cpu.regs.sp - 2 →
          final.2.read addr = m.read addr := by
  refine ⟨fun b cc => ⟨fun hmet => ?_, fun hmet => ?_, cost_branch b, leadsTo_branch cpu m b⟩,
    fun vector => ?_, fun caller back pc hcall htaken hreturn htakenBack => ?_⟩
  · exact run_branch_of_holds b (Registers.holds_iff.2 hmet)
  · exact run_branch_of_not_holds b (Bool.eq_false_iff.2 (mt Registers.holds_iff.1 hmet))
  · exact UInt8.toNat_toUInt16 vector
  · have hfinal := run_callAndReturn (m := m) hcall htaken hreturn htakenBack pc
    refine ⟨congrArg Prod.fst hfinal, fun addr hhigh hlow => ?_⟩
    rw [hfinal]
    exact m.read_pushed_of_ne _ _ hhigh hlow

def operandAtEnd : Memory := Memory.zero.writeAll [(0xFFFF, 0x34), (0x0000, 0x12)]

def beforeEnd : Cpu := { powerOn with regs.sp := 0x0001, regs.pc := 0xFFFF }

theorem transfers_agree_at_end :
    let final := (beforeEnd.callAndReturn (.call none) .reti 0x1235).run operandAtEnd
    Condition.Met beforeEnd.regs.f .c ∧ ¬ Condition.Met beforeEnd.regs.f .nz ∧
      ((beforeEnd.execute (.call (some .c))).run operandAtEnd).1.1 = 24 ∧
      (beforeEnd.execute (.jr (some .nz))).run operandAtEnd =
        ((8, beforeEnd.skip 1), operandAtEnd) ∧
      ((beforeEnd.execute (.call none)).run operandAtEnd).1.2.regs.pc = 0x1234 ∧
      final.1 = { beforeEnd with regs.pc := 0x0001, ime := true } ∧
      ∀ addr, addr ≠ 0x0000 → addr ≠ 0xFFFF → final.2.read addr = operandAtEnd.read addr := by
  intro final
  have hset : Condition.Met beforeEnd.regs.f .c := by decide +kernel
  have hclear : ¬ Condition.Met beforeEnd.regs.f .nz := by decide +kernel
  obtain ⟨hbranch, -, hreturn⟩ := transfers_agree beforeEnd operandAtEnd
  obtain ⟨hcall, -, -, htarget⟩ := hbranch .call .c
  obtain ⟨-, hdeclined, -⟩ := hbranch .jr .nz
  refine ⟨hset, hclear, congrArg (·.1.1) (hcall hset), hdeclined hclear, ?_,
    hreturn (.call none) .reti 0x1235 rfl rfl rfl rfl⟩
  have hlow : operandAtEnd.read 0xFFFF = 0x34 := Memory.read_writeAll ..
  have hhigh : operandAtEnd.read 0x0000 = 0x12 := Memory.read_writeAll ..
  have hpc : beforeEnd.regs.pc = 0xFFFF := rfl
  have hnext : (0xFFFF : UInt16) + 1 = 0x0000 := by decide
  rw [Branch.LeadsTo, Memory.HasWord, hpc, hnext, hlow, hhigh] at htarget
  exact UInt16.toNat_inj.1 htarget

end Cpu

end DotMatrix
