import DotMatrix.Proofs.Cpu.Activity

/-!
The latches of the processor form a small machine of their own. It runs on the activities and knows
nothing of registers and memory, and each step of the processor is one of its steps.
-/

namespace DotMatrix

structure Latches where
  ime : Bool
  halted : Bool
  stopped : Bool
  haltBug : Bool
  eiPending : Bool
  eiDelay : Bool
  hung : Bool
  deriving DecidableEq

namespace Latches

def fetched (l : Latches) : Latches := { l with halted := false, haltBug := false }

def execute (l : Latches) (pending : UInt8) : Instruction → Latches
  | .stop => { l with stopped := true, halted := false }
  | .halt => if l.ime ∨ pending = 0 then { l with halted := true } else { l with haltBug := true }
  | .di => { l with ime := false, eiPending := false, eiDelay := false }
  | .ei => { l with eiPending := true }
  | .reti => { l with ime := true }
  | _ => l

def advanceEi (l : Latches) : Latches :=
  if l.eiDelay then { l with ime := true, eiDelay := false }
  else if l.eiPending then { l with eiPending := false, eiDelay := true }
  else l

def run (l : Latches) (pending : UInt8) (i : Instruction) : Latches :=
  (l.fetched.execute pending i).advanceEi

def dispatched (l : Latches) : Latches :=
  { l with ime := false, halted := false, haltBug := false, eiPending := false, eiDelay := false }

theorem run_eq (l : Latches) (pending : UInt8) (i : Instruction) :
    l.run pending i =
      { ime := decide (i = .reti) || decide (i ≠ .di) && (l.ime || l.eiDelay)
        halted := decide (i = .halt) && (l.ime || decide (pending = 0))
        stopped := decide (i = .stop) || l.stopped
        haltBug := decide (i = .halt) && !l.ime && decide (pending ≠ 0)
        eiPending := l.eiDelay && decide (i ≠ .di) && (decide (i = .ei) || l.eiPending)
        eiDelay := !l.eiDelay && decide (i ≠ .di) && (decide (i = .ei) || l.eiPending)
        hung := l.hung } := by
  obtain ⟨ime, halted, stopped, haltBug, eiPending, eiDelay, hung⟩ := l
  unfold run
  fun_cases Latches.execute <;> cases ime <;> cases eiPending <;> cases eiDelay <;>
    simp_all [fetched, advanceEi]

end Latches

namespace Cpu

def latches (cpu : Cpu) : Latches :=
  ⟨cpu.ime, cpu.halted, cpu.stopped, cpu.haltBug, cpu.eiPending, cpu.eiDelay, cpu.locked.isSome⟩

/-- Beside registers and latches an instruction changes at most the last opcode. -/
structure Keeps (before after : Cpu) (latches : Latches) : Prop where
  latches_eq : after.latches = latches
  locked_eq : after.locked = before.locked
  cycles_eq : after.cycles = before.cycles

variable {β : Type} [Bus β] (cpu : Cpu) (bus : β)

theorem keeps_executeExtended (i : ExtendedInstruction) :
    cpu.Keeps ((cpu.executeExtended i).run bus).1.2 cpu.latches := by
  cases i with
  | shift op dst => cases dst <;> exact ⟨rfl, rfl, rfl⟩
  | bit index src => cases src <;> exact ⟨rfl, rfl, rfl⟩
  | res index dst => cases dst <;> exact ⟨rfl, rfl, rfl⟩
  | set index dst => cases dst <;> exact ⟨rfl, rfl, rfl⟩

theorem keeps_halt :
    cpu.Keeps (cpu.halt.run bus).1 (cpu.latches.execute (Interrupt.pendingOn bus) .halt) := by
  cases hi : cpu.ime with
  | true => constructor <;> simp [halt, Latches.execute, latches, hi]
  | false =>
    by_cases hp : Interrupt.pendingOn bus = 0 <;>
      constructor <;> simp [halt, Latches.execute, latches, hi, hp]

theorem keeps_execute (i : Instruction) :
    cpu.Keeps ((cpu.execute i).run bus).1.2
      (cpu.latches.execute (Interrupt.pendingOn bus) i) := by
  cases i with
  | halt => simpa [execute] using cpu.keeps_halt bus
  | load dst src => cases dst <;> cases src <;> exact ⟨rfl, rfl, rfl⟩
  | loadImm dst => cases dst <;> exact ⟨rfl, rfl, rfl⟩
  | inc dst => cases dst <;> exact ⟨rfl, rfl, rfl⟩
  | dec dst => cases dst <;> exact ⟨rfl, rfl, rfl⟩
  | alu op src => cases src <;> exact ⟨rfl, rfl, rfl⟩
  | jr cond =>
    cases h : cpu.holds cond <;> simp only [execute, jumpRelative, h] <;> exact ⟨rfl, rfl, rfl⟩
  | jp cond =>
    cases h : cpu.holds cond <;> simp only [execute, jumpAbsolute, h] <;> exact ⟨rfl, rfl, rfl⟩
  | call cond => cases h : cpu.holds cond <;> simp only [execute, call, h] <;> exact ⟨rfl, rfl, rfl⟩
  | ret cond =>
    cases cond with
    | none => exact ⟨rfl, rfl, rfl⟩
    | some cc => cases h : cpu.regs.holds cc <;> simp only [execute, h] <;> exact ⟨rfl, rfl, rfl⟩
  | extended =>
    obtain ⟨hlatches, hlocked, hcycles⟩ := keeps_executeExtended
      { cpu.skip 1 with lastOpcode := 0xCB00 ||| (Bus.read bus cpu.regs.pc).toUInt16 } bus
      (.decode (Bus.read bus cpu.regs.pc))
    exact ⟨hlatches, hlocked, hcycles⟩
  | _ => exact ⟨rfl, rfl, rfl⟩

theorem keeps_advanceEi : cpu.Keeps cpu.advanceEi cpu.latches.advanceEi := by
  cases hd : cpu.eiDelay with
  | true => constructor <;> simp [advanceEi, Latches.advanceEi, latches, hd]
  | false =>
    cases hp : cpu.eiPending <;>
      constructor <;> simp [advanceEi, Latches.advanceEi, latches, hd, hp]

variable {cpu bus}

theorem fetches_of_latches (h : cpu.latches = powerOn.latches) : cpu.Fetches bus := by
  simp only [latches, powerOn, Latches.mk.injEq, Option.isSome_none, Option.isSome_eq_false_iff,
    Option.isNone_iff_eq_none] at h
  obtain ⟨hi, hh, hs, -, -, -, hl⟩ := h
  exact ⟨hl, hs, by simp [dueOn, hi], by simp [hh]⟩

theorem latches_after :
    (cpu.after bus).latches =
      match cpu.activity bus with
      | .stopped => { cpu.latches with stopped := Bus.read bus joypadAddr &&& 0x0F == 0x0F }
      | .dispatch _ => cpu.latches.dispatched
      | .execute i => cpu.latches.run (Interrupt.pendingOn bus) i
      | .hang _ => { cpu.latches.fetched with hung := true }
      | .hung _ | .asleep => cpu.latches := by
  cases h : cpu.activity bus with
  | hung e => rw [after, run_step_of_hung h]
  | stopped => rw [after, run_step_of_stopped h]; rfl
  | dispatch i => rw [after, run_step_of_dispatch h]; rfl
  | asleep => rw [after, run_step_of_asleep h]; rfl
  | execute i =>
    rw [after, run_step_of_execute h]
    calc
      _ = (((cpu.fetched (Bus.read bus cpu.regs.pc)).execute i).run bus).1.2.latches.advanceEi :=
        (keeps_advanceEi _).latches_eq
      _ = cpu.latches.run (Interrupt.pendingOn bus) i :=
        congrArg Latches.advanceEi (keeps_execute _ bus i).latches_eq
  | hang opcode => rw [after, run_step_of_hang h]; rfl

theorem locked_after :
    (cpu.after bus).locked =
      match cpu.activity bus with
      | .hang opcode => some ⟨opcode, cpu.regs.pc, cpu.cycles⟩
      | _ => cpu.locked := by
  cases h : cpu.activity bus with
  | hung e => rw [after, run_step_of_hung h]
  | stopped => rw [after, run_step_of_stopped h]
  | dispatch i => rw [after, run_step_of_dispatch h]; rfl
  | asleep => rw [after, run_step_of_asleep h]
  | execute i =>
    rw [after, run_step_of_execute h]
    calc
      _ = (((cpu.fetched (Bus.read bus cpu.regs.pc)).execute i).run bus).1.2.locked :=
        (keeps_advanceEi _).locked_eq
      _ = cpu.locked := (keeps_execute _ bus i).locked_eq
  | hang opcode => rw [after, run_step_of_hang h]; rfl

end Cpu

end DotMatrix
