import DotMatrix.Cpu.Step
import DotMatrix.Proofs.Bus.Writes

/-!
What a step is about to do. The activity is read off the processor and the bus before the step, and
for each activity one equation says all that the step does.
-/

namespace DotMatrix

inductive Activity
  /-- Gives its illegal opcode again. -/
  | hung (e : IllegalOpcode)
  | stopped
  | dispatch (i : Interrupt)
  | asleep
  | execute (i : Instruction)
  /-- Fetches a byte that is no instruction. -/
  | hang (opcode : UInt8)
  deriving DecidableEq

namespace Cpu

variable {β : Type} [Bus β]

def dueOn (cpu : Cpu) (bus : β) : Option Interrupt :=
  if cpu.ime then Interrupt.first? (Interrupt.pendingOn bus) else none

def activity (cpu : Cpu) (bus : β) : Activity :=
  match cpu.locked with
  | some e => .hung e
  | none =>
    if cpu.stopped then .stopped
    else
      match cpu.dueOn bus with
      | some i => .dispatch i
      | none =>
        if cpu.halted ∧ Interrupt.pendingOn bus = 0 then .asleep
        else
          match Instruction.decode (Bus.read bus cpu.regs.pc) with
          | some i => .execute i
          | none => .hang (Bus.read bus cpu.regs.pc)

def Fetches (cpu : Cpu) (bus : β) : Prop :=
  cpu.locked = none ∧ cpu.stopped = false ∧ cpu.dueOn bus = none ∧
    (cpu.halted → Interrupt.pendingOn bus ≠ 0)

def after (cpu : Cpu) (bus : β) : Cpu := (cpu.step.run bus).1.2

def awake (cpu : Cpu) : Cpu := { cpu with halted := false }

def fetched (cpu : Cpu) (opcode : UInt8) : Cpu :=
  { cpu with
    regs.pc := if cpu.haltBug then cpu.regs.pc else cpu.regs.pc + 1
    halted := false
    haltBug := false
    lastOpcode := opcode.toUInt16 }

def hangOn (cpu : Cpu) (opcode : UInt8) : Cpu :=
  { cpu with
    halted := false
    haltBug := false
    locked := some ⟨opcode, cpu.regs.pc, cpu.cycles⟩
    lastOpcode := opcode.toUInt16 }

def carryOut (cpu : Cpu) (i : Instruction) : Access (Outcome × Cpu) := do
  let (cost, cpu) ← cpu.execute i
  return (.ok cost, cpu.advanceEi.spend (.ok cost))

def returnAddr (cpu : Cpu) : UInt16 := if cpu.haltBug then cpu.regs.pc - 1 else cpu.regs.pc

def dispatched (cpu : Cpu) (i : Interrupt) : Cpu :=
  { cpu with
    regs.pc := i.vector
    regs.sp := cpu.regs.sp - 2
    ime := false
    halted := false
    haltBug := false
    eiPending := false
    eiDelay := false }

def dispatchWrites (cpu : Cpu) (bus : β) (i : Interrupt) : List (UInt16 × UInt8) :=
  [(Interrupt.requestAddr, Bus.read bus Interrupt.requestAddr &&& ~~~i.mask),
    (cpu.regs.sp - 1, Word.high cpu.returnAddr),
    (cpu.regs.sp - 2, Word.low cpu.returnAddr)]

variable {cpu : Cpu} {bus : β}

theorem activity_eq_hung_iff {e : IllegalOpcode} :
    cpu.activity bus = .hung e ↔ cpu.locked = some e := by
  grind [activity]

theorem activity_eq_stopped_iff :
    cpu.activity bus = .stopped ↔ cpu.locked = none ∧ cpu.stopped := by
  grind [activity]

theorem activity_eq_dispatch_iff {i : Interrupt} :
    cpu.activity bus = .dispatch i ↔
      cpu.locked = none ∧ cpu.stopped = false ∧ cpu.dueOn bus = some i := by
  grind [activity]

theorem activity_eq_asleep_iff :
    cpu.activity bus = .asleep ↔
      cpu.locked = none ∧ cpu.stopped = false ∧ cpu.dueOn bus = none ∧ cpu.halted ∧
        Interrupt.pendingOn bus = 0 := by
  grind [activity]

theorem activity_eq_execute_iff {i : Instruction} :
    cpu.activity bus = .execute i ↔
      cpu.Fetches bus ∧ Instruction.decode (Bus.read bus cpu.regs.pc) = some i := by
  grind [activity, Fetches]

theorem activity_eq_hang_iff {opcode : UInt8} :
    cpu.activity bus = .hang opcode ↔
      cpu.Fetches bus ∧ Bus.read bus cpu.regs.pc = opcode ∧ Instruction.decode opcode = none := by
  grind [activity, Fetches]

theorem awake_eq_self (h : cpu.halted = false) : cpu.awake = cpu := by
  rw [awake, ← h]

@[simp] theorem run_dueInterrupt : cpu.dueInterrupt.run bus = (cpu.dueOn bus, bus) := by
  unfold dueInterrupt dueOn
  split <;> rfl

@[simp] theorem writes_dueInterrupt : cpu.dueInterrupt.writes bus = [] := by
  unfold dueInterrupt
  split <;> rfl

@[simp] theorem writes_pending : Interrupt.pending.writes bus = [] := rfl

@[simp] theorem run_dispatch (i : Interrupt) :
    (cpu.dispatch i).run bus =
      (cpu.dispatched i, Bus.writeAll bus (cpu.dispatchWrites bus i)) := rfl

@[simp] theorem writes_dispatch (i : Interrupt) :
    (cpu.dispatch i).writes bus = cpu.dispatchWrites bus i := rfl

theorem runHalted_of_pending (h : Interrupt.pendingOn bus ≠ 0) :
    cpu.runHalted.run bus = cpu.awake.runInstruction.run bus ∧
      cpu.runHalted.writes bus = cpu.awake.runInstruction.writes bus := by
  simp [runHalted, h, awake]

theorem advance_of_fetches (h : cpu.Fetches bus) :
    cpu.advance.run bus = cpu.awake.runInstruction.run bus ∧
      cpu.advance.writes bus = cpu.awake.runInstruction.writes bus := by
  obtain ⟨-, hs, hd, hp⟩ := h
  cases hh : cpu.halted with
  | true => simp [advance, hs, hd, hh, runHalted_of_pending (hp hh)]
  | false => simp [advance, hs, hd, hh, awake_eq_self hh]

@[simp] theorem writes_fetchOpcode : cpu.fetchOpcode.writes bus = [] := rfl

theorem runInstruction_of_decode_some {i : Instruction}
    (h : Instruction.decode (Bus.read bus cpu.regs.pc) = some i) :
    let x := (cpu.fetched (Bus.read bus cpu.regs.pc)).execute i
    cpu.awake.runInstruction.run bus =
        ((.ok (x.run bus).1.1, (x.run bus).1.2.advanceEi), (x.run bus).2) ∧
      cpu.awake.runInstruction.writes bus = x.writes bus := by
  cases hb : cpu.haltBug <;> simp [runInstruction, awake, fetched, skip, h, hb]

theorem runInstruction_of_decode_none
    (h : Instruction.decode (Bus.read bus cpu.regs.pc) = none) :
    cpu.awake.runInstruction.run bus =
        ((.error ⟨Bus.read bus cpu.regs.pc, cpu.regs.pc, cpu.cycles⟩,
          cpu.hangOn (Bus.read bus cpu.regs.pc)), bus) ∧
      cpu.awake.runInstruction.writes bus = [] := by
  cases hb : cpu.haltBug <;> simp [runInstruction, awake, hangOn, skip, jump, h, hb]

theorem run_step_of_unlocked (h : cpu.locked = none) :
    cpu.step.run bus =
      (((cpu.advance.run bus).1.1, (cpu.advance.run bus).1.2.spend (cpu.advance.run bus).1.1),
        (cpu.advance.run bus).2) := by
  simp [step, h]

theorem writes_step_of_unlocked (h : cpu.locked = none) :
    cpu.step.writes bus = cpu.advance.writes bus := by
  simp [step, h]

theorem run_step_of_hung {e : IllegalOpcode} (h : cpu.activity bus = .hung e) :
    cpu.step.run bus = ((.error e, cpu), bus) := by
  simp [step, activity_eq_hung_iff.1 h]

theorem run_step_of_stopped (h : cpu.activity bus = .stopped) :
    cpu.step.run bus =
      ((.ok 4,
        { cpu with
          stopped := Bus.read bus joypadAddr &&& 0x0F == 0x0F
          cycles := cpu.cycles + 4 }), bus) := by
  obtain ⟨hl, hs⟩ := activity_eq_stopped_iff.1 h
  rw [run_step_of_unlocked hl]
  by_cases hj : Bus.read bus joypadAddr &&& 0x0F = 0x0F <;>
    simp [advance, awaitJoypad, spend, hs, hj]

theorem run_step_of_dispatch {i : Interrupt} (h : cpu.activity bus = .dispatch i) :
    cpu.step.run bus =
      ((.ok 20, { cpu.dispatched i with cycles := cpu.cycles + 20 }),
        Bus.writeAll bus (cpu.dispatchWrites bus i)) := by
  obtain ⟨hl, hs, hd⟩ := activity_eq_dispatch_iff.1 h
  rw [run_step_of_unlocked hl]
  simp [advance, spend, hs, hd, dispatchCost, dispatched]

theorem run_step_of_asleep (h : cpu.activity bus = .asleep) :
    cpu.step.run bus = ((.ok 4, { cpu with cycles := cpu.cycles + 4 }), bus) := by
  obtain ⟨hl, hs, hd, hh, hp⟩ := activity_eq_asleep_iff.1 h
  rw [run_step_of_unlocked hl]
  simp [advance, runHalted, spend, hs, hd, hh, hp]

theorem run_step_of_execute {i : Instruction} (h : cpu.activity bus = .execute i) :
    cpu.step.run bus =
      let r := ((cpu.fetched (Bus.read bus cpu.regs.pc)).execute i).run bus
      ((.ok r.1.1, { r.1.2.advanceEi with cycles := r.1.2.advanceEi.cycles + .ofNat r.1.1 }),
        r.2) := by
  obtain ⟨hf, hi⟩ := activity_eq_execute_iff.1 h
  rw [run_step_of_unlocked hf.1, (advance_of_fetches hf).1, (runInstruction_of_decode_some hi).1]
  rfl

theorem run_step_eq_carryOut {i : Instruction} (h : cpu.activity bus = .execute i) :
    cpu.step.run bus = ((cpu.fetched (Bus.read bus cpu.regs.pc)).carryOut i).run bus := by
  rw [run_step_of_execute h, carryOut, Access.run_bind]
  rfl

@[simp] theorem regs_halt : (cpu.halt.run bus).1.regs = cpu.regs := by
  cases hi : cpu.ime with
  | true => simp [halt, hi]
  | false => by_cases hp : Interrupt.pendingOn bus = 0 <;> simp [halt, hi, hp]

@[simp] theorem regs_advanceEi : cpu.advanceEi.regs = cpu.regs := by
  unfold advanceEi
  split
  · rfl
  · split <;> rfl

theorem regs_after_of_execute {i : Instruction} (h : cpu.activity bus = .execute i) :
    (cpu.after bus).regs =
      (((cpu.fetched (Bus.read bus cpu.regs.pc)).execute i).run bus).1.2.regs := by
  rw [after, run_step_of_execute h]
  exact regs_advanceEi

theorem run_step_of_hang {opcode : UInt8} (h : cpu.activity bus = .hang opcode) :
    cpu.step.run bus =
      ((.error ⟨opcode, cpu.regs.pc, cpu.cycles⟩, cpu.hangOn opcode), bus) := by
  obtain ⟨hf, rfl, hi⟩ := activity_eq_hang_iff.1 h
  rw [run_step_of_unlocked hf.1, (advance_of_fetches hf).1, (runInstruction_of_decode_none hi).1]
  rfl

theorem writes_step :
    cpu.step.writes bus =
      match cpu.activity bus with
      | .dispatch i => cpu.dispatchWrites bus i
      | .execute i => ((cpu.fetched (Bus.read bus cpu.regs.pc)).execute i).writes bus
      | _ => [] := by
  cases h : cpu.activity bus with
  | hung e => simp [step, activity_eq_hung_iff.1 h]
  | stopped =>
    obtain ⟨hl, hs⟩ := activity_eq_stopped_iff.1 h
    rw [writes_step_of_unlocked hl]
    simp [advance, awaitJoypad, hs]
  | dispatch i =>
    obtain ⟨hl, hs, hd⟩ := activity_eq_dispatch_iff.1 h
    rw [writes_step_of_unlocked hl]
    simp [advance, hs, hd]
  | asleep =>
    obtain ⟨hl, hs, hd, hh, hp⟩ := activity_eq_asleep_iff.1 h
    rw [writes_step_of_unlocked hl]
    simp [advance, runHalted, hs, hd, hh, hp]
  | execute i =>
    obtain ⟨hf, hi⟩ := activity_eq_execute_iff.1 h
    rw [writes_step_of_unlocked hf.1, (advance_of_fetches hf).2,
      (runInstruction_of_decode_some hi).2]
  | hang opcode =>
    obtain ⟨hf, rfl, hi⟩ := activity_eq_hang_iff.1 h
    rw [writes_step_of_unlocked hf.1, (advance_of_fetches hf).2,
      (runInstruction_of_decode_none hi).2]

end Cpu

end DotMatrix
