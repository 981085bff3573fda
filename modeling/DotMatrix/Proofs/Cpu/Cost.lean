import DotMatrix.Proofs.Cpu.Latches

namespace DotMatrix.Cpu

def aged (cpu : Cpu) (cycles : Nat) : Cpu := { cpu with cycles := cpu.cycles + .ofNat cycles }

@[simp] theorem aged_zero (cpu : Cpu) : cpu.aged 0 = cpu := by
  simp [aged]

@[simp] theorem aged_aged (cpu : Cpu) (m n : Nat) : (cpu.aged m).aged n = cpu.aged (m + n) := by
  simp only [aged, UInt64.ofNat_add, UInt64.add_assoc]

def costs : List Nat := [4, 8, 12, 16, 20, 24]

theorem bounds_of_mem_costs {cost : Nat} (h : cost ∈ costs) : 4 ≤ cost ∧ cost ≤ 24 := by
  revert cost
  decide

theorem costOf_mem_costs (o : Operand) {inRegister inMemory : Nat} (hr : inRegister ∈ costs)
    (hm : inMemory ∈ costs) : costOf o inRegister inMemory ∈ costs := by
  cases o with
  | reg r => exact hr
  | atHL => exact hm

variable {β : Type} [Bus β] (cpu : Cpu) (bus : β)

theorem cost_executeExtended (i : ExtendedInstruction) :
    ((cpu.executeExtended i).run bus).1.1 ∈ costs := by
  cases i <;> simp only [executeExtended, Access.run_bind, Access.run_pure] <;>
    exact costOf_mem_costs _ (by decide) (by decide)

theorem cost_execute (i : Instruction) : ((cpu.execute i).run bus).1.1 ∈ costs := by
  cases i with
  | load dst src => cases dst <;> cases src <;> simp [execute, Operand.isMemory, costs]
  | loadImm dst | inc dst | dec dst | alu op dst =>
    simp only [execute, Access.run_bind, Access.run_pure]
    exact costOf_mem_costs dst (by decide) (by decide)
  | jr cond => cases h : cpu.holds cond <;> simp [execute, jumpRelative, h, costs]
  | jp cond => cases h : cpu.holds cond <;> simp [execute, jumpAbsolute, h, costs]
  | call cond => cases h : cpu.holds cond <;> simp [execute, call, h, costs]
  | ret cond =>
    cases cond with
    | none => simp [execute, costs]
    | some cc => cases h : cpu.regs.holds cc <;> simp [execute, h, costs]
  | extended => exact cost_executeExtended _ bus _
  | _ => simp [execute, costs]

@[simp] theorem writes_imm8 : cpu.imm8.writes bus = [] := rfl

@[simp] theorem writes_imm16 : cpu.imm16.writes bus = [] := rfl

@[simp] theorem writes_pop : cpu.pop.writes bus = [] := rfl

@[simp] theorem writes_push (value : UInt16) :
    (cpu.push value).writes bus =
      [(cpu.regs.sp - 1, Word.high value), (cpu.regs.sp - 2, Word.low value)] := rfl

@[simp] theorem writes_readOperand (src : Operand) : (cpu.readOperand src).writes bus = [] := by
  cases src <;> rfl

@[simp] theorem writes_halt : cpu.halt.writes bus = [] := by
  unfold halt
  cases cpu.ime <;> rfl

def outcome : Outcome := (cpu.step.run bus).1.1

variable {cpu bus}

theorem mem_costs_of_outcome {cost : Nat} (h : cpu.outcome bus = .ok cost) : cost ∈ costs := by
  unfold outcome at h
  cases ha : cpu.activity bus with
  | hung e => simp [run_step_of_hung ha] at h
  | hang opcode => simp [run_step_of_hang ha] at h
  | execute i =>
    rw [run_step_of_execute ha] at h
    exact Except.ok.inj h ▸ cost_execute _ bus i
  | stopped =>
    rw [run_step_of_stopped ha] at h
    exact Except.ok.inj h ▸ by decide
  | dispatch i =>
    rw [run_step_of_dispatch ha] at h
    exact Except.ok.inj h ▸ by decide
  | asleep =>
    rw [run_step_of_asleep ha] at h
    exact Except.ok.inj h ▸ by decide

theorem cycles_after :
    (cpu.after bus).cycles =
      match cpu.outcome bus with
      | .ok cost => cpu.cycles + .ofNat cost
      | .error _ => cpu.cycles := by
  unfold after outcome
  cases ha : cpu.activity bus with
  | hung e => rw [run_step_of_hung ha]
  | stopped => rw [run_step_of_stopped ha]; rfl
  | dispatch i => rw [run_step_of_dispatch ha]; rfl
  | asleep => rw [run_step_of_asleep ha]; rfl
  | execute i =>
    rw [run_step_of_execute ha]
    have h := (keeps_advanceEi _).cycles_eq.trans
      (keeps_execute (cpu.fetched (Bus.read bus cpu.regs.pc)) bus i).cycles_eq
    simp only [h]
    rfl
  | hang opcode => rw [run_step_of_hang ha]; rfl

theorem run_step_snd_of_error {e : IllegalOpcode} (h : cpu.outcome bus = .error e) :
    (cpu.step.run bus).2 = bus := by
  unfold outcome at h
  cases ha : cpu.activity bus with
  | hung e => rw [run_step_of_hung ha]
  | stopped => simp [run_step_of_stopped ha] at h
  | dispatch i => simp [run_step_of_dispatch ha] at h
  | asleep => simp [run_step_of_asleep ha] at h
  | execute i => simp [run_step_of_execute ha] at h
  | hang opcode => rw [run_step_of_hang ha]

end DotMatrix.Cpu
