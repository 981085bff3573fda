import DotMatrix.Proofs.Cpu.Dispatch

namespace DotMatrix

namespace Instruction

def holes : List UInt8 := [0xD3, 0xDB, 0xDD, 0xE3, 0xE4, 0xEB, 0xEC, 0xED, 0xF4, 0xFC, 0xFD]

theorem decode_eq_none_iff (opcode : UInt8) : decode opcode = none ↔ opcode ∈ holes := by
  obtain ⟨⟨n⟩⟩ := opcode
  revert n
  decide +kernel

end Instruction

namespace Cpu

variable {β : Type} [Bus β] {cpu : Cpu} {bus : β}

theorem outcome_eq_error_iff {e : IllegalOpcode} :
    cpu.outcome bus = .error e ↔
      cpu.activity bus = .hung e ∨
        ∃ opcode, cpu.activity bus = .hang opcode ∧ e = ⟨opcode, cpu.regs.pc, cpu.cycles⟩ := by
  unfold outcome
  cases ha : cpu.activity bus with
  | hung e' => simp [run_step_of_hung ha]
  | stopped => simp [run_step_of_stopped ha]
  | dispatch i => simp [run_step_of_dispatch ha]
  | asleep => simp [run_step_of_asleep ha]
  | execute i => simp [run_step_of_execute ha]
  | hang opcode => simp [run_step_of_hang ha, eq_comm]

theorem exists_hang_iff (h : cpu.locked = none) :
    (∃ opcode, cpu.activity bus = .hang opcode) ↔
      cpu.stopped = false ∧ ¬ (cpu.ime ∧ Interrupt.pendingOn bus ≠ 0) ∧
        ¬ (cpu.halted ∧ Interrupt.pendingOn bus = 0) ∧
        Bus.read bus cpu.regs.pc ∈ Instruction.holes := by
  simp only [activity_eq_hang_iff, Fetches, dueOn_eq_none_iff, h, ← Instruction.decode_eq_none_iff]
  grind

theorem exists_error_iff :
    (∃ e, cpu.outcome bus = .error e) ↔
      cpu.locked.isSome ∨
        cpu.stopped = false ∧ ¬ (cpu.ime ∧ Interrupt.pendingOn bus ≠ 0) ∧
          ¬ (cpu.halted ∧ Interrupt.pendingOn bus = 0) ∧
          Bus.read bus cpu.regs.pc ∈ Instruction.holes := by
  simp only [outcome_eq_error_iff, exists_or, activity_eq_hung_iff]
  cases h : cpu.locked with
  | none =>
    rw [← exists_hang_iff h, exists_comm]
    simp
  | some e => simp

theorem outcome_of_extended (h : cpu.locked = none) (hread : Bus.read bus cpu.regs.pc = 0xCB) :
    ∃ cost, cpu.outcome bus = .ok cost := by
  cases ho : cpu.outcome bus with
  | ok cost => exact ⟨cost, rfl⟩
  | error e =>
    obtain ⟨-, -, -, hhole⟩ := (exists_error_iff.1 ⟨e, ho⟩).resolve_left (by simp [h])
    rw [hread] at hhole
    exact absurd hhole (by decide)

theorem hang_of_error {e : IllegalOpcode} (h : cpu.locked = none)
    (he : cpu.outcome bus = .error e) :
    e = ⟨Bus.read bus cpu.regs.pc, cpu.regs.pc, cpu.cycles⟩ ∧
      cpu.activity bus = .hang e.opcode := by
  rcases outcome_eq_error_iff.1 he with hhung | ⟨opcode, ha, rfl⟩
  · simp [activity_eq_hung_iff, h] at hhung
  · obtain ⟨-, rfl, -⟩ := activity_eq_hang_iff.1 ha
    exact ⟨rfl, ha⟩

theorem locked_after_of_error {e : IllegalOpcode} (he : cpu.outcome bus = .error e) :
    (cpu.after bus).locked = some e := by
  rw [locked_after]
  rcases outcome_eq_error_iff.1 he with ha | ⟨opcode, ha, rfl⟩
  · rw [ha]
    exact activity_eq_hung_iff.1 ha
  · rw [ha]

theorem step_of_hung {e : IllegalOpcode} (h : cpu.locked = some e) :
    cpu.step = pure (.error e, cpu) := by
  simp [step, h]

theorem foldl_after_of_hung {e : IllegalOpcode} (h : cpu.locked = some e) (buses : List β) :
    buses.foldl after cpu = cpu := by
  induction buses with
  | nil => rfl
  | cons bus buses ih =>
    have hafter : cpu.after bus = cpu := by rw [after, step_of_hung h]; rfl
    rw [List.foldl_cons, hafter, ih]

/-- A step fails just when the processor hangs already or fetches a hole. The first failure says
what was fetched, where and when, and changes nothing but the mode. After it no step does anything,
whatever happens to the bus, until a reset. -/
theorem failure_is_atomic_and_final :
    (∀ (cpu : Cpu) (bus : β),
      (∃ e, cpu.outcome bus = .error e) ↔
        cpu.locked.isSome ∨
          cpu.stopped = false ∧ ¬ (cpu.ime ∧ Interrupt.pendingOn bus ≠ 0) ∧
            ¬ (cpu.halted ∧ Interrupt.pendingOn bus = 0) ∧
            Bus.read bus cpu.regs.pc ∈ Instruction.holes) ∧
    (∀ (cpu : Cpu) (bus : β), cpu.locked = none → Bus.read bus cpu.regs.pc = 0xCB →
      ∃ cost, cpu.outcome bus = .ok cost) ∧
    ∀ (cpu : Cpu) (bus : β) (e : IllegalOpcode),
      cpu.locked = none → cpu.outcome bus = .error e →
        e = ⟨Bus.read bus cpu.regs.pc, cpu.regs.pc, cpu.cycles⟩ ∧
        cpu.after bus =
          { cpu with
            halted := false
            haltBug := false
            locked := some e
            lastOpcode := e.opcode.toUInt16 } ∧
        cpu.step.writes bus = [] ∧ (cpu.step.run bus).2 = bus ∧
        ∀ (buses : List β) (next : β),
          let later := buses.foldl after (cpu.after bus)
          later = cpu.after bus ∧ later.outcome next = .error e ∧ later.step.trace next = [] ∧
            later.after next = later ∧ (later.step.run next).2 = next ∧ later.reset = powerOn := by
  refine ⟨fun _ _ => exists_error_iff, fun _ _ => outcome_of_extended, ?_⟩
  intro cpu bus e h he
  obtain ⟨hopcode, ha⟩ := hang_of_error h he
  have hafter : cpu.after bus =
      { cpu with
        halted := false
        haltBug := false
        locked := some e
        lastOpcode := e.opcode.toUInt16 } := by
    rw [after, run_step_of_hang ha, hopcode]
    rfl
  refine ⟨hopcode, hafter, ?_, run_step_snd_of_error he, ?_⟩
  · rw [writes_step, ha]
  · -- The mode outlasts all the steps, so one equation of `step` answers for the last one too.
    intro buses next later
    have hlater : later = cpu.after bus := foldl_after_of_hung (by rw [hafter]) buses
    have hstep : later.step = pure (.error e, later) := step_of_hung (by rw [hlater, hafter])
    refine ⟨hlater, ?_, ?_, ?_, ?_, rfl⟩
    · rw [outcome, hstep]; rfl
    · rw [hstep]; rfl
    · rw [after, hstep]; rfl
    · rw [hstep]; rfl

def tripping : Cpu := { powerOn with haltBug := true, eiDelay := true }

def oneHole : Memory := Memory.zero.write 0x0100 0xD3

theorem failure_under_halt_bug :
    let e : IllegalOpcode := ⟨0xD3, 0x0100, 0⟩
    let hung := { tripping with haltBug := false, locked := some e, lastOpcode := 0x00D3 }
    tripping.outcome oneHole = .error e ∧ tripping.after oneHole = hung ∧
      ([Memory.zero, oneHole].foldl after (tripping.after oneHole)).outcome Memory.zero = .error e ∧
      ∃ cost, tripping.outcome (Memory.zero.write 0x0100 0xCB) = .ok cost := by
  obtain ⟨hiff, hextended, hfail⟩ := failure_is_atomic_and_final (β := Memory)
  have hread : Bus.read oneHole tripping.regs.pc = 0xD3 := Memory.read_write_self _ _ _
  obtain ⟨e, he⟩ : ∃ e, tripping.outcome oneHole = .error e := by
    refine (hiff tripping oneHole).2 (.inr ⟨rfl, ?_, ?_, ?_⟩)
    · simp [tripping, powerOn]
    · simp [tripping, powerOn]
    · rw [hread]
      decide
  obtain ⟨hopcode, hafter, -, -, hlater⟩ := hfail tripping oneHole e rfl he
  obtain rfl : e = ⟨0xD3, 0x0100, 0⟩ := hopcode.trans (congrArg (IllegalOpcode.mk · _ _) hread)
  refine ⟨he, hafter, (hlater [Memory.zero, oneHole] Memory.zero).2.1, ?_⟩
  exact hextended tripping _ rfl (Memory.read_write_self _ _ _)

end Cpu

end DotMatrix
