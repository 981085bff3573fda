import DotMatrix.Proofs.Cpu.Latches

namespace DotMatrix

namespace Latches

structure Sound (l : Latches) : Prop where
  one_mode : l.halted.toNat + l.stopped.toNat + l.haltBug.toNat + l.hung.toNat ≤ 1
  ei_once : ¬ (l.eiPending ∧ l.eiDelay)
  ime_of_eiPending : l.eiPending → l.ime
  ei_of_asleep : l.halted ∨ l.stopped ∨ l.haltBug → l.ime = false →
    l.eiPending = false ∧ l.eiDelay = false

variable {l : Latches}

theorem Sound.wake (h : l.Sound) (stopped : Bool) (hs : l.stopped) :
    ({ l with stopped } : Latches).Sound := by
  obtain ⟨hmode, honce, hime, hei⟩ := h
  refine ⟨?_, honce, hime, fun _ => hei (.inr (.inl hs))⟩
  have := stopped.toNat_le
  rw [hs] at hmode
  simp only [Bool.toNat_true] at hmode ⊢
  omega

theorem Sound.dispatched (h : l.Sound) : l.dispatched.Sound := by
  refine ⟨?_, ?_, ?_, ?_⟩ <;> simp_all [Latches.dispatched]
  have := h.one_mode
  omega

theorem Sound.hang (h : l.Sound) (hs : l.stopped = false) :
    ({ l.fetched with hung := true } : Latches).Sound := by
  obtain ⟨-, honce, hime, -⟩ := h
  refine ⟨?_, honce, hime, ?_⟩ <;> simp [Latches.fetched, hs]

theorem Sound.run (h : l.Sound) (hs : l.stopped = false) (hh : l.hung = false) (pending : UInt8)
    (i : Instruction) : (l.run pending i).Sound := by
  have hime := h.ime_of_eiPending
  rw [run_eq]
  refine ⟨?_, ?_, ?_, ?_⟩
  · rw [hs, hh]
    cases i with
    | halt => cases l.ime <;> by_cases hp : pending = 0 <;> simp [hp]
    | _ => simp
  · cases l.eiDelay <;> simp
  · cases l.eiDelay with
    | true => simp +contextual
    | false => simp
  · intro hasleep hclear
    -- A halt or a stop that leaves `ime` clear had no request in flight.
    have hi : i = .halt ∨ i = .stop := by
      rcases hasleep with h | h | h <;> simp [hs] at h <;> simp [h]
    have hbefore : l.ime = false ∧ l.eiDelay = false := by
      rcases hi with rfl | rfl <;> simpa using hclear
    have hpending : l.eiPending = false := by
      simpa [hbefore.1] using hime
    rcases hi with rfl | rfl <;> simp [hbefore.2, hpending]

end Latches

namespace Cpu

variable {β : Type} [Bus β]

/-- The processor after a count of steps from power on, each with a bus of its own. -/
def trajectory (buses : Nat → β) : Nat → Cpu
  | 0 => powerOn
  | n + 1 => (trajectory buses n).after (buses n)

variable {cpu : Cpu} {bus : β}

theorem sound_after (h : cpu.latches.Sound) (bus : β) : (cpu.after bus).latches.Sound := by
  rw [latches_after]
  cases ha : cpu.activity bus with
  | hung e => exact h
  | stopped => exact h.wake _ (activity_eq_stopped_iff.1 ha).2
  | dispatch i => exact h.dispatched
  | asleep => exact h
  | execute i =>
    obtain ⟨⟨hl, hs, -⟩, -⟩ := activity_eq_execute_iff.1 ha
    exact h.run hs (by simp [latches, hl]) _ i
  | hang opcode =>
    obtain ⟨⟨-, hs, -⟩, -⟩ := activity_eq_hang_iff.1 ha
    exact h.hang hs

theorem sound_trajectory (buses : Nat → β) (n : Nat) : (trajectory buses n).latches.Sound := by
  induction n with
  | zero => constructor <;> simp [trajectory, powerOn, latches]
  | succ n ih => exact sound_after ih (buses n)

structure WellFormed (cpu : Cpu) : Prop where
  f_low_nibble : cpu.regs.f.toByte &&& 0x0F = 0
  one_mode :
    cpu.halted.toNat + cpu.stopped.toNat + cpu.haltBug.toNat + cpu.locked.isSome.toNat ≤ 1
  ei_once : ¬ (cpu.eiPending ∧ cpu.eiDelay)
  ime_of_eiPending : cpu.eiPending → cpu.ime
  ei_of_asleep : cpu.halted ∨ cpu.stopped ∨ cpu.haltBug → cpu.ime = false →
    cpu.eiPending = false ∧ cpu.eiDelay = false
  locked_here : ∀ e, cpu.locked = some e →
    Instruction.decode e.opcode = none ∧ cpu.regs.pc = e.pc ∧ cpu.cycles = e.cycles ∧
      cpu.lastOpcode = e.opcode.toUInt16

theorem WellFormed.sound (h : cpu.WellFormed) : cpu.latches.Sound :=
  ⟨h.one_mode, h.ei_once, h.ime_of_eiPending, h.ei_of_asleep⟩

theorem wellFormed_after (h : cpu.WellFormed) (bus : β) : (cpu.after bus).WellFormed := by
  obtain ⟨hmode, honce, hime, hei⟩ := sound_after h.sound bus
  refine ⟨(cpu.after bus).regs.f.low_nibble, hmode, honce, hime, hei, ?_⟩
  intro e he
  rw [locked_after] at he
  cases ha : cpu.activity bus with
  | hang opcode =>
    rw [ha] at he
    obtain rfl := Option.some.inj he
    rw [after, run_step_of_hang ha]
    exact ⟨(activity_eq_hang_iff.1 ha).2.2, rfl, rfl, rfl⟩
  | _ =>
    rw [ha] at he
    rw [after, run_step_of_hung (activity_eq_hung_iff.2 he)]
    exact h.locked_here e he

theorem wellFormed_powerOn : powerOn.WellFormed where
  f_low_nibble := rfl
  one_mode := Nat.zero_le _
  ei_once := by simp [powerOn]
  ime_of_eiPending := by simp [powerOn]
  ei_of_asleep := by simp [powerOn]
  locked_here := by simp [powerOn]

theorem wellFormed_trajectory (buses : Nat → β) (n : Nat) : (trajectory buses n).WellFormed := by
  induction n with
  | zero => exact wellFormed_powerOn
  | succ n ih => exact wellFormed_after ih (buses n)

end Cpu

end DotMatrix
