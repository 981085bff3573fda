import DotMatrix.Proofs.Cpu.Cost
import DotMatrix.Proofs.Interrupt
import DotMatrix.Proofs.Raster

namespace DotMatrix

namespace Cpu

variable {β : Type} [Bus β]

structure Serves (cpu : Cpu) (bus : β) (i : Interrupt) : Prop where
  pending : Interrupt.pendingOn bus &&& i.mask ≠ 0
  lowest : ∀ j : Interrupt, j.index < i.index → Interrupt.pendingOn bus &&& j.mask = 0
  writes : cpu.step.writes bus = cpu.dispatchWrites bus i
  outcome : cpu.outcome bus = .ok 20
  after : cpu.after bus = { cpu.dispatched i with cycles := cpu.cycles + 20 }

variable {cpu : Cpu} {bus : β}

theorem first?_pendingOn_eq_none_iff :
    Interrupt.first? (Interrupt.pendingOn bus) = none ↔ Interrupt.pendingOn bus = 0 :=
  Interrupt.first?_eq_none_iff.trans Interrupt.sources_eq_zero_iff.symm

theorem dueOn_eq_none_iff :
    cpu.dueOn bus = none ↔ ¬ (cpu.ime ∧ Interrupt.pendingOn bus ≠ 0) := by
  unfold dueOn
  cases cpu.ime with
  | false => simp
  | true => simp [first?_pendingOn_eq_none_iff]

theorem exists_dispatch_iff (hl : cpu.locked = none) (hs : cpu.stopped = false) :
    (∃ i, cpu.activity bus = .dispatch i) ↔ cpu.ime ∧ Interrupt.pendingOn bus ≠ 0 := by
  simp only [activity_eq_dispatch_iff, hl, hs, true_and, dueOn]
  cases cpu.ime with
  | false => simp
  | true => simp [← first?_pendingOn_eq_none_iff, Option.ne_none_iff_exists']

theorem serves_of_activity {i : Interrupt} (h : cpu.activity bus = .dispatch i) :
    cpu.Serves bus i := by
  obtain ⟨-, -, hdue⟩ := activity_eq_dispatch_iff.1 h
  have hfirst : Interrupt.first? (Interrupt.pendingOn bus) = some i := by
    grind [dueOn]
  obtain ⟨hpending, hlowest⟩ := Interrupt.first?_eq_some_iff.1 hfirst
  refine ⟨hpending, hlowest, ?_, ?_, ?_⟩
  · rw [writes_step, h]
  · rw [outcome, run_step_of_dispatch h]
  · rw [after, run_step_of_dispatch h]

end Cpu

def Cpu.powerOnWithIme : Cpu := { Cpu.powerOn with ime := true }

end DotMatrix
