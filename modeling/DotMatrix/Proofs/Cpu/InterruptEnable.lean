import DotMatrix.Memory
import DotMatrix.Proofs.Cpu.Trajectory

namespace DotMatrix

namespace Latches

variable {l : Latches}

theorem run_ime_of_clear (h : l.ime = false) (pending : UInt8) (i : Instruction) :
    (l.run pending i).ime ↔ i = .reti ∨ l.eiDelay ∧ i ≠ .di := by
  simp [run_eq, h, and_comm]

theorem run_ime_of_set (h : l.ime) (pending : UInt8) (i : Instruction) :
    (l.run pending i).ime = false ↔ i = .di := by
  by_cases hdi : i = .di <;> simp [run_eq, h, hdi]

theorem Sound.run_eiDelay (h : l.Sound) (pending : UInt8) (i : Instruction)
    (hi : (l.run pending i).ime = false) : (l.run pending i).eiDelay ↔ i = .ei := by
  rw [run_eq] at hi ⊢
  by_cases hdi : i = .di
  · simp [hdi]
  · have hclear : l.ime = false ∧ l.eiDelay = false := by
      simpa [hdi] using (Bool.or_eq_false_iff.1 hi).2
    have hpending : l.eiPending = false := by
      simpa [hclear.1] using h.ime_of_eiPending
    simp [hdi, hclear.2, hpending]

end Latches

namespace Cpu

variable {β : Type} [Bus β] {cpu : Cpu} {bus : β}

theorem ime_after :
    (cpu.after bus).ime =
      match cpu.activity bus with
      | .dispatch _ => false
      | .execute i => (cpu.latches.run (Interrupt.pendingOn bus) i).ime
      | _ => cpu.ime := by
  have h : (cpu.after bus).ime = (cpu.after bus).latches.ime := rfl
  rw [h, latches_after]
  cases cpu.activity bus <;> rfl

theorem ime_after_of_clear (h : cpu.ime = false) :
    (cpu.after bus).ime ↔
      cpu.activity bus = .execute .reti ∨
        cpu.eiDelay ∧ ∃ i, i ≠ .di ∧ cpu.activity bus = .execute i := by
  rw [ime_after]
  cases ha : cpu.activity bus with
  | execute i =>
    have := Latches.run_ime_of_clear (l := cpu.latches) h (Interrupt.pendingOn bus) i
    simpa [latches] using this
  | _ => simp [h]

theorem ime_after_of_set (h : cpu.ime) :
    (cpu.after bus).ime = false ↔
      cpu.activity bus = .execute .di ∨ ∃ i, cpu.activity bus = .dispatch i := by
  rw [ime_after]
  cases ha : cpu.activity bus with
  | execute i =>
    have := Latches.run_ime_of_set (l := cpu.latches) h (Interrupt.pendingOn bus) i
    simpa using this
  | _ => simp [h]

theorem eiDelay_after (h : cpu.latches.Sound) (hi : (cpu.after bus).latches.ime = false)
    (hl : (cpu.after bus).latches.hung = false) :
    (cpu.after bus).latches.eiDelay ↔ cpu.activity bus = .execute .ei := by
  rw [latches_after] at hi hl ⊢
  cases ha : cpu.activity bus with
  | hung e => simp [ha, latches, activity_eq_hung_iff.1 ha] at hl
  | stopped =>
    rw [ha] at hi
    have := (h.ei_of_asleep (.inr (.inl (activity_eq_stopped_iff.1 ha).2)) hi).2
    simpa using this
  | dispatch i => simp [Latches.dispatched]
  | asleep =>
    rw [ha] at hi
    have := (h.ei_of_asleep (.inl (activity_eq_asleep_iff.1 ha).2.2.2.1) hi).2
    simpa using this
  | execute i =>
    rw [ha] at hi
    simpa using h.run_eiDelay _ i hi
  | hang opcode => simp [ha] at hl

def activityAt (buses : Nat → β) (n : Nat) : Activity := (trajectory buses n).activity (buses n)

/-- The step may set `ime`: it returns from a handler, or it carries out the instruction after a
request and that instruction does not take the request back. -/
def Enables (buses : Nat → β) (n : Nat) : Prop :=
  activityAt buses n = .execute .reti ∨
    (∃ m, n = m + 1 ∧ activityAt buses m = .execute .ei) ∧
      ∃ i, i ≠ .di ∧ activityAt buses n = .execute i

def Disables (buses : Nat → β) (n : Nat) : Prop :=
  activityAt buses n = .execute .di ∨ ∃ i, activityAt buses n = .dispatch i

variable (buses : Nat → β) (n : Nat)

theorem eiDelay_trajectory {n : Nat} (hi : (trajectory buses n).ime = false)
    (hl : (trajectory buses n).locked = none) :
    (trajectory buses n).eiDelay ↔ ∃ m, n = m + 1 ∧ activityAt buses m = .execute .ei := by
  cases n with
  | zero => simp [trajectory, powerOn]
  | succ m =>
    have hung : ((trajectory buses m).after (buses m)).latches.hung = false :=
      congrArg Option.isSome hl
    exact (eiDelay_after (sound_trajectory buses m) hi hung).trans (by simp [activityAt])

theorem enables_iff (hi : (trajectory buses n).ime = false) :
    (trajectory buses (n + 1)).ime ↔ Enables buses n := by
  refine (ime_after_of_clear hi).trans (or_congr_right ?_)
  refine and_congr_left ?_
  rintro ⟨i, -, ha⟩
  exact eiDelay_trajectory buses hi (activity_eq_execute_iff.1 ha).1.1

theorem disables_iff (hi : (trajectory buses n).ime) :
    (trajectory buses (n + 1)).ime = false ↔ Disables buses n :=
  ime_after_of_set hi

theorem not_enables_of_disables (h : Disables buses n) : ¬ Enables buses n := by
  unfold Disables at h
  unfold Enables
  grind

theorem ime_of_disables (h : Disables buses n) : (trajectory buses (n + 1)).ime = false := by
  cases hi : (trajectory buses n).ime with
  | true => exact (disables_iff buses n hi).2 h
  | false =>
    refine Bool.eq_false_iff.2 fun hset => ?_
    exact not_enables_of_disables buses n h ((enables_iff buses n hi).1 hset)

theorem ime_stays_clear {n : Nat} (h : Disables buses n) (k : Nat)
    (hk : ∀ j, n < j → j ≤ n + k → ¬ Enables buses j) :
    (trajectory buses (n + k + 1)).ime = false := by
  induction k with
  | zero => exact ime_of_disables buses n h
  | succ k ih =>
    have hi := ih fun j hn hj => hk j hn (by omega)
    refine Bool.eq_false_iff.2 fun hset => ?_
    exact hk (n + k + 1) (by omega) (by omega) ((enables_iff buses (n + k + 1) hi).1 hset)

/-- The exact occasions on which `ime` changes. Once it was cleared it stays clear up to the next
step that may set it, whatever was requested before. -/
theorem ime_changes (buses : Nat → β) :
    (∀ n, (trajectory buses n).ime = false →
      ((trajectory buses (n + 1)).ime = true ↔ Enables buses n)) ∧
    (∀ n, (trajectory buses n).ime = true →
      ((trajectory buses (n + 1)).ime = false ↔ Disables buses n)) ∧
    ∀ n, Disables buses n →
      ∀ k, (∀ j, n < j → j ≤ n + k → ¬ Enables buses j) →
        (trajectory buses (n + k + 1)).ime = false :=
  ⟨enables_iff buses, disables_iff buses, fun _ h => ime_stays_clear buses h⟩

def eiNopDi : Memory := Memory.zero.writeAll [(0x0100, 0xFB), (0x0102, 0xF3)]

def eiDi : Memory := Memory.zero.writeAll [(0x0100, 0xFB), (0x0101, 0xF3)]

theorem ime_of_ei_and_di :
    (Enables (fun _ => eiNopDi) 1 ∧ (trajectory (fun _ => eiNopDi) 2).ime = true ∧
      Disables (fun _ => eiNopDi) 2 ∧ (trajectory (fun _ => eiNopDi) 3).ime = false) ∧
    Disables (fun _ => eiDi) 1 ∧ (trajectory (fun _ => eiDi) 4).ime = false := by
  constructor
  · obtain ⟨hset, hclear, -⟩ := ime_changes fun _ => eiNopDi
    have henables : Enables (fun _ => eiNopDi) 1 :=
      .inr ⟨⟨0, rfl, by decide +kernel⟩, .nop, by decide, by decide +kernel⟩
    have hime := (hset 1 (by decide +kernel)).2 henables
    have hpending : Interrupt.pendingOn eiNopDi = 0 := by
      simp only [Interrupt.pendingOn, eiNopDi, Memory.writeAll, List.foldl_cons, List.foldl_nil,
        Memory.bus_read, Memory.read_write, Memory.read_zero]
      decide
    have hdue : (trajectory (fun _ => eiNopDi) 2).dueOn eiNopDi = none := by
      rw [dueOn, hpending, hime]
      rfl
    have hdisables : Disables (fun _ => eiNopDi) 2 := by
      refine .inl (activity_eq_execute_iff.2 ⟨⟨?_, ?_, hdue, ?_⟩, ?_⟩) <;> decide +kernel
    exact ⟨henables, hime, hdisables, (hclear 2 hime).2 hdisables⟩
  · obtain ⟨-, -, hstay⟩ := ime_changes fun _ => eiDi
    have hdisables : Disables (fun _ => eiDi) 1 := .inl (by decide +kernel)
    have hnop (n : Nat) (hn : activityAt (fun _ => eiDi) n ≠ .execute .ei)
        (hs : activityAt (fun _ => eiDi) (n + 1) = .execute .nop) :
        ¬ Enables (fun _ => eiDi) (n + 1) := by
      simp [Enables, hn, hs]
    refine ⟨hdisables, hstay 1 hdisables 2 fun j hj hj' => ?_⟩
    obtain rfl | rfl : j = 2 ∨ j = 3 := by omega
    · exact hnop 1 (by decide +kernel) (by decide +kernel)
    · exact hnop 2 (by decide +kernel) (by decide +kernel)

end Cpu

end DotMatrix
