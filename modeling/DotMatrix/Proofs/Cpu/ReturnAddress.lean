import DotMatrix.Proofs.Cpu.InterruptEnable
import DotMatrix.Proofs.Cpu.Timing

namespace DotMatrix

theorem Latches.Sound.haltBug_eq_false {l : Latches} (h : l.Sound)
    (hmode : l.halted ∨ l.stopped ∨ l.hung) : l.haltBug = false := by
  have hone := h.one_mode
  refine Bool.eq_false_iff.2 fun hbug => ?_
  rcases hmode with hm | hm | hm <;> simp only [hm, hbug, Bool.toNat_true] at hone <;> omega

namespace Cpu

variable {β : Type} [Bus β] {cpu : Cpu} {bus : β}

theorem haltBug_after (h : cpu.latches.Sound) :
    (cpu.after bus).haltBug ↔
      cpu.activity bus = .execute .halt ∧ cpu.ime = false ∧ Interrupt.pendingOn bus ≠ 0 := by
  have hlatch : (cpu.after bus).haltBug = (cpu.after bus).latches.haltBug := rfl
  rw [hlatch, latches_after]
  cases ha : cpu.activity bus with
  | hung e =>
    have hhung : cpu.latches.hung := by simp [latches, activity_eq_hung_iff.1 ha]
    simp [h.haltBug_eq_false (.inr (.inr hhung))]
  | stopped =>
    have hstopped : cpu.latches.stopped := (activity_eq_stopped_iff.1 ha).2
    simp [h.haltBug_eq_false (.inr (.inl hstopped))]
  | dispatch i => simp [Latches.dispatched]
  | asleep =>
    have hhalted : cpu.latches.halted := (activity_eq_asleep_iff.1 ha).2.2.2.1
    simp [h.haltBug_eq_false (.inl hhalted)]
  | execute i => simp [Latches.run_eq, latches, and_assoc]
  | hang opcode => simp [Latches.fetched]

def Trips (buses : Nat → β) (n : Nat) : Prop :=
  activityAt buses n = .execute .halt ∧ (trajectory buses n).ime = false ∧
    Interrupt.pendingOn (buses n) ≠ 0

def Pushes (cpu : Cpu) (bus : β) (w : UInt16) : Prop :=
  ∃ requested, cpu.step.writes bus =
    [(Interrupt.requestAddr, requested), (cpu.regs.sp - 1, Word.high w),
      (cpu.regs.sp - 2, Word.low w)]

variable (buses : Nat → β) {n : Nat}

theorem haltBug_trajectory :
    (trajectory buses n).haltBug ↔ ∃ m, n = m + 1 ∧ Trips buses m := by
  cases n with
  | zero => simp [trajectory, powerOn]
  | succ m => exact (haltBug_after (sound_trajectory buses m)).trans (by simp [Trips, activityAt])

theorem ei_before_halt {m : Nat} (hhalt : activityAt buses m = .execute .halt)
    (hclear : (trajectory buses m).ime = false) (hset : (trajectory buses (m + 1)).ime) :
    ∃ k, m = k + 1 ∧ activityAt buses k = .execute .ei := by
  rcases (enables_iff buses m hclear).1 hset with hreti | ⟨hei, -⟩
  · simp [hhalt] at hreti
  · exact hei

theorem haltBug_of_ei {k : Nat} (h : activityAt buses k = .execute .ei) :
    (trajectory buses (k + 1)).haltBug = false := by
  refine Bool.eq_false_iff.2 fun hbug => ?_
  obtain ⟨m, hm, hhalt, -⟩ := (haltBug_trajectory buses).1 hbug
  obtain rfl := Nat.succ.inj hm
  simp [h] at hhalt

theorem pc_after_halt (h : cpu.activity bus = .execute .halt) (hbug : cpu.haltBug = false) :
    (cpu.after bus).regs.pc = cpu.regs.pc + 1 := by
  rw [pc_after h hbug rfl, Instruction.length_eq]
  rfl

theorem returnAddr_after_halt (h : cpu.activity bus = .execute .halt)
    (hbug : cpu.haltBug = false) (harmed : (cpu.after bus).haltBug) :
    (cpu.after bus).returnAddr = cpu.regs.pc := by
  rw [returnAddr, if_pos harmed, pc_after_halt h hbug, UInt16.add_sub_cancel]

theorem pushes_returnAddr {i : Interrupt} (h : cpu.activity bus = .dispatch i) :
    cpu.Pushes bus cpu.returnAddr := by
  refine ⟨Bus.read bus Interrupt.requestAddr &&& ~~~i.mask, ?_⟩
  rw [writes_step, h]
  rfl

theorem locked_after_of_execute {i : Instruction} (h : cpu.activity bus = .execute i) :
    (cpu.after bus).locked = none := by
  rw [locked_after, h]
  exact (activity_eq_execute_iff.1 h).1.1

theorem stopped_after_of_execute {i : Instruction} (h : cpu.activity bus = .execute i) :
    (cpu.after bus).stopped = decide (i = .stop) := by
  have hlatch : (cpu.after bus).stopped = (cpu.after bus).latches.stopped := rfl
  have hbefore : cpu.latches.stopped = false := (activity_eq_execute_iff.1 h).1.2.1
  simp [hlatch, latches_after, h, Latches.run_eq, hbefore]

theorem dispatch_after_ei_halt {k : Nat} (hei : activityAt buses k = .execute .ei)
    (htrips : Trips buses (k + 1)) (hpending : Interrupt.pendingOn (buses (k + 2)) ≠ 0) :
    ∃ i, activityAt buses (k + 2) = .dispatch i := by
  obtain ⟨hhalt, hclear, -⟩ := htrips
  have hset : (trajectory buses (k + 2)).ime := by
    refine (enables_iff buses (k + 1) hclear).2 (.inr ⟨⟨k, rfl, hei⟩, .halt, ?_, hhalt⟩)
    simp
  exact (exists_dispatch_iff (locked_after_of_execute hhalt) (stopped_after_of_execute hhalt)).2
    ⟨hset, hpending⟩

/-- A dispatch pushes the address of the next instruction, unless the step before was a halt that
could not sleep. That halt follows a request and was itself fetched in the ordinary way, and the
dispatch pushes its address. -/
theorem return_address_of_dispatch {i : Interrupt} (h : activityAt buses n = .dispatch i) :
    ((trajectory buses n).haltBug ↔ ∃ m, n = m + 1 ∧ Trips buses m) ∧
    (∀ m, n = m + 1 → Trips buses m →
      (∃ k, m = k + 1 ∧ activityAt buses k = .execute .ei) ∧
        (trajectory buses m).haltBug = false ∧
        (trajectory buses n).Pushes (buses n) (trajectory buses m).regs.pc) ∧
    ((¬ ∃ m, n = m + 1 ∧ Trips buses m) →
      (trajectory buses n).Pushes (buses n) (trajectory buses n).regs.pc) := by
  have hpush := pushes_returnAddr h
  have hset : (trajectory buses n).ime := by
    obtain ⟨-, -, hdue⟩ := activity_eq_dispatch_iff.1 h
    grind [dueOn]
  refine ⟨haltBug_trajectory buses, ?_, ?_⟩
  · rintro m rfl htrips
    have hbug : (trajectory buses (m + 1)).haltBug :=
      (haltBug_trajectory buses).2 ⟨m, rfl, htrips⟩
    obtain ⟨hhalt, hclear, -⟩ := htrips
    -- The halt began with `ime` clear, and now it is set: only a request just before can do that.
    obtain ⟨k, rfl, hei⟩ := ei_before_halt buses hhalt hclear hset
    have hplain := haltBug_of_ei buses hei
    exact ⟨⟨k, rfl, hei⟩, hplain, returnAddr_after_halt hhalt hplain hbug ▸ hpush⟩
  · intro hnot
    have hbug : ¬ (trajectory buses n).haltBug :=
      fun hbug => hnot ((haltBug_trajectory buses).1 hbug)
    have hreturn : (trajectory buses n).returnAddr = (trajectory buses n).regs.pc := if_neg hbug
    exact hreturn ▸ hpush

def eiHalt : Memory :=
  Memory.zero.writeAll [(0x0100, 0xFB), (0x0101, 0x76), (0xFF0F, 0x01), (0xFFFF, 0x01)]

theorem return_to_halt_after_ei :
    Trips (fun _ => eiHalt) 1 ∧
      ∃ i, activityAt (fun _ => eiHalt) 2 = .dispatch i ∧
        (trajectory (fun _ => eiHalt) 2).Pushes eiHalt 0x0101 := by
  have hpending : Interrupt.pendingOn eiHalt = 0x01 := by
    simp only [Interrupt.pendingOn, eiHalt, Memory.writeAll, List.foldl_cons, List.foldl_nil,
      Memory.bus_read, Memory.read_write, Memory.read_zero]
    decide
  have hne : Interrupt.pendingOn eiHalt ≠ 0 := by
    rw [hpending]
    decide
  have hei : activityAt (fun _ => eiHalt) 0 = .execute .ei := by decide +kernel
  have htrips : Trips (fun _ => eiHalt) 1 := ⟨by decide +kernel, by decide +kernel, hne⟩
  obtain ⟨i, hdispatch⟩ := dispatch_after_ei_halt (fun _ => eiHalt) hei htrips hne
  obtain ⟨-, hreturn, -⟩ := return_address_of_dispatch (fun _ => eiHalt) hdispatch
  have hpc : (trajectory (fun _ => eiHalt) 1).regs.pc = 0x0101 := by decide +kernel
  have hpush := (hreturn 1 rfl htrips).2.2
  rw [hpc] at hpush
  exact ⟨htrips, i, hdispatch, hpush⟩

end Cpu

end DotMatrix
