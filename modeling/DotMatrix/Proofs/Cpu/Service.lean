import DotMatrix.Proofs.Cpu.Dispatch
import DotMatrix.Proofs.FlatMemory
import Mathlib.Logic.Function.Iterate

namespace DotMatrix.Cpu

section

variable {β : Type} [Bus β]

def activities : (count : Nat) → Cpu → β → List Activity
  | 0, _, _ => []
  | count + 1, cpu, bus =>
    cpu.activity bus :: activities count (cpu.after bus) (cpu.step.run bus).2

theorem run_steps_succ (count : Nat) (cpu : Cpu) (bus : β) :
    let rest := (steps count (cpu.after bus)).run (cpu.step.run bus).2
    (steps (count + 1) cpu).run bus = ((cpu.outcome bus :: rest.1.1, rest.1.2), rest.2) := by
  simp [steps, outcome, after]

theorem setIn_pendingOn_eq_nil_iff {bus : β} :
    Interrupt.setIn (Interrupt.pendingOn bus) = [] ↔ Interrupt.pendingOn bus = 0 := by
  rw [← first?_pendingOn_eq_none_iff, ← Interrupt.head?_setIn, List.head?_eq_none_iff]

end

/-- Interrupts are on, and the handler of each pending source does nothing but return. The stack
keeps away from these handlers and from the registers of the interrupts. -/
structure Serviceable (cpu : Cpu) (m : Memory) : Prop where
  locked : cpu.locked = none
  stopped : cpu.stopped = false
  haltBug : cpu.haltBug = false
  ime : cpu.ime
  handler : ∀ i : Interrupt, Interrupt.pendingOn m &&& i.mask ≠ 0 → m.read i.vector = 0xD9
  stack : ∀ addr, addr = cpu.regs.sp - 1 ∨ addr = cpu.regs.sp - 2 →
    addr ≠ Interrupt.requestAddr ∧ addr ≠ Interrupt.enableAddr ∧
      ∀ i : Interrupt, Interrupt.pendingOn m &&& i.mask ≠ 0 → addr ≠ i.vector

def entered (cpu : Cpu) (i : Interrupt) : Cpu :=
  { cpu.dispatched i with cycles := cpu.cycles + 20 }

def stacked (cpu : Cpu) (m : Memory) (i : Interrupt) : Memory :=
  Bus.writeAll m (cpu.dispatchWrites m i)

def returned (cpu : Cpu) : Cpu :=
  { cpu with
    ime := true
    halted := false
    eiPending := false
    eiDelay := false
    cycles := cpu.cycles + 36
    lastOpcode := 0x00D9 }

theorem iterate_returned (n : Nat) (cpu : Cpu) :
    returned^[n + 1] cpu =
      { cpu.returned with cycles := cpu.cycles + .ofNat (36 * (n + 1)) } := by
  induction n generalizing cpu with
  | zero => rfl
  | succ n ih =>
    have hcycles : cpu.cycles + 36 + .ofNat (36 * (n + 1)) =
        cpu.cycles + .ofNat (36 * (n + 1 + 1)) := by
      rw [UInt64.add_assoc, Nat.mul_succ 36 (n + 1), UInt64.ofNat_add, UInt64.add_comm 36]
      rfl
    rw [Function.iterate_succ_apply, ih]
    simp only [returned, hcycles]

theorem read_stacked (cpu : Cpu) (m : Memory) (i : Interrupt) (addr : UInt16) :
    (cpu.stacked m i).read addr =
      if addr = cpu.regs.sp - 2 then Word.low cpu.returnAddr
      else if addr = cpu.regs.sp - 1 then Word.high cpu.returnAddr
      else if addr = Interrupt.requestAddr then m.read addr &&& ~~~i.mask
      else m.read addr := by
  simp only [stacked, dispatchWrites, Bus.writeAll, List.foldl_cons, List.foldl_nil,
    Memory.bus_write, Memory.bus_read, Memory.read_write, eq_comm (b := addr)]
  by_cases h : addr = Interrupt.requestAddr <;> simp [h]

namespace Serviceable

variable {cpu : Cpu} {m : Memory} {i : Interrupt}

theorem read_requestAddr_stacked (h : cpu.Serviceable m) :
    (cpu.stacked m i).read Interrupt.requestAddr =
      m.read Interrupt.requestAddr &&& ~~~i.mask := by
  have hhigh := (h.stack _ (.inl rfl)).1
  have hlow := (h.stack _ (.inr rfl)).1
  rw [read_stacked, if_neg hlow.symm, if_neg hhigh.symm, if_pos rfl]

theorem read_enableAddr_stacked (h : cpu.Serviceable m) :
    (cpu.stacked m i).read Interrupt.enableAddr = m.read Interrupt.enableAddr := by
  have hhigh := (h.stack _ (.inl rfl)).2.1
  have hlow := (h.stack _ (.inr rfl)).2.1
  rw [read_stacked, if_neg hlow.symm, if_neg hhigh.symm, if_neg (by decide)]

theorem pendingOn_stacked (h : cpu.Serviceable m) :
    Interrupt.pendingOn (cpu.stacked m i) = Interrupt.pendingOn m &&& ~~~i.mask := by
  simp only [Interrupt.pendingOn, Interrupt.sources, Memory.bus_read, h.read_enableAddr_stacked,
    h.read_requestAddr_stacked]
  ac_rfl

theorem read_vector_stacked (h : cpu.Serviceable m) (hi : Interrupt.pendingOn m &&& i.mask ≠ 0)
    (j : Interrupt) : (cpu.stacked m j).read i.vector = 0xD9 := by
  have hhigh := (h.stack _ (.inl rfl)).2.2 i hi
  have hlow := (h.stack _ (.inr rfl)).2.2 i hi
  have hrequest : i.vector ≠ Interrupt.requestAddr := by cases i <;> decide
  rw [read_stacked, if_neg hlow.symm, if_neg hhigh.symm, if_neg hrequest, h.handler i hi]

theorem combine_stacked (h : cpu.Serviceable m) :
    Word.combine ((cpu.stacked m i).read (cpu.regs.sp - 2))
      ((cpu.stacked m i).read (cpu.regs.sp - 2 + 1)) = cpu.regs.pc := by
  have hhigh : cpu.regs.sp - 2 + 1 = cpu.regs.sp - 1 := by grind
  have hne : cpu.regs.sp - 1 ≠ cpu.regs.sp - 2 := by grind
  simp [hhigh, hne, read_stacked, returnAddr, h.haltBug]

theorem activity_dispatch (h : cpu.Serviceable m)
    (hfirst : Interrupt.first? (Interrupt.pendingOn m) = some i) :
    cpu.activity m = .dispatch i :=
  activity_eq_dispatch_iff.2 ⟨h.locked, h.stopped, by rw [dueOn, if_pos h.ime, hfirst]⟩

theorem activity_entered (h : cpu.Serviceable m) (hi : Interrupt.pendingOn m &&& i.mask ≠ 0) :
    (cpu.entered i).activity (cpu.stacked m i) = .execute .reti := by
  refine activity_eq_execute_iff.2 ⟨⟨h.locked, h.stopped, rfl, fun hh => Bool.noConfusion hh⟩, ?_⟩
  have hvector : (cpu.entered i).regs.pc = i.vector := rfl
  rw [hvector, Memory.bus_read, h.read_vector_stacked hi]
  rfl

theorem run_step_entered (h : cpu.Serviceable m) (hi : Interrupt.pendingOn m &&& i.mask ≠ 0) :
    (cpu.entered i).step.run (cpu.stacked m i) = ((.ok 16, cpu.returned), cpu.stacked m i) := by
  have hvector : (cpu.entered i).regs.pc = i.vector := rfl
  have hcycles : cpu.cycles + 20 + 16 = cpu.cycles + 36 := UInt64.add_assoc _ _ _
  rw [run_step_of_execute (h.activity_entered hi), hvector, Memory.bus_read,
    h.read_vector_stacked hi i]
  simp [execute, ret, entered, dispatched, fetched, returned, advanceEi, jump, h.combine_stacked,
    hcycles, h.haltBug]

theorem returned (h : cpu.Serviceable m) : cpu.returned.Serviceable (cpu.stacked m i) := by
  have still {j : Interrupt} (hj : Interrupt.pendingOn (cpu.stacked m i) &&& j.mask ≠ 0) :
      Interrupt.pendingOn m &&& j.mask ≠ 0 := by
    rw [h.pendingOn_stacked] at hj
    by_cases hij : i = j
    · simp [hij, UInt8.and_assoc] at hj
    · rwa [Interrupt.and_not_mask_and hij] at hj
  refine ⟨h.locked, h.stopped, h.haltBug, rfl, fun j hj => h.read_vector_stacked (still hj) i, ?_⟩
  intro addr haddr
  obtain ⟨hrequest, henable, hvector⟩ := h.stack addr haddr
  exact ⟨hrequest, henable, fun j hj => hvector j (still hj)⟩

theorem run_steps_add_two (h : cpu.Serviceable m)
    (hfirst : Interrupt.first? (Interrupt.pendingOn m) = some i) (count : Nat) :
    let rest := (steps count cpu.returned).run (cpu.stacked m i)
    (steps (count + 2) cpu).run m = ((.ok 20 :: .ok 16 :: rest.1.1, rest.1.2), rest.2) ∧
      activities (count + 2) cpu m =
        .dispatch i :: .execute .reti :: activities count cpu.returned (cpu.stacked m i) := by
  have hi := (Interrupt.first?_eq_some_iff.1 hfirst).1
  have hdispatch : cpu.step.run m = ((.ok 20, cpu.entered i), cpu.stacked m i) :=
    run_step_of_dispatch (h.activity_dispatch hfirst)
  have hreturn := h.run_step_entered hi
  constructor
  · simp [run_steps_succ, after, outcome, hdispatch, hreturn]
  · simp [activities, after, hdispatch, hreturn, h.activity_dispatch hfirst, h.activity_entered hi]

end Serviceable

structure Services (cpu : Cpu) (m : Memory) (served : List Interrupt) : Prop where
  activities : activities (2 * served.length) cpu m =
    served.flatMap fun i => [.dispatch i, .execute .reti]
  outcomes : ((steps (2 * served.length) cpu).run m).1.1 =
    served.flatMap fun _ => [.ok 20, .ok 16]
  after : ((steps (2 * served.length) cpu).run m).1.2 = returned^[served.length] cpu
  requests : ((steps (2 * served.length) cpu).run m).2.read Interrupt.requestAddr =
    m.read Interrupt.requestAddr &&& ~~~Interrupt.pendingOn m
  frame : ∀ addr, addr ≠ Interrupt.requestAddr → addr ≠ cpu.regs.sp - 1 →
    addr ≠ cpu.regs.sp - 2 → ((steps (2 * served.length) cpu).run m).2.read addr = m.read addr

theorem services_of_setIn_eq {served : List Interrupt} {cpu : Cpu} {m : Memory}
    (h : cpu.Serviceable m) (hserved : Interrupt.setIn (Interrupt.pendingOn m) = served) :
    cpu.Services m served := by
  -- On the sources that are left: a round of two steps leaves the rest, and `Serviceable` holds on.
  induction served generalizing cpu m with
  | nil =>
    refine ⟨rfl, rfl, rfl, ?_, fun _ _ _ _ => rfl⟩
    rw [setIn_pendingOn_eq_nil_iff.1 hserved]
    exact UInt8.and_neg_one.symm
  | cons i rest ih =>
    have hfirst : Interrupt.first? (Interrupt.pendingOn m) = some i := by
      rw [← Interrupt.head?_setIn, hserved]
      rfl
    have hi := (Interrupt.first?_eq_some_iff.1 hfirst).1
    have hrest : Interrupt.setIn (Interrupt.pendingOn (cpu.stacked m i)) = rest := by
      rw [h.pendingOn_stacked]
      exact (List.cons.inj ((Interrupt.setIn_eq_cons hfirst).symm.trans hserved)).2
    obtain ⟨hactivities, houtcomes, hafter, hrequests, hframe⟩ := ih h.returned hrest
    obtain ⟨hrun, htwo⟩ := h.run_steps_add_two hfirst (2 * rest.length)
    refine ⟨?_, ?_, ?_, ?_, ?_⟩ <;> rw [List.length_cons, Nat.mul_succ]
    · rw [htwo, hactivities]
      rfl
    · rw [hrun, houtcomes]
      rfl
    · rw [hrun]
      exact hafter
    · rw [hrun, hrequests, h.read_requestAddr_stacked, h.pendingOn_stacked,
        Interrupt.and_not_mask_and_not hi]
    · intro addr hrequest hhigh hlow
      rw [hrun]
      refine (hframe addr hrequest hhigh hlow).trans ?_
      rw [read_stacked, if_neg hlow, if_neg hhigh, if_neg hrequest]

/-- All that is pending is served, each source once and the first of them first. The program finds
its registers as they were, and in memory only the requests and the two bytes below its stack may
have changed. -/
theorem service_is_transparent {cpu : Cpu} {m : Memory} (h : cpu.Serviceable m)
    (hpending : Interrupt.pendingOn m ≠ 0) :
    let served := Interrupt.setIn (Interrupt.pendingOn m)
    let final := (steps (2 * served.length) cpu).run m
    (∀ i : Interrupt, i ∈ served ↔ Interrupt.pendingOn m &&& i.mask ≠ 0) ∧
      served.Pairwise (·.index < ·.index) ∧
      activities (2 * served.length) cpu m =
        (served.flatMap fun i => [.dispatch i, .execute .reti]) ∧
      final.1.1 = (served.flatMap fun _ => [.ok 20, .ok 16]) ∧
      final.1.2 =
        { cpu with
          ime := true
          halted := false
          eiPending := false
          eiDelay := false
          cycles := cpu.cycles + .ofNat (36 * served.length)
          lastOpcode := 0x00D9 } ∧
      final.2.read Interrupt.requestAddr =
        m.read Interrupt.requestAddr &&& ~~~Interrupt.pendingOn m ∧
      ∀ addr, addr ≠ Interrupt.requestAddr → addr ≠ cpu.regs.sp - 1 → addr ≠ cpu.regs.sp - 2 →
        final.2.read addr = m.read addr := by
  intro served final
  obtain ⟨hactivities, houtcomes, hafter, hrequests, hframe⟩ := services_of_setIn_eq h rfl
  refine ⟨fun i => Interrupt.mem_setIn, Interrupt.pairwise_setIn, hactivities, houtcomes, ?_,
    hrequests, hframe⟩
  -- There is something to serve, and coming back from it ends any sleep.
  obtain ⟨n, hn⟩ : ∃ n, served.length = n + 1 := by
    refine Nat.exists_eq_succ_of_ne_zero fun hzero => hpending ?_
    exact setIn_pendingOn_eq_nil_iff.1 (List.eq_nil_of_length_eq_zero hzero)
  rw [hafter, hn]
  exact iterate_returned n cpu

def threeHandlers : Memory :=
  Memory.zero.writeAll [(0x0040, 0xD9), (0x0050, 0xD9), (0x0060, 0xD9), (0xFF0F, 0xFD),
    (0xFFFF, 0x15)]

def asleepWithIme : Cpu := { powerOnWithIme with halted := true, eiDelay := true }

theorem three_handlers_return :
    asleepWithIme.Serviceable threeHandlers ∧ Interrupt.pendingOn threeHandlers ≠ 0 ∧
      activities 6 asleepWithIme threeHandlers =
        [.dispatch .vblank, .execute .reti, .dispatch .timer, .execute .reti, .dispatch .joypad,
          .execute .reti] ∧
      ((steps 6 asleepWithIme).run threeHandlers).1.2 =
        { powerOnWithIme with cycles := 108, lastOpcode := 0x00D9 } ∧
      ((steps 6 asleepWithIme).run threeHandlers).2.read Interrupt.requestAddr = 0xE8 := by
  have hread (addr : UInt16) : threeHandlers.read addr =
      if 0xFFFF = addr then 0x15 else if 0xFF0F = addr then 0xFD else if 0x0060 = addr then 0xD9
      else if 0x0050 = addr then 0xD9 else if 0x0040 = addr then 0xD9 else 0 := by
    simp [threeHandlers, Memory.writeAll, Memory.read_write]
  have hpending : Interrupt.pendingOn threeHandlers = 0x15 := by
    simp only [Interrupt.pendingOn, Memory.bus_read, hread]
    decide
  have hne : Interrupt.pendingOn threeHandlers ≠ 0 := by
    rw [hpending]
    decide
  have h : asleepWithIme.Serviceable threeHandlers := by
    refine ⟨rfl, rfl, rfl, rfl, ?_, ?_⟩
    · simp only [hpending, hread]
      intro i
      cases i <;> decide
    · rw [hpending]
      rintro addr (rfl | rfl) <;> refine ⟨by decide, by decide, fun i => ?_⟩ <;>
        cases i <;> decide
  have hserved : Interrupt.setIn (Interrupt.pendingOn threeHandlers) =
      [.vblank, .timer, .joypad] := by
    rw [hpending]
    decide
  obtain ⟨-, -, hactivities, -, hafter, hrequests, -⟩ := service_is_transparent h hne
  have htwice : 2 * [Interrupt.vblank, .timer, .joypad].length = 6 := rfl
  rw [hserved, htwice] at hactivities hafter hrequests
  refine ⟨h, hne, hactivities, hafter.trans (by decide +kernel), hrequests.trans ?_⟩
  rw [hpending, hread]
  decide

end DotMatrix.Cpu
