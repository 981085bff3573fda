import DotMatrix.Proofs.Cpu.Service
import DotMatrix.Proofs.Cpu.Timing

/-!
The halt bug. After a halt that cannot sleep the next opcode is fetched without moving on, so its
byte is read again: as the first operand of its instruction, or, if that has none, as the next
instruction. Such an instruction is carried out twice.
-/

namespace DotMatrix

namespace Cpu

def tripped (cpu : Cpu) : Cpu :=
  { cpu with
    regs.pc := if cpu.haltBug then cpu.regs.pc else cpu.regs.pc + 1
    haltBug := true
    lastOpcode := 0x76
    cycles := cpu.cycles + 4 }

variable {β : Type} [Bus β]

structure Stumbles (cpu : Cpu) (bus : β) : Prop where
  locked : cpu.locked = none
  stopped : cpu.stopped = false
  halted : cpu.halted = false
  ime : cpu.ime = false
  eiPending : cpu.eiPending = false
  eiDelay : cpu.eiDelay = false
  opcode : Bus.read bus cpu.regs.pc = 0x76
  pending : Interrupt.pendingOn bus ≠ 0

/-- The step carries out the instruction whose opcode is at the program counter, as if the operands
began with that opcode. -/
structure Rereads (cpu : Cpu) (bus : β) (i : Instruction) : Prop where
  run_eq : cpu.step.run bus =
    ({ cpu with
        haltBug := false
        lastOpcode := (Bus.read bus cpu.regs.pc).toUInt16 }.carryOut i).run bus
  traffic : ∃ data, cpu.step.trace bus =
    .read cpu.regs.pc (Bus.read bus cpu.regs.pc) ::
      (fetches bus cpu.regs.pc i.following ++ cpu.haltLook bus i ++ data)
  pc_next : cpu.takes i = false → (cpu.after bus).regs.pc = cpu.regs.pc + .ofNat i.following
  haltBug_iff : (cpu.after bus).haltBug ↔ i = .halt ∧ Interrupt.pendingOn bus ≠ 0

namespace Stumbles

variable {cpu : Cpu} {bus next : β}

theorem fetches (h : cpu.Stumbles bus) (next : β) : cpu.Fetches next :=
  ⟨h.locked, h.stopped, by simp [dueOn, h.ime], by simp [h.halted]⟩

theorem run_step (h : cpu.Stumbles bus) : cpu.step.run bus = ((.ok 4, cpu.tripped), bus) := by
  have ha : cpu.activity bus = .execute .halt :=
    activity_eq_execute_iff.2 ⟨h.fetches bus, by rw [h.opcode]; rfl⟩
  rw [run_step_of_execute ha, h.opcode]
  simp [execute, halt, fetched, advanceEi, tripped, h.halted, h.ime, h.eiPending, h.eiDelay,
    h.pending]

theorem again (h : cpu.Stumbles bus) (hopcode : Bus.read next cpu.tripped.regs.pc = 0x76)
    (hpending : Interrupt.pendingOn next ≠ 0) : cpu.tripped.Stumbles next :=
  ⟨h.locked, h.stopped, h.halted, h.ime, h.eiPending, h.eiDelay, hopcode, hpending⟩

theorem foldl_after (h : cpu.Stumbles bus) {nexts : List β}
    (hnexts : ∀ next ∈ nexts,
      Bus.read next cpu.tripped.regs.pc = 0x76 ∧ Interrupt.pendingOn next ≠ 0) :
    nexts.foldl after cpu.tripped = cpu.tripped.aged (4 * nexts.length) := by
  induction nexts generalizing cpu bus with
  | nil => exact cpu.tripped.aged_zero.symm
  | cons next rest ih =>
    obtain ⟨⟨hopcode, hpending⟩, hrest⟩ := List.forall_mem_cons.1 hnexts
    have hagain := h.again hopcode hpending
    have hstep : cpu.tripped.after next = cpu.tripped.tripped := by
      rw [after, hagain.run_step]
    have haged : cpu.tripped.tripped = cpu.tripped.aged 4 := rfl
    rw [List.foldl_cons, hstep, ih hagain hrest, haged, aged_aged, List.length_cons, Nat.mul_succ,
      Nat.add_comm]

theorem rereads (h : cpu.Stumbles bus) {i : Instruction}
    (hi : Instruction.decode (Bus.read next cpu.tripped.regs.pc) = some i) :
    cpu.tripped.Rereads next i := by
  have hhalted : cpu.tripped.halted = false := h.halted
  have hime : cpu.tripped.ime = false := h.ime
  have ha : cpu.tripped.activity next = .execute i :=
    activity_eq_execute_iff.2 ⟨h.fetches next, hi⟩
  let opcode := Bus.read next cpu.tripped.regs.pc
  have hfetched : cpu.tripped.fetched opcode =
      { cpu.tripped with haltBug := false, lastOpcode := opcode.toUInt16 } := by
    simp [fetched, tripped, h.halted]
  refine ⟨?_, ?_, fun htaken => ?_, ?_⟩
  · rw [run_step_eq_carryOut ha, hfetched]
  · obtain ⟨data, htrace⟩ := trace_execute (cpu.tripped.fetched opcode) next i
    have hlook : cpu.tripped.firstLook next = [] := by simp [firstLook, hime]
    rw [trace_step_of_execute ha hhalted, htrace, hlook]
    exact ⟨data, rfl⟩
  · rw [regs_after_of_execute ha, pc_execute _ next ((takes_fetched _).trans htaken)]
    rfl
  · change (cpu.tripped.after next).latches.haltBug ↔ _
    rw [latches_after, ha]
    simp [Latches.run_eq, latches, hime]

end Stumbles

def moved (cpu : Cpu) (pc lastOpcode : UInt16) (cycles : UInt64) : Cpu :=
  { cpu with regs.pc := pc, lastOpcode, cycles }

end Cpu

namespace Instruction

def isTransfer : Instruction → Bool
  | jr _ | jp _ | jpHl | call _ | ret _ | reti | rst _ => true
  | _ => false

/-- The instruction is a single byte, goes on to the instruction behind it and sets no latch. -/
structure Repeatable (i : Instruction) : Prop where
  length_eq : i.length = 1
  goes_on : i.isTransfer = false
  ne_halt : i ≠ .halt
  ne_ei : i ≠ .ei

namespace Repeatable

variable {β : Type} [Bus β] {i : Instruction}

theorem following_eq (h : i.Repeatable) : i.following = 0 := by
  have hlength := h.length_eq
  rw [Instruction.length_eq] at hlength
  omega

theorem run_moved (h : i.Repeatable) (cpu : Cpu) (pc lastOpcode : UInt16) (cycles : UInt64)
    (bus : β) :
    let r := (cpu.execute i).run bus
    ((cpu.moved pc lastOpcode cycles).execute i).run bus =
      ((r.1.1, r.1.2.moved pc lastOpcode cycles), r.2) := by
  have hfollowing := h.following_eq
  have hgoes := h.goes_on
  -- The program counter is no operand, which shows once the operands are known.
  cases i with
  | halt => exact absurd rfl h.ne_halt
  | load dst src =>
    cases dst with
    | reg r =>
      cases src with
      | reg r' => cases r <;> cases r' <;> rfl
      | atHL => cases r <;> rfl
    | atHL =>
      cases src with
      | reg r' => cases r' <;> rfl
      | atHL => rfl
  | inc o | dec o | alu _ o =>
    cases o with
    | reg r => cases r <;> rfl
    | atHL => rfl
  | storeA p | loadA p | incPair p | decPair p | addHl p | push p | pop p => cases p <;> rfl
  | _ => first | rfl | contradiction

theorem cost_eq (h : i.Repeatable) (cpu cpu' : Cpu) (bus bus' : β) :
    ((cpu.execute i).run bus).1.1 = ((cpu'.execute i).run bus').1.1 := by
  have hfollowing := h.following_eq
  have hgoes := h.goes_on
  cases i with
  | jr _ | jp _ | jpHl | call _ | ret _ | reti | rst _ | extended => contradiction
  | _ => simp [Cpu.execute]

theorem latches_execute (h : i.Repeatable) {cpu : Cpu}
    (hlatches : cpu.latches = Cpu.powerOn.latches) (bus : β) :
    ((cpu.execute i).run bus).1.2.latches = Cpu.powerOn.latches := by
  have hgoes := h.goes_on
  have hfollowing := h.following_eq
  rw [(Cpu.keeps_execute cpu bus i).latches_eq, hlatches]
  cases i with
  | halt => exact absurd rfl h.ne_halt
  | ei => exact absurd rfl h.ne_ei
  | stop | reti => contradiction
  | _ => rfl

theorem run_carryOut (h : i.Repeatable) {cpu : Cpu} (hlatches : cpu.latches = Cpu.powerOn.latches)
    (pc lastOpcode : UInt16) (cycles : UInt64) (bus : β) :
    let r := (cpu.execute i).run bus
    ((cpu.moved pc lastOpcode cycles).carryOut i).run bus =
      ((.ok r.1.1, r.1.2.moved pc lastOpcode (cycles + .ofNat r.1.1)), r.2) := by
  intro r
  have hafter : r.1.2.latches = Cpu.powerOn.latches := h.latches_execute hlatches bus
  have hpending : r.1.2.eiPending = false := congrArg Latches.eiPending hafter
  have hdelay : r.1.2.eiDelay = false := congrArg Latches.eiDelay hafter
  rw [Cpu.carryOut, Access.run_bind, h.run_moved]
  simp [Cpu.advanceEi, Cpu.moved, Cpu.spend, r, hpending, hdelay]

end Repeatable

end Instruction

namespace Cpu

variable {β : Type} [Bus β] {cpu : Cpu} {bus : β}

theorem Stumbles.latches_eq (h : cpu.Stumbles bus) (hbug : cpu.haltBug = false) :
    cpu.latches = powerOn.latches := by
  simp [latches, powerOn, h.ime, h.halted, h.stopped, hbug, h.eiPending, h.eiDelay, h.locked]

theorem run_step_moved (hlatches : cpu.latches = powerOn.latches) {pc : UInt16} {i : Instruction}
    (hi : Instruction.decode (Bus.read bus pc) = some i) (hrepeatable : i.Repeatable)
    (lastOpcode : UInt16) (cycles : UInt64) :
    let r := (cpu.execute i).run bus
    (cpu.moved pc lastOpcode cycles).step.run bus =
      ((.ok r.1.1, r.1.2.moved (pc + 1) (Bus.read bus pc).toUInt16 (cycles + .ofNat r.1.1)),
        r.2) := by
  have hmoved : (cpu.moved pc lastOpcode cycles).latches = powerOn.latches := hlatches
  have hhalted : cpu.halted = false := congrArg Latches.halted hlatches
  have hbug : cpu.haltBug = false := congrArg Latches.haltBug hlatches
  have ha : (cpu.moved pc lastOpcode cycles).activity bus = .execute i :=
    activity_eq_execute_iff.2 ⟨fetches_of_latches hmoved, hi⟩
  have hfetched : (cpu.moved pc lastOpcode cycles).fetched (Bus.read bus pc) =
      cpu.moved (pc + 1) (Bus.read bus pc).toUInt16 cycles := by
    simp [fetched, moved, hhalted, hbug]
  rw [run_step_eq_carryOut ha]
  exact (congrArg (fun c => (carryOut c i).run bus) hfetched).trans
    (hrepeatable.run_carryOut hlatches _ _ _ bus)

theorem Stumbles.steps_three (h : cpu.Stumbles bus) (hbug : cpu.haltBug = false) {i : Instruction}
    (hi : Instruction.decode (Bus.read bus (cpu.regs.pc + 1)) = some i) (hrepeatable : i.Repeatable)
    (hkept : Bus.read ((cpu.execute i).run bus).2 (cpu.regs.pc + 1) =
      Bus.read bus (cpu.regs.pc + 1)) :
    let once := (cpu.execute i).run bus
    let twice := (once.1.2.execute i).run once.2
    (steps 3 cpu).run bus =
      (([.ok 4, .ok once.1.1, .ok once.1.1],
        twice.1.2.moved (cpu.regs.pc + 2) (Bus.read bus (cpu.regs.pc + 1)).toUInt16
          (cpu.cycles + .ofNat (4 + 2 * once.1.1))), twice.2) := by
  intro once twice
  let opcode := (Bus.read bus (cpu.regs.pc + 1)).toUInt16
  have hpc : cpu.tripped.regs.pc = cpu.regs.pc + 1 := by simp [tripped, hbug]
  have hlatches := h.latches_eq hbug
  have hcost : twice.1.1 = once.1.1 := hrepeatable.cost_eq ..
  -- The second step leaves the program counter where it is, so the third finds the byte again.
  have hsecond : cpu.tripped.step.run bus =
      ((.ok once.1.1, once.1.2.moved (cpu.regs.pc + 1) opcode (cpu.cycles + 4 + .ofNat once.1.1)),
        once.2) := by
    have hstart : { cpu.tripped with haltBug := false, lastOpcode := opcode } =
        cpu.moved (cpu.regs.pc + 1) opcode (cpu.cycles + 4) := by
      simp [tripped, moved, hbug]
    rw [(h.rereads (hpc.symm ▸ hi)).run_eq, hpc, hstart]
    exact hrepeatable.run_carryOut hlatches ..
  have hthird : (once.1.2.moved (cpu.regs.pc + 1) opcode
        (cpu.cycles + 4 + .ofNat once.1.1)).step.run once.2 =
      ((.ok once.1.1, twice.1.2.moved (cpu.regs.pc + 2) opcode
        (cpu.cycles + .ofNat (4 + 2 * once.1.1))), twice.2) := by
    have hpcs : cpu.regs.pc + 1 + 1 = cpu.regs.pc + 2 := UInt16.add_assoc ..
    have hcycles : cpu.cycles + 4 + .ofNat once.1.1 + .ofNat once.1.1 =
        cpu.cycles + .ofNat (4 + 2 * once.1.1) := by
      simp only [Nat.two_mul, UInt64.ofNat_add, UInt64.add_assoc]
      rfl
    rw [run_step_moved (hrepeatable.latches_execute hlatches bus) (hkept.symm ▸ hi) hrepeatable,
      hkept, hcost, hpcs, hcycles]
  simp only [run_steps_succ, after, outcome, h.run_step, hsecond, hthird]
  rfl

/-- After a halt that could not sleep the next opcode stays at the program counter, so its byte is
the first operand as well. A further halt never gets past it while anything is pending, and an
instruction of one byte is carried out twice. -/
theorem halt_bug_repeats_byte (h : cpu.Stumbles bus) (hbug : cpu.haltBug = false) :
    let next := cpu.regs.pc + 1
    cpu.step.run bus = ((.ok 4, cpu.tripped), bus) ∧
      cpu.tripped.halted = false ∧ cpu.tripped.regs.pc = next ∧
      (∀ (bus' : β) (i : Instruction), Instruction.decode (Bus.read bus' next) = some i →
        cpu.tripped.Rereads bus' i ∧
          (cpu.takes i = false →
            (cpu.tripped.after bus').regs.pc = cpu.regs.pc + .ofNat i.length)) ∧
      (∀ buses : List β,
        (∀ bus' ∈ buses, Bus.read bus' next = 0x76 ∧ Interrupt.pendingOn bus' ≠ 0) →
          buses.foldl after cpu.tripped = cpu.tripped.aged (4 * buses.length)) ∧
      ∀ i : Instruction, Instruction.decode (Bus.read bus next) = some i → i.Repeatable →
        let once := (cpu.execute i).run bus
        let twice := (once.1.2.execute i).run once.2
        Bus.read once.2 next = Bus.read bus next →
          (steps 3 cpu).run bus =
            (([.ok 4, .ok once.1.1, .ok once.1.1],
              twice.1.2.moved (cpu.regs.pc + 2) (Bus.read bus next).toUInt16
                (cpu.cycles + .ofNat (4 + 2 * once.1.1))), twice.2) := by
  intro next
  have hpc : cpu.tripped.regs.pc = next := by simp [tripped, hbug, next]
  refine ⟨h.run_step, h.halted, hpc, fun bus' i hi => ?_, fun buses hbuses => ?_, ?_⟩
  · rw [← hpc] at hi
    have hrereads := h.rereads hi
    refine ⟨hrereads, fun htaken => ?_⟩
    rw [hrereads.pc_next htaken, hpc, add_length]
  · rw [← hpc] at hbuses
    exact h.foldl_after hbuses
  · exact fun i hi hrepeatable => h.steps_three hbug hi hrepeatable

def haltThen (opcode : UInt8) : Memory :=
  Memory.zero.writeAll [(0x0100, 0x76), (0x0101, opcode), (0xFF0F, 0x01), (0xFFFF, 0x01)]

theorem increment_carried_out_twice :
    let increment : Instruction := .inc (.reg .a)
    powerOn.Stumbles (haltThen 0x3C) ∧ powerOn.haltBug = false ∧ increment.Repeatable ∧
      powerOn.tripped.Rereads (haltThen 0x3C) increment ∧
      (List.replicate 2 (haltThen 0x76)).foldl after powerOn.tripped = powerOn.tripped.aged 8 ∧
      (steps 3 powerOn).run (haltThen 0x3C) =
        (([.ok 4, .ok 4, .ok 4],
          { powerOn with
            regs :=
              { powerOn.regs with a := 0x03, f := .ofBits false false false true, pc := 0x0102 }
            lastOpcode := 0x3C
            cycles := 12 }), haltThen 0x3C) := by
  intro increment
  have hread (opcode : UInt8) (addr : UInt16) : (haltThen opcode).read addr =
      if 0xFFFF = addr then 0x01 else if 0xFF0F = addr then 0x01
      else if 0x0101 = addr then opcode else if 0x0100 = addr then 0x76 else 0 := by
    simp [haltThen, Memory.writeAll, Memory.read_write]
  have hpending (opcode : UInt8) : Interrupt.pendingOn (haltThen opcode) ≠ 0 := by
    have henable : (haltThen opcode).read Interrupt.enableAddr = 0x01 := by
      simp [hread, Interrupt.enableAddr]
    have hrequest : (haltThen opcode).read Interrupt.requestAddr = 0x01 := by
      simp [hread, Interrupt.requestAddr]
    rw [Interrupt.pendingOn, Memory.bus_read, Memory.bus_read, henable, hrequest]
    decide
  have h : powerOn.Stumbles (haltThen 0x3C) :=
    ⟨rfl, rfl, rfl, rfl, rfl, rfl, by rw [Memory.bus_read, hread]; decide, hpending 0x3C⟩
  have hrepeatable : increment.Repeatable :=
    ⟨Instruction.length_eq _, rfl, Instruction.noConfusion, Instruction.noConfusion⟩
  have hi : Instruction.decode (Bus.read (haltThen 0x3C) 0x0101) = some increment := by
    rw [Memory.bus_read, hread]
    decide
  obtain ⟨-, -, -, hreads, hholds, htwice⟩ := halt_bug_repeats_byte h rfl
  have hhalt : Bus.read (haltThen 0x76) 0x0101 = 0x76 ∧
      Interrupt.pendingOn (haltThen 0x76) ≠ 0 := by
    refine ⟨?_, hpending 0x76⟩
    rw [Memory.bus_read, hread]
    decide
  have hhalts : ∀ m ∈ List.replicate 2 (haltThen 0x76),
      Bus.read m 0x0101 = 0x76 ∧ Interrupt.pendingOn m ≠ 0 :=
    fun m hm => List.eq_of_mem_replicate hm ▸ hhalt
  refine ⟨h, rfl, hrepeatable, (hreads _ _ hi).1, hholds _ hhalts, ?_⟩
  have honce : (powerOn.execute increment).run (haltThen 0x3C) =
      ((4, { powerOn with
        regs := { powerOn.regs with a := 0x02, f := .ofBits false false false true } }),
        haltThen 0x3C) := rfl
  rw [htwice increment hi hrepeatable rfl, Memory.bus_read, hread, honce]
  rfl

end Cpu

end DotMatrix
