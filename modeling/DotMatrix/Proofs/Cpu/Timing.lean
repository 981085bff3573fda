import DotMatrix.Proofs.Cpu.Dispatch
import DotMatrix.Proofs.Instruction.Length

/-!
What an instruction is charged for. Each byte that it fetches or moves costs four cycles, and so
does each moment in which it leaves the bus alone.
-/

namespace DotMatrix

namespace Instruction

def idle (taken : Bool) : Instruction → Nat
  | incPair _ | decPair _ | addHl _ | loadSpHl | loadHlSp | push _ | rst _ | ret none | reti => 1
  | jr _ | jp _ | call _ => if taken then 1 else 0
  | ret (some _) => if taken then 2 else 1
  | addSp => 2
  | _ => 0

section

variable (taken : Bool)

@[simp] theorem idle_halt : halt.idle taken = 0 := rfl

@[simp] theorem idle_extended : extended.idle taken = 0 := rfl

@[simp] theorem idle_jr (cond : Option Condition) :
    (jr cond).idle taken = if taken then 1 else 0 := rfl

@[simp] theorem idle_jp (cond : Option Condition) :
    (jp cond).idle taken = if taken then 1 else 0 := rfl

@[simp] theorem idle_call (cond : Option Condition) :
    (call cond).idle taken = if taken then 1 else 0 := rfl

@[simp] theorem idle_ret_some (cc : Condition) :
    (ret (some cc)).idle taken = if taken then 2 else 1 := rfl

end

@[simp] def padding : Instruction → Nat
  | stop => 1
  | _ => 0

def isCall : Instruction → Bool
  | call _ | rst _ => true
  | _ => false

theorem decode_ne_load_atHL (opcode : UInt8) : decode opcode ≠ some (load .atHL .atHL) := by
  obtain ⟨⟨n⟩⟩ := opcode
  revert n
  decide +kernel

end Instruction

namespace Cpu

@[simp] def takes (cpu : Cpu) : Instruction → Bool
  | .jr cond | .jp cond | .call cond | .ret cond => cpu.holds cond
  | .jpHl | .reti | .rst _ => true
  | _ => false

variable {β : Type} [Bus β]

@[simp] def fetches (bus : β) (addr : UInt16) : (count : Nat) → List Event
  | 0 => []
  | count + 1 => .read addr (Bus.read bus addr) :: fetches bus (addr + 1) count

def look (bus : β) : List Event :=
  [.read Interrupt.enableAddr (Bus.read bus Interrupt.enableAddr),
    .read Interrupt.requestAddr (Bus.read bus Interrupt.requestAddr)]

def firstLook (cpu : Cpu) (bus : β) : List Event := if cpu.ime then look bus else []

def haltLook (cpu : Cpu) (bus : β) (i : Instruction) : List Event :=
  if i = .halt ∧ cpu.ime = false then look bus else []

section

variable (cpu : Cpu) (bus : β)

@[simp] theorem length_fetches (addr : UInt16) (count : Nat) :
    (fetches bus addr count).length = count := by
  induction count generalizing addr with
  | zero => rfl
  | succ count ih => exact congrArg (· + 1) (ih (addr + 1))

@[simp] theorem haltLook_halt :
    cpu.haltLook bus .halt = if cpu.ime then [] else look bus := by
  cases h : cpu.ime <;> simp [haltLook, h]

@[simp] theorem haltLook_of_ne {i : Instruction} (h : i ≠ .halt) : cpu.haltLook bus i = [] := by
  simp [haltLook, h]

@[simp] theorem trace_pending : Interrupt.pending.trace bus = look bus := rfl

@[simp] theorem trace_imm8 : cpu.imm8.trace bus = fetches bus cpu.regs.pc 1 := rfl

@[simp] theorem trace_imm16 : cpu.imm16.trace bus = fetches bus cpu.regs.pc 2 := rfl

@[simp] theorem trace_push (value : UInt16) :
    (cpu.push value).trace bus =
      [.write (cpu.regs.sp - 1) (Word.high value), .write (cpu.regs.sp - 2) (Word.low value)] := rfl

@[simp] theorem trace_pop :
    cpu.pop.trace bus =
      [.read cpu.regs.sp (Bus.read bus cpu.regs.sp),
        .read (cpu.regs.sp + 1) (Bus.read bus (cpu.regs.sp + 1))] := rfl

@[simp] theorem trace_ret : cpu.ret.trace bus = cpu.pop.trace bus := rfl

@[simp] theorem trace_halt : cpu.halt.trace bus = if cpu.ime then [] else look bus := by
  cases h : cpu.ime <;> simp [halt, h]

@[simp] theorem trace_dueInterrupt : cpu.dueInterrupt.trace bus = cpu.firstLook bus := by
  unfold dueInterrupt firstLook
  split <;> rfl

theorem trace_execute (i : Instruction) :
    ∃ data, (cpu.execute i).trace bus =
      fetches bus cpu.regs.pc i.following ++ cpu.haltLook bus i ++ data := by
  cases i with
  | halt => exact ⟨[], by simp [execute, Instruction.following]⟩
  | ret cond => cases cond <;> exact ⟨_, rfl⟩
  | _ => exact ⟨_, rfl⟩

theorem trace_call {i : Instruction} (hcall : i.isCall) (htaken : cpu.takes i) :
    (cpu.execute i).trace bus =
      fetches bus cpu.regs.pc i.following ++
        [.write (cpu.regs.sp - 1) (Word.high (cpu.regs.pc + .ofNat i.following)),
          .write (cpu.regs.sp - 2) (Word.low (cpu.regs.pc + .ofNat i.following))] := by
  cases i with
  | call cond =>
    have hholds : cpu.holds cond := htaken
    simp [execute, call, hholds, Instruction.following, skip]
  | rst vector => simp [execute, Instruction.following]
  | _ => contradiction

theorem cost_executeExtended_eq (i : ExtendedInstruction) :
    ((cpu.executeExtended i).run bus).1.1 =
      4 * (2 + ((cpu.executeExtended i).trace bus).length) := by
  cases i with
  | shift op dst => cases dst <;> rfl
  | bit index src => cases src <;> rfl
  | res index dst => cases dst <;> rfl
  | set index dst => cases dst <;> rfl

theorem cost_execute_eq {i : Instruction} (hi : i ≠ .load .atHL .atHL) :
    ((cpu.execute i).run bus).1.1 + 4 * (i.padding + (cpu.haltLook bus i).length) =
      4 * (1 + ((cpu.execute i).trace bus).length + i.idle (cpu.takes i)) := by
  -- Only where an operand may lie in memory or a transfer may fail does the traffic vary.
  cases i with
  | halt => cases h : cpu.ime <;> simp [execute, h, look]
  | load dst src => cases dst <;> cases src <;> first | rfl | contradiction
  | loadImm dst | inc dst | dec dst => cases dst <;> rfl
  | alu op src => cases src <;> rfl
  | jr cond => cases h : cpu.holds cond <;> simp [execute, jumpRelative, h]
  | jp cond => cases h : cpu.holds cond <;> simp [execute, jumpAbsolute, h]
  | call cond => cases h : cpu.holds cond <;> simp [execute, call, h]
  | ret cond =>
    cases cond with
    | none => rfl
    | some cc => cases h : cpu.regs.holds cc <;> simp [execute, holds, h]
  | extended =>
    simp only [execute, Access.run_bind, Access.trace_bind, cost_executeExtended_eq]
    simp
    omega
  | _ => rfl

@[simp] theorem pc_writeOperand (dst : Operand) (value : UInt8) :
    ((cpu.writeOperand dst value).run bus).1.regs.pc = cpu.regs.pc := by
  cases dst <;> simp

@[simp] theorem pc_executeExtended (i : ExtendedInstruction) :
    ((cpu.executeExtended i).run bus).1.2.regs.pc = cpu.regs.pc := by
  cases i <;> simp [executeExtended]

theorem pc_execute {i : Instruction} (h : cpu.takes i = false) :
    ((cpu.execute i).run bus).1.2.regs.pc = cpu.regs.pc + .ofNat i.following := by
  cases i with
  | jr cond =>
    have hholds : cpu.holds cond = false := h
    simp [execute, jumpRelative, hholds, skip, Instruction.following]
  | jp cond =>
    have hholds : cpu.holds cond = false := h
    simp [execute, jumpAbsolute, hholds, skip, Instruction.following]
  | call cond =>
    have hholds : cpu.holds cond = false := h
    simp [execute, call, hholds, skip, Instruction.following]
  | ret cond =>
    cases cond with
    | none => contradiction
    | some cc =>
      have hholds : cpu.regs.holds cc = false := h
      simp [execute, hholds, Instruction.following]
  | jpHl | reti | rst vector => contradiction
  | _ => simp [execute, skip, alu, rotateA, daa, addHl, Instruction.following]

end

variable {cpu : Cpu} {bus : β} {i : Instruction}

theorem takes_fetched (opcode : UInt8) : (cpu.fetched opcode).takes i = cpu.takes i := by
  cases i <;> rfl

theorem haltLook_fetched (opcode : UInt8) :
    (cpu.fetched opcode).haltLook bus i = cpu.haltLook bus i := rfl

theorem pc_fetched (hbug : cpu.haltBug = false) (opcode : UInt8) :
    (cpu.fetched opcode).regs.pc = cpu.regs.pc + 1 := by
  simp [fetched, hbug]

theorem add_length (addr : UInt16) (i : Instruction) :
    addr + .ofNat i.length = addr + 1 + .ofNat i.following := by
  rw [Instruction.length_eq, UInt16.ofNat_add, UInt16.add_assoc]
  rfl

theorem fetches_length (addr : UInt16) (i : Instruction) :
    fetches bus addr i.length =
      .read addr (Bus.read bus addr) :: fetches bus (addr + 1) i.following := by
  rw [Instruction.length_eq, Nat.add_comm, fetches]

theorem trace_step_of_execute (ha : cpu.activity bus = .execute i) (hhalted : cpu.halted = false) :
    cpu.step.trace bus =
      cpu.firstLook bus ++ .read cpu.regs.pc (Bus.read bus cpu.regs.pc) ::
        ((cpu.fetched (Bus.read bus cpu.regs.pc)).execute i).trace bus := by
  obtain ⟨⟨hlocked, hstopped, hdue, -⟩, hi⟩ := activity_eq_execute_iff.1 ha
  cases hbug : cpu.haltBug <;>
    simp [step, advance, runInstruction, fetchOpcode, fetched, skip, hlocked, hstopped, hdue,
      hhalted, hi, hbug]

theorem pc_after (ha : cpu.activity bus = .execute i) (hbug : cpu.haltBug = false)
    (htaken : cpu.takes i = false) : (cpu.after bus).regs.pc = cpu.regs.pc + .ofNat i.length := by
  rw [regs_after_of_execute ha, pc_execute _ bus ((takes_fetched _).trans htaken),
    pc_fetched hbug, add_length]

/-- What an instruction does to the program counter, what passes over the bus, and what is charged
for it. Beside its own bytes and looks at the interrupts, data pass over the bus. -/
structure Accounts (cpu : Cpu) (bus : β) (i : Instruction) (data : List Event) : Prop where
  traffic : cpu.step.trace bus =
    cpu.firstLook bus ++ fetches bus cpu.regs.pc i.length ++ cpu.haltLook bus i ++ data
  pc_next : cpu.takes i = false → (cpu.after bus).regs.pc = cpu.regs.pc + .ofNat i.length
  return_addr : i.isCall → cpu.takes i →
    data =
      [.write (cpu.regs.sp - 1) (Word.high (cpu.regs.pc + .ofNat i.length)),
        .write (cpu.regs.sp - 2) (Word.low (cpu.regs.pc + .ofNat i.length))]
  cost : cpu.outcome bus =
    .ok (4 * (i.length - i.padding + data.length + i.idle (cpu.takes i)))

theorem padding_le (i : Instruction) : i.padding ≤ i.following := by
  cases i with
  | stop => exact Nat.le_refl 1
  | _ => exact Nat.zero_le _

/-- Length, traffic and cost of an instruction agree. -/
theorem length_and_cost_of_traffic (hlocked : cpu.locked = none) (hstopped : cpu.stopped = false)
    (hhalted : cpu.halted = false) (hdue : ¬ (cpu.ime ∧ Interrupt.pendingOn bus ≠ 0))
    (hbug : cpu.haltBug = false)
    (hi : Instruction.decode (Bus.read bus cpu.regs.pc) = some i) :
    ∃ data, cpu.Accounts bus i data := by
  have ha : cpu.activity bus = .execute i := by
    refine activity_eq_execute_iff.2 ⟨⟨hlocked, hstopped, dueOn_eq_none_iff.2 hdue, ?_⟩, hi⟩
    simp [hhalted]
  have hpc := pc_fetched hbug (Bus.read bus cpu.regs.pc)
  obtain ⟨data, htrace⟩ := trace_execute (cpu.fetched (Bus.read bus cpu.regs.pc)) bus i
  rw [haltLook_fetched, hpc] at htrace
  refine ⟨data, ?_, pc_after ha hbug, ?_, ?_⟩
  · rw [trace_step_of_execute ha hhalted, htrace, fetches_length]
    simp
  · -- Both forms of the traffic begin with the operand, so what is left of them agrees.
    intro hcall htaken
    have hne : i ≠ .halt := by rintro rfl; contradiction
    have hcalled := trace_call (cpu.fetched (Bus.read bus cpu.regs.pc)) bus hcall
      ((takes_fetched _).trans htaken)
    rw [htrace, hpc, haltLook_of_ne _ _ hne, List.append_nil, ← add_length] at hcalled
    exact List.append_cancel_left hcalled
  · have hne : i ≠ .load .atHL .atHL := by
      rintro rfl
      exact Instruction.decode_ne_load_atHL _ hi
    have hcost := cost_execute_eq (cpu.fetched (Bus.read bus cpu.regs.pc)) bus hne
    have hpadding := padding_le i
    rw [haltLook_fetched, takes_fetched, htrace] at hcost
    simp only [List.length_append, length_fetches] at hcost
    rw [outcome, run_step_of_execute ha, Instruction.length_eq]
    exact congrArg Except.ok (by omega)

def callAtEnd : Memory := Memory.zero.write 0xFFFE 0xCD

theorem accounts_of_call_at_end :
    ∃ data, (powerOn.jump 0xFFFE).Accounts callAtEnd (.call none) data ∧
      data = [.write 0xFFFD 0x00, .write 0xFFFC 0x01] ∧
      (powerOn.jump 0xFFFE).outcome callAtEnd = .ok 24 := by
  have hlength : (Instruction.call none).length = 3 := Instruction.length_eq _
  have hi : Instruction.decode (callAtEnd.read 0xFFFE) = some (.call none) := by
    rw [callAtEnd, Memory.read_write_self]
    rfl
  have hdue : ¬ ((powerOn.jump 0xFFFE).ime ∧ Interrupt.pendingOn callAtEnd ≠ 0) :=
    fun h => Bool.noConfusion h.1
  obtain ⟨data, h⟩ := length_and_cost_of_traffic rfl rfl rfl hdue rfl hi
  have hdata := h.return_addr rfl rfl
  have hcost := h.cost
  rw [hlength] at hdata hcost
  rw [hdata] at hcost
  exact ⟨data, h, hdata, hcost⟩

end Cpu

end DotMatrix
