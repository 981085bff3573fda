import DotMatrix.Proofs.Cpu.Service
import DotMatrix.Proofs.Cpu.Timing
import DotMatrix.Proofs.Instruction.Extended

namespace DotMatrix

def addressesFrom (addr : UInt16) : (count : Nat) → List UInt16
  | 0 => []
  | count + 1 => addr :: addressesFrom (addr + 1) count

namespace Memory

def Holds (m : Memory) (addr : UInt16) (bytes : List UInt8) : Prop :=
  (addressesFrom addr bytes.length).map m.read = bytes

instance (m : Memory) (addr : UInt16) (bytes : List UInt8) : Decidable (m.Holds addr bytes) :=
  inferInstanceAs (Decidable (_ = _))

theorem holds_cons {m : Memory} {addr : UInt16} {b : UInt8} {bytes : List UInt8} :
    m.Holds addr (b :: bytes) ↔ m.read addr = b ∧ m.Holds (addr + 1) bytes :=
  List.cons_eq_cons

theorem Holds.congr {m n : Memory} {addr : UInt16} {bytes : List UInt8} (h : m.Holds addr bytes)
    (hread : ∀ a ∈ addressesFrom addr bytes.length, n.read a = m.read a) : n.Holds addr bytes :=
  (List.map_congr_left hread).trans h

end Memory

namespace Registers

def operandOn (r : Registers) (m : Memory) : Operand → UInt8
  | .reg src => r.get src
  | .atHL => m.read r.hl

section

variable (r : Registers) (f : Flags) (pc : UInt16)

theorem get_with (src : Reg8) : { r with f, pc }.get src = r.get src := by
  cases src <;> rfl

theorem operandOn_with (m : Memory) (o : Operand) :
    { r with f, pc }.operandOn m o = r.operandOn m o := by
  cases o with
  | reg src => exact r.get_with f pc src
  | atHL => rfl

end

/-- A byte and flags take the place of an operand and the flags. The program counter moves on, and
all else stays. -/
structure Operates (r : Registers) (m : Memory) (o : Operand) (length : Nat) (made : UInt8 × Flags)
    (r' : Registers) (m' : Memory) : Prop where
  operand_eq : r'.operandOn m' o = made.1
  flags_eq : r'.f = made.2
  get_eq : ∀ src, o ≠ .reg src → r'.get src = r.get src
  sp_eq : r'.sp = r.sp
  pc_eq : r'.pc = r.pc + .ofNat length
  read_eq : ∀ addr, (o = .atHL → addr ≠ r.hl) → m'.read addr = m.read addr

namespace Operates

variable {r r' r'' : Registers} {m m' m'' : Memory} {o : Operand} {n n' : Nat}
  {made made' : UInt8 × Flags}

theorem hl_eq (h : r.Operates m o n made r' m') (ho : o = .atHL) : r'.hl = r.hl := by
  have hhigh : r'.h = r.h := h.get_eq .h (by simp [ho])
  have hlow : r'.l = r.l := h.get_eq .l (by simp [ho])
  rw [hl, hl, hhigh, hlow]

theorem trans (h : r.Operates m o n made r' m') (h' : r'.Operates m' o n' made' r'' m'') :
    r.Operates m o (n + n') made' r'' m'' where
  operand_eq := h'.operand_eq
  flags_eq := h'.flags_eq
  get_eq := fun src hsrc => (h'.get_eq src hsrc).trans (h.get_eq src hsrc)
  sp_eq := h'.sp_eq.trans h.sp_eq
  pc_eq := by rw [h'.pc_eq, h.pc_eq, UInt16.ofNat_add, UInt16.add_assoc]
  read_eq := by
    intro addr haddr
    refine (h'.read_eq addr fun ho => ?_).trans (h.read_eq addr haddr)
    rw [h.hl_eq ho]
    exact haddr ho

theorem of_fetched (h : { r with pc := r.pc + UInt16.ofNat n }.Operates m o n' made r' m') :
    r.Operates m o (n + n') made r' m' where
  operand_eq := h.operand_eq
  flags_eq := h.flags_eq
  get_eq := fun src hsrc => (h.get_eq src hsrc).trans (r.get_with r.f _ src)
  sp_eq := h.sp_eq
  pc_eq := by rw [h.pc_eq, UInt16.ofNat_add, UInt16.add_assoc]
  read_eq := h.read_eq

end Operates

end Registers

namespace Cpu

section

variable (cpu : Cpu) (m : Memory)

theorem operates_write (o : Operand) (made : UInt8 × Flags) :
    let r := (writeOperand { cpu with regs.f := made.2 } o made.1).run m
    cpu.regs.Operates m o 0 made r.1.regs r.2 := by
  cases o with
  | reg dst =>
    refine ⟨Registers.get_set_self .., ?_, ?_, ?_, ?_, fun _ _ => rfl⟩
    · cases dst <;> rfl
    · intro src hsrc
      rw [run_writeOperand_reg, Registers.get_set, if_neg fun h => hsrc (congrArg _ h)]
      cases src <;> rfl
    · cases dst <;> rfl
    · cases dst <;> simp
  | atHL =>
    refine ⟨Memory.read_write_self .., rfl, ?_, rfl, ?_, ?_⟩
    · intro src _
      cases src <;> rfl
    · simp
    · intro addr haddr
      exact (Memory.read_write ..).trans (if_neg (haddr rfl).symm)

theorem run_bit (index : UInt8) (src : Operand) :
    (cpu.executeExtended (.bit index src)).run m =
      ((costOf src 8 12,
        { cpu with
          regs.f := ((ExtendedInstruction.bit index src).perform
            (cpu.regs.operandOn m src) cpu.regs.f).2 }), m) := by
  cases src <;> rfl

theorem operates_executeExtended (i : ExtendedInstruction) :
    let r := (cpu.executeExtended i).run m
    let made := i.perform (cpu.regs.operandOn m i.operand) cpu.regs.f
    cpu.regs.Operates m i.operand 0 made r.1.2.regs r.2 := by
  cases i with
  | shift op dst => cases dst <;> exact cpu.operates_write m _ _
  | res index dst => cases dst <;> exact cpu.operates_write m _ _
  | set index dst => cases dst <;> exact cpu.operates_write m _ _
  | bit index src =>
    rw [run_bit]
    refine ⟨?_, rfl, ?_, rfl, ?_, fun _ _ => rfl⟩
    · exact cpu.regs.operandOn_with _ cpu.regs.pc m src
    · exact fun src _ => cpu.regs.get_with _ cpu.regs.pc src
    · simp

end

/-- Nothing keeps the processor from carrying out the next instruction in the ordinary way, and
nothing is left over from the one before. -/
structure Ready (cpu : Cpu) (m : Memory) : Prop where
  locked : cpu.locked = none
  stopped : cpu.stopped = false
  halted : cpu.halted = false
  haltBug : cpu.haltBug = false
  eiPending : cpu.eiPending = false
  eiDelay : cpu.eiDelay = false
  due : ¬ (cpu.ime ∧ Interrupt.pendingOn m ≠ 0)

section

variable {cpu : Cpu} {m : Memory}

theorem Ready.activity (h : cpu.Ready m) {i : Instruction}
    (hi : Instruction.decode (m.read cpu.regs.pc) = some i) : cpu.activity m = .execute i :=
  activity_eq_execute_iff.2
    ⟨⟨h.locked, h.stopped, dueOn_eq_none_iff.2 h.due, by simp [h.halted]⟩, hi⟩

theorem ready_of_latches (h : cpu.latches = powerOn.latches) : cpu.Ready m where
  locked := Option.not_isSome_iff_eq_none.1 (Bool.eq_false_iff.1 (congrArg Latches.hung h))
  stopped := congrArg Latches.stopped h
  halted := congrArg Latches.halted h
  haltBug := congrArg Latches.haltBug h
  eiPending := congrArg Latches.eiPending h
  eiDelay := congrArg Latches.eiDelay h
  due := fun hdue => Bool.noConfusion ((congrArg Latches.ime h).symm.trans hdue.1)

theorem Ready.latches_eq (h : cpu.Ready m) (hime : cpu.ime = false) :
    cpu.latches = powerOn.latches := by
  obtain ⟨hlocked, hstopped, hhalted, hbug, hpending, hdelay, -⟩ := h
  simp [latches, powerOn, *]

theorem Ready.latches_after_of_execute (h : cpu.Ready m) {i : Instruction}
    (ha : cpu.activity m = .execute i)
    (hi : ∀ (l : Latches) (pending : UInt8), l.execute pending i = l) :
    (cpu.after m).latches = cpu.latches := by
  rw [Cpu.latches_after, ha]
  simp [Latches.run, Latches.fetched, Latches.advanceEi, hi, latches, h.halted, h.haltBug,
    h.eiPending, h.eiDelay]

theorem exists_cost_of_execute {i : Instruction} (ha : cpu.activity m = .execute i) :
    ∃ cost, cpu.outcome m = .ok cost := by
  rw [outcome, run_step_of_execute ha]
  exact ⟨_, rfl⟩

variable (h : cpu.Ready m) (hpage : m.read cpu.regs.pc = 0xCB)

include h hpage

theorem Ready.extended :
    cpu.activity m = .execute .extended := h.activity (by rw [hpage]; rfl)

theorem Ready.latches_after : (cpu.after m).latches = cpu.latches :=
  h.latches_after_of_execute (h.extended hpage) fun _ _ => rfl

theorem Ready.exists_run :
    let i := ExtendedInstruction.decode (m.read (cpu.regs.pc + 1))
    ∃ start : Cpu, start.regs = { cpu.regs with pc := cpu.regs.pc + UInt16.ofNat 2 } ∧
      (cpu.after m).regs = ((start.executeExtended i).run m).1.2.regs ∧
      (cpu.step.run m).2 = ((start.executeExtended i).run m).2 := by
  intro i
  let start : Cpu :=
    { (cpu.fetched 0xCB).skip 1 with lastOpcode := 0xCB00 ||| (m.read (cpu.regs.pc + 1)).toUInt16 }
  have hpc := pc_fetched h.haltBug 0xCB
  have hrun : ((cpu.fetched (Bus.read m cpu.regs.pc)).execute .extended).run m =
      (start.executeExtended i).run m := by
    rw [Memory.bus_read, hpage, execute, Access.run_bind, run_imm8, hpc]
    rfl
  refine ⟨start, ?_, ?_, ?_⟩
  · simp only [start, skip, hpc, UInt16.add_assoc]
    rfl
  · rw [regs_after_of_execute (h.extended hpage), hrun]
  · rw [run_step_of_execute (h.extended hpage), hrun]

theorem Ready.operates :
    let i := ExtendedInstruction.decode (m.read (cpu.regs.pc + 1))
    let made := i.perform (cpu.regs.operandOn m i.operand) cpu.regs.f
    cpu.regs.Operates m i.operand 2 made (cpu.after m).regs (cpu.step.run m).2 := by
  intro i made
  obtain ⟨start, hstart, hregs, hmemory⟩ := h.exists_run hpage
  have hexecute := operates_executeExtended start m i
  rw [hstart, Registers.operandOn_with] at hexecute
  rw [hregs, hmemory]
  exact hexecute.of_fetched

theorem Ready.memory_of_bit {index : UInt8} {src : Operand}
    (hbit : ExtendedInstruction.decode (m.read (cpu.regs.pc + 1)) = .bit index src) :
    (cpu.step.run m).2 = m := by
  obtain ⟨start, -, -, hmemory⟩ := h.exists_run hpage
  rw [hmemory, hbit, run_bit]

end

structure CarriesOut (cpu : Cpu) (m : Memory) (i : ExtendedInstruction) : Prop where
  succeeds : ∃ cost, cpu.outcome m = .ok cost
  operates : ∃ result f, i.Performs (cpu.regs.operandOn m i.operand) cpu.regs.f result f ∧
    cpu.regs.Operates m i.operand 2 (result, f) (cpu.after m).regs (cpu.step.run m).2
  latches_eq : (cpu.after m).latches = cpu.latches
  memory_of_bit : ∀ index src, i = .bit index src → (cpu.step.run m).2 = m

theorem Ready.carriesOut {cpu : Cpu} {m : Memory} (h : cpu.Ready m)
    (hpage : m.read cpu.regs.pc = 0xCB) :
    cpu.CarriesOut m (.decode (m.read (cpu.regs.pc + 1))) where
  succeeds := exists_cost_of_execute (h.extended hpage)
  operates := ⟨_, _, ExtendedInstruction.performs_perform .., h.operates hpage⟩
  latches_eq := h.latches_after hpage
  memory_of_bit := fun _ _ => h.memory_of_bit hpage

open ExtendedInstruction

/-- The program lies in front of the processor, and the operand is no byte of it. -/
structure Faces (cpu : Cpu) (m : Memory) (o : Operand) (program : List ExtendedInstruction) :
    Prop where
  code : m.Holds cpu.regs.pc (encode program)
  apart : o = .atHL → cpu.regs.hl ∉ addressesFrom cpu.regs.pc (encode program).length

theorem run_program {o : Operand} {program : List ExtendedInstruction}
    (hprogram : ∀ i ∈ program, decode i.code = i ∧ i.operand = o) {cpu : Cpu} {m : Memory}
    (hlatches : cpu.latches = powerOn.latches) (hfaces : cpu.Faces m o program) :
    let final := (steps program.length cpu).run m
    let made := performAll program (cpu.regs.operandOn m o) cpu.regs.f
    (∀ outcome ∈ final.1.1, ∃ cost, outcome = .ok cost) ∧
      final.1.2.latches = powerOn.latches ∧
      cpu.regs.Operates m o (encode program).length made final.1.2.regs final.2 := by
  induction program generalizing cpu m with
  | nil =>
    refine ⟨nofun, hlatches, rfl, rfl, fun _ _ => rfl, rfl, ?_, fun _ _ => rfl⟩
    exact (UInt16.add_zero _).symm
  | cons i rest ih =>
    obtain ⟨⟨hdecode, rfl⟩, hrest⟩ := List.forall_mem_cons.1 hprogram
    obtain ⟨hcode, hapart⟩ := hfaces
    obtain ⟨hpage, hsecond⟩ := Memory.holds_cons.1 hcode
    obtain ⟨hi, hrestCode⟩ := Memory.holds_cons.1 hsecond
    have h : cpu.Ready m := ready_of_latches hlatches
    have hstep : cpu.regs.Operates m i.operand 2
        (i.perform (cpu.regs.operandOn m i.operand) cpu.regs.f) (cpu.after m).regs
        (cpu.step.run m).2 := by
      have hdecoded := h.operates hpage
      rwa [hi, hdecode] at hdecoded
    have hpc : (cpu.after m).regs.pc = cpu.regs.pc + 1 + 1 := by
      rw [hstep.pc_eq, UInt16.add_assoc]
      rfl
    -- The step writes to no byte of the program, so the rest of it is still there.
    have hfaces' : (cpu.after m).Faces (cpu.step.run m).2 i.operand rest := by
      constructor
      · rw [hpc]
        refine hrestCode.congr fun a ha => hstep.read_eq a fun ho hhl => hapart ho ?_
        exact hhl ▸ List.mem_cons_of_mem _ (List.mem_cons_of_mem _ ha)
      · intro ho hmem
        rw [hpc, hstep.hl_eq ho] at hmem
        exact hapart ho (List.mem_cons_of_mem _ (List.mem_cons_of_mem _ hmem))
    obtain ⟨houtcomes, hlast, hoperates⟩ :=
      ih hrest ((h.latches_after hpage).trans hlatches) hfaces'
    rw [hstep.operand_eq, hstep.flags_eq] at hoperates
    have hlength : (encode (i :: rest)).length = 2 + (encode rest).length := by
      rw [Nat.add_comm]
      rfl
    rw [List.length_cons, run_steps_succ, hlength]
    exact ⟨List.forall_mem_cons.2 ⟨exists_cost_of_execute (h.extended hpage), houtcomes⟩, hlast,
      hstep.trans hoperates⟩

/-- An instruction of the second page works on the operand that its opcode names, and leaves all
else alone. With interrupts off, a rotation through the carry and back restores the operand and the
carry, and after any clearing and setting of its bits each bit is as it was last given. -/
theorem extended_operates {cpu : Cpu} {m : Memory} (h : cpu.Ready m) :
    (m.read cpu.regs.pc = 0xCB →
      ∃ i, decode (m.read (cpu.regs.pc + 1)) = i ∧ i.code = m.read (cpu.regs.pc + 1) ∧
        cpu.CarriesOut m i) ∧
    (cpu.ime = false → ∀ o : Operand,
      (cpu.Faces m o [.shift .rl o, .shift .rr o] →
        let final := (steps 2 cpu).run m
        final.1.2.regs.operandOn final.2 o = cpu.regs.operandOn m o ∧
          final.1.2.regs.f.c = cpu.regs.f.c) ∧
      ∀ edits : List (Fin 8 × Bool), cpu.Faces m o (edits.map (edit o)) →
        let final := (steps edits.length cpu).run m
        final.1.2.regs.f = cpu.regs.f ∧
          ∀ k : Fin 8, (final.1.2.regs.operandOn final.2 o).toNat.testBit k =
            (lastGiven k edits).getD ((cpu.regs.operandOn m o).toNat.testBit k)) := by
  constructor
  · exact fun hpage => ⟨_, rfl, code_decode _, h.carriesOut hpage⟩
  · intro hime o
    have hlatches := h.latches_eq hime
    refine ⟨fun hfaces => ?_, fun edits hfaces => ?_⟩
    · have hprogram : ∀ i ∈ [shift .rl o, shift .rr o], decode i.code = i ∧ i.operand = o := by
        simp only [List.forall_mem_cons]
        exact ⟨⟨decode_code_shift .., rfl⟩, ⟨decode_code_shift .., rfl⟩, nofun⟩
      obtain ⟨-, -, hoperates⟩ := run_program hprogram hlatches hfaces
      rw [performAll_rl_rr] at hoperates
      refine ⟨hoperates.operand_eq, (congrArg Flags.c hoperates.flags_eq).trans ?_⟩
      exact Flags.get_ofBits ..
    · have hprogram : ∀ i ∈ edits.map (edit o), decode i.code = i ∧ i.operand = o :=
        List.forall_mem_map.2 fun e _ => ⟨decode_code_edit o e, operand_edit o e⟩
      obtain ⟨-, -, hoperates⟩ := run_program hprogram hlatches hfaces
      rw [List.length_map] at hoperates
      obtain ⟨hflags, hbits⟩ := performAll_edits o (cpu.regs.operandOn m o) cpu.regs.f edits
      refine ⟨hoperates.flags_eq.trans hflags, fun k => ?_⟩
      rw [hoperates.operand_eq]
      exact hbits k

def rotateAndEdit : Memory :=
  Memory.zero.writeAll [(0x0100, 0xCB), (0x0101, 0x16), (0x0102, 0xCB), (0x0103, 0x1E),
    (0x014D, 0x96), (0x0200, 0xCB), (0x0201, 0xC6), (0x0202, 0xCB), (0x0203, 0x8E),
    (0x0204, 0xCB), (0x0205, 0x86)]

theorem rotated_back_and_edited :
    let editing := powerOn.jump 0x0200
    let edits : List (Fin 8 × Bool) := [(0, true), (1, false), (0, false)]
    let rotated := (steps 2 powerOn).run rotateAndEdit
    let edited := (steps 3 editing).run rotateAndEdit
    powerOn.Ready rotateAndEdit ∧ editing.Ready rotateAndEdit ∧
      powerOn.Faces rotateAndEdit .atHL [.shift .rl .atHL, .shift .rr .atHL] ∧
      editing.Faces rotateAndEdit .atHL (edits.map (edit .atHL)) ∧
      (powerOn.after rotateAndEdit).latches = powerOn.latches ∧
      rotated.1.2.regs.operandOn rotated.2 .atHL = 0x96 ∧ rotated.1.2.regs.f.c = true ∧
      ∀ k : Fin 8, (edited.1.2.regs.operandOn edited.2 .atHL).toNat.testBit k =
        (0x94 : UInt8).toNat.testBit k := by
  have hread : ∀ addr, rotateAndEdit.read addr = _ := fun addr => Memory.read_writeAll _ _ addr
  intro editing edits rotated edited
  have hstart : powerOn.Ready rotateAndEdit := ready_of_latches rfl
  have hediting : editing.Ready rotateAndEdit := ready_of_latches rfl
  have hpage : rotateAndEdit.read powerOn.regs.pc = 0xCB := by
    rw [hread]
    decide
  have hprogram : powerOn.Faces rotateAndEdit .atHL [.shift .rl .atHL, .shift .rr .atHL] := by
    refine ⟨?_, by decide⟩
    simp only [Memory.Holds, List.map_congr_left fun a _ => hread a]
    decide
  have hedits : editing.Faces rotateAndEdit .atHL (edits.map (edit .atHL)) := by
    refine ⟨?_, by decide⟩
    simp only [Memory.Holds, List.map_congr_left fun a _ => hread a]
    decide
  have hbyte (pc : UInt16) : (powerOn.jump pc).regs.operandOn rotateAndEdit .atHL = 0x96 := by
    have hhl : (powerOn.jump pc).regs.hl = 0x014D := by
      change powerOn.regs.hl = 0x014D
      decide
    rw [Registers.operandOn, hhl, hread]
    decide
  have hset : powerOn.regs.f.c = true := by decide
  obtain ⟨hstep, hrun⟩ := extended_operates hstart
  obtain ⟨i, -, -, hcarried⟩ := hstep hpage
  obtain ⟨hback, hcarry⟩ := (hrun rfl .atHL).1 hprogram
  obtain ⟨-, hbits⟩ := ((extended_operates hediting).2 rfl .atHL).2 edits hedits
  refine ⟨hstart, hediting, hprogram, hedits, hcarried.latches_eq, hback.trans (hbyte 0x0100),
    hcarry.trans hset, fun k => ?_⟩
  rw [hbyte] at hbits
  refine (hbits k).trans ?_
  revert k
  decide

end Cpu

end DotMatrix
