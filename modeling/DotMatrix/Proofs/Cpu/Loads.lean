import DotMatrix.Proofs.Cpu.Extended
import DotMatrix.Proofs.Cpu.Flags

namespace DotMatrix

/-- A place for a byte. The stack pointer has two of them. -/
inductive Place
  | reg (r : Reg8)
  | spLow
  | spHigh
  | cell (addr : UInt16)
  deriving DecidableEq

def Pair.places : Pair → List Place
  | bc => [.reg .c, .reg .b]
  | de => [.reg .e, .reg .d]
  | hl => [.reg .l, .reg .h]
  | sp => [.spLow, .spHigh]

def Operand.place (hl : UInt16) : Operand → Place
  | reg r => .reg r
  | atHL => .cell hl

namespace Registers

def byteAt (r : Registers) (m : Memory) : Place → UInt8
  | .reg src => r.get src
  | .spLow => Word.low r.sp
  | .spHigh => Word.high r.sp
  | .cell addr => m.read addr

structure Fills (r : Registers) (m : Memory) (dst : List Place) (bytes : List UInt8)
    (r' : Registers) (m' : Memory) : Prop where
  filled : dst.map (r'.byteAt m') = bytes
  kept : ∀ p, p ∉ dst → r'.byteAt m' p = r.byteAt m p

theorem Fills.of_eq {r s r' : Registers} {m m' : Memory} {dst : List Place}
    {bytes bytes' : List UInt8} (h : r.Fills m dst bytes r' m')
    (hbase : ∀ p, r.byteAt m p = s.byteAt m p) (hbytes : bytes = bytes') :
    s.Fills m dst bytes' r' m' :=
  ⟨h.filled.trans hbytes, fun p hp => (h.kept p hp).trans (hbase p)⟩

variable (r : Registers) (m : Memory)

theorem byteAt_with (f : Flags) (pc : UInt16) (p : Place) :
    { r with f, pc }.byteAt m p = r.byteAt m p := by
  cases p with
  | reg src => exact r.get_with f pc src
  | _ => rfl

theorem byteAt_place (o : Operand) : r.byteAt m (o.place r.hl) = r.operandOn m o := by
  cases o <;> rfl

theorem fills_set (dst : Reg8) (value : UInt8) :
    r.Fills m [.reg dst] [value] (r.set dst value) m where
  filled := congrArg (· :: []) (get_set_self ..)
  kept := by
    intro p hp
    cases p with
    | reg src => exact (get_set ..).trans (if_neg fun h => hp (by simp [h]))
    | spLow | spHigh => cases dst <;> rfl
    | cell addr => rfl

theorem fills_write (addr : UInt16) (value : UInt8) :
    r.Fills m [.cell addr] [value] r (m.write addr value) where
  filled := congrArg (· :: []) (Memory.read_write_self ..)
  kept := by
    intro p hp
    cases p with
    | cell a => exact (Memory.read_write ..).trans (if_neg fun h => hp (by simp [h]))
    | _ => rfl

theorem fills_write_word (addr : UInt16) (low high : UInt8) :
    r.Fills m [.cell addr, .cell (addr + 1)] [low, high] r
      ((m.write addr low).write (addr + 1) high) where
  filled := by
    have hne : addr + 1 ≠ addr := by grind
    simp [byteAt, Memory.read_write, hne]
  kept := by
    intro p hp
    cases p with
    | cell a =>
      simp only [List.mem_cons, Place.cell.injEq, List.not_mem_nil, or_false, not_or] at hp
      simp [byteAt, Memory.read_write, hp.1, hp.2, eq_comm (b := a)]
    | _ => rfl

theorem fills_setPair (dst : Pair) (w : UInt16) :
    r.Fills m dst.places [Word.low w, Word.high w] (r.setPair dst w) m where
  filled := by cases dst <;> rfl
  kept := by
    intro p hp
    cases p with
    | reg src =>
      cases dst <;> cases src <;>
        simp_all [Pair.places, byteAt, get, setPair, setBc, setDe, setHl]
    | spLow | spHigh => cases dst <;> simp_all [Pair.places, byteAt, setPair, setBc, setDe, setHl]
    | cell addr => cases dst <;> rfl

theorem byteAt_places (src : Pair) :
    src.places.map (r.byteAt m) = [Word.low (r.pair src), Word.high (r.pair src)] := by
  cases src <;> simp [Pair.places, byteAt, pair, bc, de, hl, get]

end Registers

namespace Instruction

def stride : Instruction → UInt16
  | storeA .hlInc | loadA .hlInc => 1
  | storeA .hlDec | loadA .hlDec => -1
  | _ => 0

def IsLoad (i : Instruction) : Prop := i.mnemonic.toList.take 2 = ['L', 'D'] ∧ i ≠ loadHlSp

end Instruction

namespace Cpu

section

variable (cpu : Cpu) (m : Memory)

/-- The places that a load fills, and those that it copies. Low bytes come first. -/
def ends : Instruction → Option (List Place × List Place)
  | .loadPair dst => some (dst.places, [.cell cpu.operandAddr, .cell (cpu.operandAddr + 1)])
  | .loadAbsSp =>
    some ([.cell (cpu.operandWord m), .cell (cpu.operandWord m + 1)], Pair.sp.places)
  | .loadSpHl => some (Pair.sp.places, Pair.hl.places)
  | .storeA dst => some ([.cell (cpu.regs.target dst)], [.reg .a])
  | .loadA src => some ([.reg .a], [.cell (cpu.regs.target src)])
  | .load dst src => some ([dst.place cpu.regs.hl], [src.place cpu.regs.hl])
  | .loadImm dst => some ([dst.place cpu.regs.hl], [.cell cpu.operandAddr])
  | .storeAbs => some ([.cell (cpu.operandWord m)], [.reg .a])
  | .loadAbs => some ([.reg .a], [.cell (cpu.operandWord m)])
  | .storeHigh => some ([.cell (0xFF00 + (cpu.operandByte m).toUInt16)], [.reg .a])
  | .loadHigh => some ([.reg .a], [.cell (0xFF00 + (cpu.operandByte m).toUInt16)])
  | .storeHighC => some ([.cell (0xFF00 + cpu.regs.c.toUInt16)], [.reg .a])
  | .loadHighC => some ([.reg .a], [.cell (0xFF00 + cpu.regs.c.toUInt16)])
  | _ => none

theorem exists_ends {i : Instruction} (h : i.IsLoad) :
    ∃ dst src, cpu.ends m i = some (dst, src) := by
  obtain ⟨hname, hne⟩ := h
  cases i with
  | loadHlSp => contradiction
  | loadPair | loadAbsSp | loadSpHl | storeA | loadA | load | loadImm | storeAbs | loadAbs
  | storeHigh | loadHigh | storeHighC | loadHighC => exact ⟨_, _, rfl⟩
  -- The texts of all others begin in another way, whatever their operands are.
  | alu op | aluImm op => cases op <;> simp [Instruction.mnemonic, AluOp.head] at hname
  | rotateA op => cases op <;> simp [Instruction.mnemonic, ShiftOp.name] at hname
  | jr cond | jp cond | call cond | ret cond =>
    cases cond <;> simp [Instruction.mnemonic, Instruction.transfer] at hname
  | _ => simp [Instruction.mnemonic] at hname

theorem run_readOperand (o : Operand) :
    (cpu.readOperand o).run m = (cpu.regs.operandOn m o, m) := by
  cases o <;> rfl

theorem fills_writeOperand (dst : Operand) (value : UInt8) :
    let r := (cpu.writeOperand dst value).run m
    cpu.regs.Fills m [dst.place cpu.regs.hl] [value] r.1.regs r.2 := by
  cases dst with
  | reg r => exact cpu.regs.fills_set m r value
  | atHL => exact cpu.regs.fills_write m cpu.regs.hl value

def strode (i : Instruction) : Registers := cpu.regs.setHl (cpu.regs.hl + i.stride)

theorem byteAt_strode {i : Instruction} (hi : i.stride = 0) (pc : UInt16) (p : Place) :
    { cpu.regs with pc }.byteAt m p = (cpu.strode i).byteAt m p := by
  have hkept : cpu.strode i = cpu.regs := by simp [strode, hi, Registers.setHl, Registers.hl]
  rw [hkept]
  exact cpu.regs.byteAt_with m cpu.regs.f pc p

theorem byteAt_step (opcode : UInt8) {i : Instruction} {pointer : Pointer}
    (hi : i = .storeA pointer ∨ i = .loadA pointer) (p : Place) :
    ((cpu.fetched opcode).regs.step pointer).byteAt m p = (cpu.strode i).byteAt m p := by
  rcases hi with rfl | rfl <;> cases pointer with
  | bc | de => exact cpu.byteAt_strode m rfl _ p
  | hlInc => exact (cpu.regs.setHl (cpu.regs.hl + 1)).byteAt_with m cpu.regs.f _ p
  | hlDec =>
    have hback : cpu.regs.hl - 1 = cpu.regs.hl + -1 := UInt16.sub_eq_add_neg ..
    rw [strode, Instruction.stride, ← hback]
    exact (cpu.regs.setHl (cpu.regs.hl - 1)).byteAt_with m cpu.regs.f _ p

theorem fills_execute {i : Instruction} {dst src : List Place}
    (hends : cpu.ends m i = some (dst, src)) (opcode : UInt8) :
    let r := ((cpu.fetched opcode).execute i).run m
    (cpu.strode i).Fills m dst (src.map (cpu.regs.byteAt m)) r.1.2.regs r.2 := by
  cases i with
  | loadPair dst =>
    cases hends
    refine (Registers.fills_setPair _ m dst _).of_eq (cpu.byteAt_strode m rfl _) ?_
    simp only [Word.low_combine, Word.high_combine]
    rfl
  | loadAbsSp =>
    cases hends
    simp only [execute, Access.run_bind, run_imm16_eq]
    exact (Registers.fills_write_word _ m _ _ _).of_eq (cpu.byteAt_strode m rfl _) rfl
  | loadSpHl =>
    cases hends
    refine (Registers.fills_setPair _ m .sp _).of_eq (cpu.byteAt_strode m rfl _) ?_
    exact (cpu.regs.byteAt_places m .hl).symm
  | storeA dst =>
    cases hends
    -- The address is taken before HL moves, and moving HL leaves memory alone.
    exact (Registers.fills_write _ m _ _).of_eq (cpu.byteAt_step m opcode (.inl rfl)) rfl
  | loadA src =>
    cases hends
    exact (Registers.fills_set _ m .a _).of_eq (cpu.byteAt_step m opcode (.inr rfl)) rfl
  | load dst src =>
    cases hends
    simp only [execute, Access.run_bind, run_readOperand_fetched, run_readOperand]
    refine (fills_writeOperand (cpu.fetched opcode) m dst _).of_eq
      (cpu.byteAt_strode m rfl _) ?_
    rw [← cpu.regs.byteAt_place m src]
    rfl
  | loadImm dst =>
    cases hends
    simp only [execute, Access.run_bind]
    exact (fills_writeOperand ((cpu.fetched opcode).skip 1) m dst _).of_eq
      (cpu.byteAt_strode m rfl _) rfl
  | storeAbs =>
    cases hends
    simp only [execute, Access.run_bind, run_imm16_eq]
    exact (Registers.fills_write _ m _ _).of_eq (cpu.byteAt_strode m rfl _) rfl
  | loadAbs =>
    cases hends
    simp only [execute, Access.run_bind, run_imm16_eq]
    exact (Registers.fills_set _ m .a _).of_eq (cpu.byteAt_strode m rfl _) rfl
  | storeHigh | storeHighC =>
    cases hends
    rw [← highPage_eq]
    exact (Registers.fills_write _ m _ _).of_eq (cpu.byteAt_strode m rfl _) rfl
  | loadHigh | loadHighC =>
    cases hends
    rw [← highPage_eq]
    exact (Registers.fills_set _ m .a _).of_eq (cpu.byteAt_strode m rfl _) rfl
  | _ => contradiction

variable {cpu m} {i : Instruction} {dst src : List Place}

theorem ends_congr (hbug : cpu.haltBug = false) {m' : Memory}
    (hread : ∀ a ∈ addressesFrom cpu.regs.pc i.length, m'.read a = m.read a) :
    cpu.ends m' i = cpu.ends m i := by
  rw [Instruction.length_eq, Nat.add_comm] at hread
  obtain ⟨-, hoperands⟩ := List.forall_mem_cons.1 hread
  have haddr : cpu.operandAddr = cpu.regs.pc + 1 := by simp [operandAddr, hbug]
  rw [← haddr] at hoperands
  cases i with
  | loadAbsSp | storeAbs | loadAbs =>
    obtain ⟨hlow, hrest⟩ := List.forall_mem_cons.1 hoperands
    obtain ⟨hhigh, -⟩ := List.forall_mem_cons.1 hrest
    simp only [ends, operandWord, Memory.bus_read, hlow, hhigh]
  | storeHigh | loadHigh =>
    obtain ⟨hbyte, -⟩ := List.forall_mem_cons.1 hoperands
    simp only [ends, operandByte, Memory.bus_read, hbyte]
  | _ => rfl

theorem no_flag_jump_or_latch_of_ends (hends : cpu.ends m i = some (dst, src)) :
    (∀ second, i.owned second = []) ∧ cpu.takes i = false ∧
      ∀ (l : Latches) (pending : UInt8), l.execute pending i = l := by
  cases i with
  | loadPair | loadAbsSp | loadSpHl | storeA | loadA | load | loadImm | storeAbs | loadAbs
  | storeHigh | loadHigh | storeHighC | loadHighC => exact ⟨fun _ => rfl, rfl, fun _ _ => rfl⟩
  | _ => contradiction

theorem not_mem_of_stride (hends : cpu.ends m i = some (dst, src)) (hi : i.stride ≠ 0) {p : Place}
    (hp : p ∈ Pair.hl.places) : p ∉ dst := by
  cases i with
  | storeA pointer | loadA pointer =>
    cases hends
    rintro (_ | ⟨_, ⟨⟩⟩)
    simp [Pair.places] at hp
  | _ => contradiction

structure Loads (cpu : Cpu) (m : Memory) (i : Instruction) (dst src : List Place) : Prop where
  succeeds : ∃ cost, cpu.outcome m = .ok cost
  moved : dst.map ((cpu.after m).regs.byteAt (cpu.step.run m).2) = src.map (cpu.regs.byteAt m)
  kept : ∀ p, p ∉ dst → (i.stride ≠ 0 → p ∉ Pair.hl.places) →
    (cpu.after m).regs.byteAt (cpu.step.run m).2 p = cpu.regs.byteAt m p
  hl_eq : i.stride ≠ 0 → (cpu.after m).regs.hl = cpu.regs.hl + i.stride
  f_eq : (cpu.after m).regs.f = cpu.regs.f
  pc_eq : (cpu.after m).regs.pc = cpu.regs.pc + .ofNat i.length
  latches_eq : (cpu.after m).latches = cpu.latches

theorem Ready.loads (h : cpu.Ready m) (hi : Instruction.decode (m.read cpu.regs.pc) = some i)
    (hends : cpu.ends m i = some (dst, src)) : cpu.Loads m i dst src := by
  have ha := h.activity hi
  obtain ⟨howned, htakes, hlatches⟩ := no_flag_jump_or_latch_of_ends hends
  have hfills : (cpu.strode i).Fills m dst (src.map (cpu.regs.byteAt m)) (cpu.after m).regs
      (cpu.step.run m).2 := by
    rw [regs_after_of_execute ha, run_step_of_execute ha]
    exact cpu.fills_execute m hends _
  constructor
  case succeeds => exact exists_cost_of_execute ha
  case moved => exact hfills.filled
  case kept =>
    intro p hp hstride
    refine (hfills.kept p hp).trans ?_
    by_cases hzero : i.stride = 0
    · exact (cpu.byteAt_strode m hzero cpu.regs.pc p).symm
    · exact (cpu.regs.fills_setPair m .hl _).kept p (hstride hzero)
  case hl_eq =>
    intro hstride
    have hlow := hfills.kept (.reg .l) (not_mem_of_stride hends hstride (by decide))
    have hhigh := hfills.kept (.reg .h) (not_mem_of_stride hends hstride (by decide))
    calc
      (cpu.after m).regs.hl = (cpu.strode i).hl := congrArg₂ Word.combine hlow hhigh
      _ = cpu.regs.hl + i.stride := Registers.hl_setHl ..
  case f_eq =>
    rw [regs_after_of_execute ha]
    refine Flags.ext_get fun flag => flags_execute _ m ?_
    simp [howned]
  case pc_eq => exact pc_after ha h.haltBug htakes
  case latches_eq => exact h.latches_after_of_execute ha hlatches

variable {store load : Instruction} {addr : UInt16}

theorem Loads.read_of_ne (h : cpu.Loads m store [.cell addr] src) {a : UInt16} (ha : a ≠ addr) :
    (cpu.step.run m).2.read a = m.read a :=
  h.kept (.cell a) (by simp [ha]) fun _ => by simp [Pair.places]

theorem Loads.loads_next {src' : List Place} (h : cpu.Loads m store [.cell addr] src)
    (hready : (cpu.after m).Ready (cpu.step.run m).2)
    (hload : Instruction.decode (m.read (cpu.regs.pc + .ofNat store.length)) = some load)
    (hends : (cpu.after m).ends m load = some (dst, src'))
    (hapart : addr ∉ addressesFrom (cpu.regs.pc + .ofNat store.length) load.length) :
    (cpu.after m).Loads (cpu.step.run m).2 load dst src' := by
  rw [← h.pc_eq] at hload hapart
  have hkept : ∀ a ∈ addressesFrom (cpu.after m).regs.pc load.length,
      (cpu.step.run m).2.read a = m.read a := by
    intro a ha
    apply h.read_of_ne
    rintro rfl
    exact hapart ha
  have hfirst : (cpu.after m).regs.pc ∈ addressesFrom (cpu.after m).regs.pc load.length := by
    rw [Instruction.length_eq, Nat.add_comm]
    exact List.mem_cons_self
  apply hready.loads
  · rw [hkept _ hfirst, hload]
  · rw [ends_congr hready.haltBug hkept, hends]

end

/-- A load fills its destination with what was in its source, and changes nothing else. With
interrupts off, a load of A finds what the store before it has put at the same address, if that is
no byte of the load. -/
theorem loads_move_bytes {cpu : Cpu} {m : Memory} (h : cpu.Ready m) :
    (∀ i, Instruction.decode (m.read cpu.regs.pc) = some i → i.IsLoad →
      ∃ dst src, cpu.ends m i = some (dst, src) ∧ cpu.Loads m i dst src) ∧
    (cpu.ime = false → ∀ (store load : Instruction) (addr : UInt16),
      let next := cpu.regs.pc + .ofNat store.length
      let final := (steps 2 cpu).run m
      Instruction.decode (m.read cpu.regs.pc) = some store →
      cpu.ends m store = some ([.cell addr], [.reg .a]) →
      Instruction.decode (m.read next) = some load →
      (cpu.after m).ends m load = some ([.reg .a], [.cell addr]) →
      addr ∉ addressesFrom next load.length →
        (∀ outcome ∈ final.1.1, ∃ cost, outcome = .ok cost) ∧
          final.1.2.regs.a = cpu.regs.a ∧ final.2.read addr = cpu.regs.a) := by
  constructor
  · intro i hi hload
    obtain ⟨dst, src, hends⟩ := cpu.exists_ends m hload
    exact ⟨dst, src, hends, h.loads hi hends⟩
  · intro hime store load addr next final hstore hstoreEnds hload hloadEnds hapart
    have hstored := h.loads hstore hstoreEnds
    have hready : (cpu.after m).Ready (cpu.step.run m).2 :=
      ready_of_latches (hstored.latches_eq.trans (h.latches_eq hime))
    have hloaded := hstored.loads_next hready hload hloadEnds hapart
    have hcell : (cpu.step.run m).2.read addr = cpu.regs.a := List.head_eq_of_cons_eq hstored.moved
    have hfinal : final =
        (([cpu.outcome m, (cpu.after m).outcome (cpu.step.run m).2],
            (cpu.after m).after (cpu.step.run m).2),
          ((cpu.after m).step.run (cpu.step.run m).2).2) := by
      simp only [final, run_steps_succ]
      rfl
    rw [hfinal]
    refine ⟨?_, (List.head_eq_of_cons_eq hloaded.moved).trans hcell,
      (hloaded.kept (.cell addr) (by simp) fun _ => by simp [Pair.places]).trans hcell⟩
    exact List.forall_mem_cons.2 ⟨hstored.succeeds, List.forall_mem_singleton.2 hloaded.succeeds⟩

def storeAndLoad : Memory :=
  Memory.zero.writeAll [(0x0100, 0x22), (0x0101, 0xFA), (0x0102, 0x4D), (0x0103, 0x01)]

theorem stored_byte_found_again :
    let final := (steps 2 powerOn).run storeAndLoad
    powerOn.Ready storeAndLoad ∧ (Instruction.storeA .hlInc).IsLoad ∧
      (powerOn.after storeAndLoad).regs.hl = 0x014E ∧
      (powerOn.after storeAndLoad).regs.pc = 0x0101 ∧
      powerOn.ends storeAndLoad (.storeA .hlInc) = some ([.cell 0x014D], [.reg .a]) ∧
      (powerOn.after storeAndLoad).ends storeAndLoad .loadAbs =
        some ([.reg .a], [.cell 0x014D]) ∧
      0x014D ∉ addressesFrom 0x0101 Instruction.loadAbs.length ∧
      final.1.2.regs.a = 0x01 ∧ final.2.read 0x014D = 0x01 := by
  have hread : ∀ addr, storeAndLoad.read addr = _ := fun addr => Memory.read_writeAll _ _ addr
  intro final
  have h : powerOn.Ready storeAndLoad := ready_of_latches rfl
  have hload : (Instruction.storeA .hlInc).IsLoad := ⟨by decide, nofun⟩
  have hstoreLength : (Instruction.storeA .hlInc).length = 1 := Instruction.length_eq _
  have hlength : Instruction.loadAbs.length = 3 := Instruction.length_eq _
  have hi : Instruction.decode (storeAndLoad.read powerOn.regs.pc) = some (.storeA .hlInc) := by
    rw [hread]
    decide
  have hnext : Instruction.decode (storeAndLoad.read 0x0101) = some .loadAbs := by
    rw [hread]
    decide
  have hends : powerOn.ends storeAndLoad (.storeA .hlInc) = some ([.cell 0x014D], [.reg .a]) := by
    decide +kernel
  have hendsAgain : (powerOn.after storeAndLoad).ends storeAndLoad .loadAbs =
      some ([.reg .a], [.cell 0x014D]) := by decide +kernel
  have hapart : 0x014D ∉ addressesFrom 0x0101 Instruction.loadAbs.length := by
    rw [hlength]
    decide
  obtain ⟨hloads, hfound⟩ := loads_move_bytes h
  obtain ⟨dst, src, -, hmoved⟩ := hloads _ hi hload
  obtain ⟨-, hback, hcell⟩ :=
    hfound rfl (.storeA .hlInc) .loadAbs 0x014D hi hends (by rwa [hstoreLength]) hendsAgain
      (by rwa [hstoreLength])
  refine ⟨h, hload, (hmoved.hl_eq (by decide)).trans (by decide), ?_, hends, hendsAgain, hapart,
    hback, hcell⟩
  rw [hmoved.pc_eq, hstoreLength]
  rfl

end Cpu

end DotMatrix
