import DotMatrix.Proofs.Cpu.Footprint

namespace DotMatrix

def byteBelow (base : UInt16) (k : Nat) : UInt16 := base - 1 - .ofNat k

def bytesBelow (base : UInt16) (count : Nat) : List UInt16 :=
  (List.range count).map (byteBelow base)

theorem byteBelow_mem {base : UInt16} {k count : Nat} (h : k < count) :
    byteBelow base k ∈ bytesBelow base count :=
  List.mem_map_of_mem (List.mem_range.2 h)

theorem mem_bytesBelow (base addr : UInt16) {count : Nat} (h : 0x10000 ≤ count) :
    addr ∈ bytesBelow base count := by
  have haddr : byteBelow base (base - 1 - addr).toNat = addr := by
    rw [byteBelow, UInt16.ofNat_toNat]
    grind
  rw [← haddr]
  exact byteBelow_mem (Nat.lt_of_lt_of_le (UInt16.toNat_lt _) h)

theorem byteBelow_ne {base : UInt16} {k k' : Nat} (hlt : k < k') (hk' : k' < 0x10000) :
    byteBelow base k ≠ byteBelow base k' := by
  intro h
  have hofNat : UInt16.ofNat k = UInt16.ofNat k' := by grind [byteBelow]
  have htoNat := congrArg UInt16.toNat hofNat
  simp only [UInt16.toNat_ofNat'] at htoNat
  omega

theorem Word.low_and (v w : UInt16) : low (v &&& w) = low v &&& low w := UInt16.toUInt8_and ..

theorem Word.high_and (v w : UInt16) : high (v &&& w) = high v &&& high w := by
  simp only [high, UInt16.shiftRight_and, UInt16.toUInt8_and]

theorem Registers.stackPair_setStackPair (r : Registers) (dst : StackPair) (w : UInt16) :
    (r.setStackPair dst w).stackPair dst = if dst = .af then w &&& 0xFFF0 else w := by
  cases dst with
  | af =>
    have hlow : (Flags.ofByte (Word.low w)).toByte &&& 0xF0 = Word.low (w &&& 0xFFF0) := by
      rw [Flags.toByte_and_high, Word.low_and]
      rfl
    have hhigh : Word.high w = Word.high (w &&& 0xFFF0) := by
      rw [Word.high_and]
      exact UInt8.and_neg_one.symm
    have hpair : (r.setStackPair .af w).stackPair .af =
        Word.combine ((Flags.ofByte (Word.low w)).toByte &&& 0xF0) (Word.high w) := rfl
    rw [hpair, hlow, hhigh, Word.combine_low_high]
    rfl
  | _ => exact Word.combine_low_high w

def stackTop (base : UInt16) (count : Nat) : UInt16 := base - .ofNat (2 * count)

section

variable (base : UInt16) (count : Nat)

theorem stackTop_zero : stackTop base 0 = base := UInt16.sub_zero _

theorem stackTop_sub_one : stackTop base count - 1 = byteBelow base (2 * count) := by
  grind [stackTop, byteBelow]

theorem stackTop_succ : stackTop base (count + 1) = byteBelow base (2 * count + 1) := by
  simp only [stackTop, byteBelow, Nat.mul_add, UInt16.ofNat_add]
  grind

theorem stackTop_succ_add_one : stackTop base (count + 1) + 1 = byteBelow base (2 * count) := by
  rw [stackTop_succ]
  simp only [byteBelow, UInt16.ofNat_add]
  grind

theorem stackTop_sub_two : stackTop base count - 2 = stackTop base (count + 1) := by
  simp only [stackTop, Nat.mul_add, UInt16.ofNat_add]
  grind

theorem stackTop_succ_add_two : stackTop base (count + 1) + 2 = stackTop base count := by
  rw [← stackTop_sub_two]
  exact UInt16.sub_add_cancel ..

end

inductive StackOp
  | push (w : UInt16)
  | pop

namespace StackOp

def left : List StackOp → List UInt16 → List UInt16
  | [], words => words
  | push w :: ops, words => left ops (w :: words)
  | pop :: ops, words => left ops words.tail

def popped : List StackOp → List UInt16 → List UInt16
  | [], _ => []
  | push w :: ops, words => popped ops (w :: words)
  | pop :: ops, words => words.take 1 ++ popped ops words.tail

def Fits (capacity : Nat) : List StackOp → List UInt16 → Prop
  | [], _ => True
  | push w :: ops, words => words.length < capacity ∧ Fits capacity ops (w :: words)
  | pop :: ops, words => words ≠ [] ∧ Fits capacity ops words.tail

def thereAndBack (words : List UInt16) : List StackOp :=
  words.map push ++ List.replicate words.length pop

section

variable (ops later : List StackOp) (words stack : List UInt16)

theorem left_append : left (ops ++ later) stack = left later (left ops stack) := by
  induction ops generalizing stack with
  | nil => rfl
  | cons op ops ih => cases op <;> exact ih _

theorem popped_append :
    popped (ops ++ later) stack = popped ops stack ++ popped later (left ops stack) := by
  induction ops generalizing stack with
  | nil => rfl
  | cons op ops ih =>
    cases op with
    | push w => exact ih _
    | pop => simp only [List.cons_append, popped, left, ih, List.append_assoc]

theorem fits_append {capacity : Nat} :
    Fits capacity (ops ++ later) stack ↔
      Fits capacity ops stack ∧ Fits capacity later (left ops stack) := by
  induction ops generalizing stack with
  | nil => simp [Fits, left]
  | cons op ops ih => cases op <;> simp only [List.cons_append, Fits, left, ih, and_assoc]

theorem left_pushes : left (words.map push) stack = words.reverse ++ stack := by
  induction words generalizing stack with
  | nil => rfl
  | cons w words ih => simp [left, ih]

theorem popped_pushes : popped (words.map push) stack = [] := by
  induction words generalizing stack with
  | nil => rfl
  | cons w words ih => exact ih _

theorem fits_pushes {capacity : Nat} (h : stack.length + words.length ≤ capacity) :
    Fits capacity (words.map push) stack := by
  induction words generalizing stack with
  | nil => trivial
  | cons w words ih =>
    rw [List.length_cons] at h
    exact ⟨by omega, ih _ (by rw [List.length_cons]; omega)⟩

theorem left_pops : left (List.replicate stack.length pop) stack = [] := by
  induction stack with
  | nil => rfl
  | cons w stack ih => exact ih

theorem popped_pops : popped (List.replicate stack.length pop) stack = stack := by
  induction stack with
  | nil => rfl
  | cons w stack ih => exact congrArg (List.cons w) ih

theorem fits_pops {capacity : Nat} : Fits capacity (List.replicate stack.length pop) stack := by
  induction stack with
  | nil => trivial
  | cons w stack ih => exact ⟨List.cons_ne_nil w stack, ih⟩

end

section

variable (words : List UInt16)

theorem thereAndBack_eq :
    thereAndBack words =
      words.map push ++ List.replicate (left (words.map push) []).length pop := by
  rw [left_pushes, List.append_nil, List.length_reverse]
  rfl

theorem left_thereAndBack : left (thereAndBack words) [] = [] := by
  rw [thereAndBack_eq, left_append, left_pops]

theorem popped_thereAndBack : popped (thereAndBack words) [] = words.reverse := by
  rw [thereAndBack_eq, popped_append, popped_pops, popped_pushes, left_pushes, List.append_nil,
    List.nil_append]

theorem fits_thereAndBack : Fits words.length (thereAndBack words) [] := by
  rw [thereAndBack_eq, fits_append]
  exact ⟨fits_pushes words [] (by simp), fits_pops _⟩

end

end StackOp

namespace Bus

/-- What is written to one of these addresses can be read there and at the other addresses of the
same cell, and nowhere else. -/
structure StoresAt (β : Type) [Bus β] (cellOf : UInt16 → UInt16) (addrs : List UInt16) :
    Prop where
  cellOf_eq : ∀ a ∈ addrs, cellOf a = a
  read_write : ∀ a ∈ addrs, ∀ (bus : β) (value : UInt8) (addr : UInt16),
    read (write bus a value) addr = if cellOf addr = a then value else read bus addr

variable {β : Type} [Bus β]

/-- The words lie below an address, the last of them lowest, each with its low byte first. -/
def Stacked (bus : β) (base : UInt16) : List UInt16 → Prop
  | [] => True
  | w :: words =>
    read bus (byteBelow base (2 * words.length + 1)) = Word.low w ∧
      read bus (byteBelow base (2 * words.length)) = Word.high w ∧ Stacked bus base words

theorem Stacked.congr {bus bus' : β} {base : UInt16} {words : List UInt16}
    (h : Stacked bus base words)
    (hread : ∀ k < 2 * words.length, read bus' (byteBelow base k) = read bus (byteBelow base k)) :
    Stacked bus' base words := by
  induction words with
  | nil => trivial
  | cons w words ih =>
    obtain ⟨hlow, hhigh, hrest⟩ := h
    rw [List.length_cons] at hread
    exact ⟨(hread _ (by omega)).trans hlow, (hread _ (by omega)).trans hhigh,
      ih hrest fun k hk => hread k (by omega)⟩

section

variable {base : UInt16} {capacity : Nat} {cellOf : UInt16 → UInt16}
variable (hcells : StoresAt β cellOf (bytesBelow base (2 * capacity)))

include hcells

theorem StoresAt.read_pushed {count : Nat} (hcount : count < capacity) (bus : β) (w : UInt16)
    (addr : UInt16) :
    read (writeAll bus (Cpu.pushCells (stackTop base count) w)) addr =
      if cellOf addr = byteBelow base (2 * count + 1) then Word.low w
      else if cellOf addr = byteBelow base (2 * count) then Word.high w
      else read bus addr := by
  rw [Cpu.pushCells, stackTop_sub_one, stackTop_sub_two, stackTop_succ]
  refine (hcells.read_write _ (byteBelow_mem (by omega)) ..).trans ?_
  rw [hcells.read_write _ (byteBelow_mem (by omega))]

theorem StoresAt.stacked_pushed (hcapacity : capacity ≤ 0x8000) {bus : β} {words : List UInt16}
    (hwords : words.length < capacity) (h : Stacked bus base words) (w : UInt16) :
    Stacked (writeAll bus (Cpu.pushCells (stackTop base words.length) w)) base (w :: words) := by
  have hcell : ∀ k < 2 * capacity, cellOf (byteBelow base k) = byteBelow base k :=
    fun k hk => hcells.cellOf_eq _ (byteBelow_mem hk)
  have hread := hcells.read_pushed hwords bus w
  refine ⟨?_, ?_, h.congr fun k hk => ?_⟩
  · rw [hread, hcell _ (by omega), if_pos rfl]
  · rw [hread, hcell _ (by omega), if_neg (byteBelow_ne (by omega) (by omega)), if_pos rfl]
  · rw [hread, hcell _ (by omega), if_neg (byteBelow_ne (by omega) (by omega)),
      if_neg (byteBelow_ne (by omega) (by omega))]

end

end Bus

open Bus

namespace Cpu

def withSp (cpu : Cpu) (sp : UInt16) : Cpu := { cpu with regs.sp := sp }

theorem sp_withSp (cpu : Cpu) (sp : UInt16) : (cpu.withSp sp).regs.sp = sp := rfl

def stackOps : List StackOp → Cpu → Access (List UInt16 × Cpu)
  | [], cpu => return ([], cpu)
  | .push w :: ops, cpu => do
    let cpu ← cpu.push w
    stackOps ops cpu
  | .pop :: ops, cpu => do
    let (w, cpu) ← cpu.pop
    let (words, cpu) ← stackOps ops cpu
    return (w :: words, cpu)

section

variable {β : Type} [Bus β] {cpu : Cpu} {bus : β} {base : UInt16} {words : List UInt16}

theorem run_push_at (hsp : cpu.regs.sp = stackTop base words.length) (w : UInt16) :
    (cpu.push w).run bus =
      (cpu.withSp (stackTop base (w :: words).length),
        writeAll bus (pushCells (stackTop base words.length) w)) := by
  rw [run_push, hsp, List.length_cons, ← stackTop_sub_two]
  rfl

theorem run_pop_at {w : UInt16} (hsp : cpu.regs.sp = stackTop base (w :: words).length)
    (h : Stacked bus base (w :: words)) :
    cpu.pop.run bus = ((w, cpu.withSp (stackTop base words.length)), bus) := by
  obtain ⟨hlow, hhigh, -⟩ := h
  rw [run_pop, hsp, List.length_cons, stackTop_succ_add_one, stackTop_succ_add_two, stackTop_succ,
    hlow, hhigh, Word.combine_low_high]
  rfl

/-- A run of operations does to the memory below an address what it does to a list of words. -/
theorem run_stackOps {capacity : Nat} (hcapacity : capacity ≤ 0x8000) {cellOf : UInt16 → UInt16}
    (hcells : StoresAt β cellOf (bytesBelow base (2 * capacity))) {ops : List StackOp}
    (hfits : StackOp.Fits capacity ops words) (hsp : cpu.regs.sp = stackTop base words.length)
    (h : Stacked bus base words) :
    let final := (stackOps ops cpu).run bus
    final.1 =
        (StackOp.popped ops words, cpu.withSp (stackTop base (StackOp.left ops words).length)) ∧
      Stacked final.2 base (StackOp.left ops words) ∧
      ∀ addr, cellOf addr ∉ bytesBelow base (2 * capacity) → read final.2 addr = read bus addr := by
  induction ops generalizing cpu bus words with
  | nil =>
    refine ⟨?_, h, fun _ _ => rfl⟩
    rw [StackOp.left, ← hsp]
    rfl
  | cons op ops ih =>
    cases op with
    | push w =>
      obtain ⟨hroom, hrest⟩ := hfits
      have hstacked := hcells.stacked_pushed hcapacity hroom h w
      obtain ⟨hresult, hleft, hframe⟩ :=
        ih hrest (cpu.sp_withSp (stackTop base (w :: words).length)) hstacked
      rw [stackOps, Access.run_bind, run_push_at hsp w]
      refine ⟨hresult, hleft, fun addr haddr => (hframe addr haddr).trans ?_⟩
      -- There was room, so both bytes of the word are among those that may change.
      have hne : ∀ k < 2 * capacity, cellOf addr ≠ byteBelow base k :=
        fun k hk heq => haddr (heq ▸ byteBelow_mem hk)
      rw [hcells.read_pushed hroom, if_neg (hne _ (by omega)), if_neg (hne _ (by omega))]
    | pop =>
      obtain ⟨hsome, hrest⟩ := hfits
      obtain ⟨w, words, rfl⟩ := List.exists_cons_of_ne_nil hsome
      obtain ⟨hresult, hleft, hframe⟩ :=
        ih hrest (cpu.sp_withSp (stackTop base words.length)) h.2.2
      simp only [stackOps, Access.run_bind, Access.run_pure, run_pop_at hsp h]
      exact ⟨congrArg (fun r => (w :: r.1, r.2)) hresult, hleft, hframe⟩

end

structure LastInFirstOut {β : Type} [Bus β] (cpu : Cpu) (bus : β) (cellOf : UInt16 → UInt16)
    (words : List UInt16) : Prop where
  popped : ((stackOps (StackOp.thereAndBack words) cpu).run bus).1 = (words.reverse, cpu)
  top : ∀ k w, (StackOp.left ((StackOp.thereAndBack words).take k) []).head? = some w →
    let final := (stackOps ((StackOp.thereAndBack words).take k) cpu).run bus
    Bus.read final.2 final.1.2.regs.sp = Word.low w ∧
      Bus.read final.2 (final.1.2.regs.sp + 1) = Word.high w
  kept : ∀ addr, cellOf addr ∉ bytesBelow cpu.regs.sp (2 * words.length) →
    Bus.read ((stackOps (StackOp.thereAndBack words) cpu).run bus).2 addr = Bus.read bus addr

theorem lastInFirstOut {β : Type} [Bus β] {cellOf : UInt16 → UInt16} (cpu : Cpu) (bus : β)
    {words : List UInt16} (hwords : words.length ≤ 0x8000)
    (hcells : StoresAt β cellOf (bytesBelow cpu.regs.sp (2 * words.length))) :
    cpu.LastInFirstOut bus cellOf words := by
  have hsp : cpu.regs.sp = stackTop cpu.regs.sp ([] : List UInt16).length :=
    (stackTop_zero _).symm
  have hempty : Stacked bus cpu.regs.sp [] := trivial
  have hrun {ops : List StackOp} (hfits : StackOp.Fits words.length ops []) :=
    run_stackOps hwords hcells hfits hsp hempty
  obtain ⟨hresult, -, hkept⟩ := hrun (StackOp.fits_thereAndBack words)
  refine ⟨?_, fun k w hw => ?_, hkept⟩
  · rw [hresult, StackOp.popped_thereAndBack, StackOp.left_thereAndBack, ← hsp]
    rfl
  · -- The first operations fit by themselves, whether they still push or already pop.
    have hfits := StackOp.fits_thereAndBack words
    rw [← List.take_append_drop k (StackOp.thereAndBack words), StackOp.fits_append] at hfits
    obtain ⟨hresult, hstacked, -⟩ := hrun hfits.1
    obtain ⟨rest, hrest⟩ := List.head?_eq_some_iff.1 hw
    rw [hrest] at hresult hstacked
    obtain ⟨hlow, hhigh, -⟩ := hstacked
    simp only [hresult, sp_withSp, List.length_cons, stackTop_succ_add_one]
    exact ⟨by rw [stackTop_succ, hlow], hhigh⟩

theorem storesAt_memory (addrs : List UInt16) : StoresAt Memory id addrs where
  cellOf_eq := fun _ _ => rfl
  read_write := fun a _ m value addr => by
    rw [Memory.bus_write, Memory.bus_read, Memory.read_write]
    simp [eq_comm]

theorem storesAt_addressSpace {addrs : List UInt16}
    (h : ∀ addr ∈ addrs, 0xC000 ≤ addr ∧ addr ≤ 0xDFFF) :
    StoresAt AddressSpace AddressSpace.canonical addrs := by
  have hcanonical : ∀ a ∈ addrs, AddressSpace.canonical a = a := by
    intro a ha
    have hrange := h a ha
    grind [AddressSpace.canonical]
  refine ⟨hcanonical, fun a ha s value addr => ?_⟩
  have hstored : AddressSpace.Stored a := by
    have hrange := h a ha
    unfold AddressSpace.Stored
    grind
  rw [AddressSpace.bus_write, AddressSpace.bus_read, AddressSpace.read_write, hcanonical a ha]
  simp [hstored, eq_comm]

def pushAndPop (cpu : Cpu) (src dst : StackPair) : Access Cpu := do
  let (_, cpu) ← cpu.execute (.push src)
  let (_, cpu) ← cpu.execute (.pop dst)
  return cpu

theorem run_pushAndPop (cpu : Cpu) (m : Memory) (src dst : StackPair) :
    ((cpu.pushAndPop src dst).run m).1 =
      { cpu with regs := cpu.regs.setStackPair dst (cpu.regs.stackPair src) } := by
  have hback : cpu.regs.sp - 2 + 2 = cpu.regs.sp := UInt16.sub_add_cancel ..
  have hsecond : cpu.regs.sp - 2 + 1 = cpu.regs.sp - 1 := by grind
  have hlow := m.read_pushed_low cpu.regs.sp (cpu.regs.stackPair src)
  have hhigh := m.read_pushed_high cpu.regs.sp (cpu.regs.stackPair src)
  rw [Memory.pushed] at hlow hhigh
  simp only [pushAndPop, execute, Access.run_bind, Access.run_pure, run_push, run_pop,
    Memory.bus_read, Memory.bus_write, hback, hsecond, hlow, hhigh, Word.combine_low_high]

/-- A stack of up to all of memory gives back what was pushed in reverse order, and restores the
stack pointer. So does one in the work memory of the address space. A pair can be popped into
another, but F has no cells for the low nibble. -/
theorem stack_is_last_in_first_out (cpu : Cpu) :
    (∀ (m : Memory) (words : List UInt16), words.length ≤ 0x8000 →
      cpu.LastInFirstOut m id words) ∧
    (∀ (m : Memory) (src dst : StackPair),
      let final := (cpu.pushAndPop src dst).run m
      let word := cpu.regs.stackPair src
      final.1 = { cpu with regs := cpu.regs.setStackPair dst word } ∧
        final.1.regs.stackPair dst = (if dst = .af then word &&& 0xFFF0 else word) ∧
        final.1.regs.sp = cpu.regs.sp) ∧
    ∀ (s : AddressSpace) (words : List UInt16),
      (∀ addr ∈ bytesBelow cpu.regs.sp (2 * words.length), 0xC000 ≤ addr ∧ addr ≤ 0xDFFF) →
        cpu.LastInFirstOut s AddressSpace.canonical words := by
  refine ⟨fun m words hwords => lastInFirstOut cpu m hwords (storesAt_memory _),
    fun m src dst => ?_, fun s words hrange => ?_⟩
  · have hfinal := cpu.run_pushAndPop m src dst
    refine ⟨hfinal, ?_⟩
    rw [hfinal]
    exact ⟨Registers.stackPair_setStackPair .., by cases dst <;> rfl⟩
  · refine lastInFirstOut cpu s ?_ (storesAt_addressSpace hrange)
    -- Otherwise the stack would go round all of memory, the first byte included.
    refine Nat.le_of_not_lt fun hmany => ?_
    have hfirst := hrange 0 (mem_bytesBelow _ _ (by omega))
    exact absurd hfirst.1 (by decide)

def stackAtStart : Cpu := { powerOn with regs.sp := 0x0001 }

def stackBelowEcho : Cpu := { powerOn with regs.sp := 0xE000 }

theorem words_come_back_around_start :
    let words : List UInt16 := [0x1234, 0x5678]
    let ops := StackOp.thereAndBack words
    let pushed := (stackOps (ops.take 1) stackAtStart).run Memory.zero
    let popped := (stackOps ops stackAtStart).run Memory.zero
    let copied := (stackAtStart.pushAndPop .hl .af).run Memory.zero
    words.length ≤ 0x8000 ∧ (StackOp.left (ops.take 1) []).head? = some 0x1234 ∧
      pushed.1.2.regs.sp = 0xFFFF ∧ pushed.2.read 0xFFFF = 0x34 ∧ pushed.2.read 0x0000 = 0x12 ∧
      popped.1 = ([0x5678, 0x1234], stackAtStart) ∧ popped.2.read 0xFFFC = 0x00 ∧
      copied.1.regs.af = 0x0140 ∧
      (∀ addr ∈ bytesBelow stackBelowEcho.regs.sp 4, 0xC000 ≤ addr ∧ addr ≤ 0xDFFF) ∧
      ((stackOps ops stackBelowEcho).run (AddressSpace.powerOn none)).1 =
        ([0x5678, 0x1234], stackBelowEcho) := by
  intro words ops pushed popped copied
  have hwords : words.length ≤ 0x8000 := by decide
  have hhead : (StackOp.left (ops.take 1) []).head? = some 0x1234 := rfl
  have hrange : ∀ addr ∈ bytesBelow stackBelowEcho.regs.sp 4, 0xC000 ≤ addr ∧ addr ≤ 0xDFFF := by
    have hbytes : bytesBelow stackBelowEcho.regs.sp 4 = [0xDFFF, 0xDFFE, 0xDFFD, 0xDFFC] := by
      decide
    rw [hbytes]
    simp
  obtain ⟨hmemory, hpair, -⟩ := stack_is_last_in_first_out stackAtStart
  obtain ⟨-, -, hspace⟩ := stack_is_last_in_first_out stackBelowEcho
  obtain ⟨hpopped, htop, hkept⟩ := hmemory Memory.zero words hwords
  obtain ⟨hlow, hhigh⟩ := htop 1 0x1234 hhead
  have hnext : pushed.1.2.regs.sp + 1 = 0x0000 := by decide
  have hzero : Memory.zero.read 0xFFFC = 0x00 := by simp
  refine ⟨hwords, hhead, rfl, hlow, hnext ▸ hhigh, hpopped, ?_, ?_, hrange,
    (hspace (.powerOn none) words hrange).popped⟩
  · exact (hkept 0xFFFC (by decide)).trans hzero
  · exact ((hpair Memory.zero .hl .af).2.1).trans (by decide)

end Cpu

end DotMatrix
