import DotMatrix.Cpu.Arithmetic
import DotMatrix.Instruction.Decode
import Mathlib.Data.List.Induction

namespace DotMatrix

def Operand.code : Operand → UInt8
  | reg .b => 0
  | reg .c => 1
  | reg .d => 2
  | reg .e => 3
  | reg .h => 4
  | reg .l => 5
  | atHL => 6
  | reg .a => 7

namespace ShiftOp

def code : ShiftOp → UInt8
  | rlc => 0
  | rrc => 1
  | rl => 2
  | rr => 3
  | sla => 4
  | sra => 5
  | swap => 6
  | srl => 7

def joined (carry : Bool) (value : UInt8) : BitVec 9 := value.toBitVec.cons carry

def Makes (op : ShiftOp) (value : UInt8) (carry : Bool) (result : UInt8) (out : Bool) : Prop :=
  match op with
  | rlc => result.toBitVec = value.toBitVec.rotateLeft 1 ∧ out = value.toNat.testBit 7
  | rrc => result.toBitVec = value.toBitVec.rotateRight 1 ∧ out = value.toNat.testBit 0
  | rl => joined out result = (joined carry value).rotateLeft 1
  | rr => joined out result = (joined carry value).rotateRight 1
  | sla => result.toNat = 2 * value.toNat % 0x100 ∧ out = value.toNat.testBit 7
  | sra => Byte.signed result = Byte.signed value / 2 ∧ out = value.toNat.testBit 0
  | swap => result.toBitVec = value.toBitVec.rotateLeft 4 ∧ out = false
  | srl => result.toNat = value.toNat / 2 ∧ out = value.toNat.testBit 0

theorem makes_shift (op : ShiftOp) (value : UInt8) (carry : Bool) :
    op.Makes value carry (op.shift value carry).1 (op.shift value carry).2 := by
  cases op with
  | rlc => exact ⟨rfl, Byte.bit_eq 7 value⟩
  | rrc => exact ⟨rfl, Byte.bit_eq 0 value⟩
  | rl =>
    change joined _ _ = (joined carry value).rotateLeft 1
    obtain ⟨⟨n⟩⟩ := value
    revert n carry
    decide +kernel
  | rr =>
    change joined _ _ = (joined carry value).rotateRight 1
    obtain ⟨⟨n⟩⟩ := value
    revert n carry
    decide +kernel
  | sla =>
    refine ⟨?_, Byte.bit_eq 7 value⟩
    rw [shift, UInt8.toNat_shiftLeft, Nat.shiftLeft_eq, Nat.mul_comm]
    rfl
  | sra =>
    refine ⟨?_, Byte.bit_eq 0 value⟩
    rw [shift]
    obtain ⟨⟨n⟩⟩ := value
    revert n
    decide +kernel
  | swap => exact ⟨rfl, rfl⟩
  | srl =>
    refine ⟨?_, Byte.bit_eq 0 value⟩
    rw [shift, UInt8.toNat_shiftRight, Nat.shiftRight_eq_div_pow]
    rfl

theorem eq_of_joined_eq {carry out : Bool} {value result : UInt8}
    (h : joined out result = joined carry value) : (result, out) = (value, carry) := by
  have hout := congrArg BitVec.msb h
  have hresult := congrArg (BitVec.setWidth 8) h
  rw [joined, joined, BitVec.msb_cons, BitVec.msb_cons] at hout
  rw [joined, joined, BitVec.setWidth_cons, BitVec.setWidth_cons] at hresult
  rw [hout, UInt8.toBitVec_inj.1 hresult]

theorem rotateRight_rotateLeft (x : BitVec 9) : (x.rotateLeft 1).rotateRight 1 = x := by
  apply BitVec.eq_of_getLsbD_eq
  intro i hi
  simp only [BitVec.getLsbD_rotateRight, BitVec.getLsbD_rotateLeft, hi]
  grind

theorem shift_rr_shift_rl (value : UInt8) (carry : Bool) :
    rr.shift (rl.shift value carry).1 (rl.shift value carry).2 = (value, carry) := by
  generalize hturned : rl.shift value carry = turned
  generalize hback : rr.shift turned.1 turned.2 = back
  have hleft : joined turned.2 turned.1 = (joined carry value).rotateLeft 1 :=
    hturned ▸ rl.makes_shift value carry
  have hright : joined back.2 back.1 = (joined turned.2 turned.1).rotateRight 1 :=
    hback ▸ rr.makes_shift turned.1 turned.2
  rw [hleft, rotateRight_rotateLeft] at hright
  exact eq_of_joined_eq hright

end ShiftOp

namespace ExtendedInstruction

def operand : ExtendedInstruction → Operand
  | shift _ dst => dst
  | bit _ src => src
  | res _ dst => dst
  | set _ dst => dst

/-- The byte that selects an instruction. Only the low three bits of an index count. -/
def code : ExtendedInstruction → UInt8
  | shift op dst => 8 * op.code + dst.code
  | bit index src => 0x40 + 8 * (index % 8) + src.code
  | res index dst => 0x80 + 8 * (index % 8) + dst.code
  | set index dst => 0xC0 + 8 * (index % 8) + dst.code

theorem code_decode (opcode : UInt8) : (decode opcode).code = opcode := by
  obtain ⟨⟨n⟩⟩ := opcode
  revert n
  decide +kernel

theorem decode_code_shift (op : ShiftOp) (o : Operand) :
    decode (shift op o).code = shift op o := by
  cases o with
  | reg r => cases op <;> cases r <;> rfl
  | atHL => cases op <;> rfl

def perform (i : ExtendedInstruction) (value : UInt8) (f : Flags) : UInt8 × Flags :=
  match i with
  | shift op _ => op.apply value f.c
  | bit index _ => (value, ((f.set .z !Byte.bit index value).set .n false).set .h true)
  | res index _ => (Byte.clearBit index value, f)
  | set index _ => (Byte.setBit index value, f)

def Performs (i : ExtendedInstruction) (value : UInt8) (f : Flags) (result : UInt8) (g : Flags) :
    Prop :=
  match i with
  | shift op _ => ∃ out, op.Makes value f.c result out ∧ g = .ofBits (result == 0) false false out
  | bit index _ =>
    result = value ∧ g = .ofBits (!value.toNat.testBit (index.toNat % 8)) false true f.c
  | res index _ =>
    (∀ k < 8, result.toNat.testBit k = (value.toNat.testBit k && k != index.toNat % 8)) ∧ g = f
  | set index _ =>
    (∀ k < 8, result.toNat.testBit k = (value.toNat.testBit k || k == index.toNat % 8)) ∧ g = f

theorem performs_perform (i : ExtendedInstruction) (value : UInt8) (f : Flags) :
    i.Performs value f (i.perform value f).1 (i.perform value f).2 := by
  cases i with
  | shift op dst => exact ⟨_, op.makes_shift value f.c, rfl⟩
  | bit index src =>
    refine ⟨rfl, Flags.ext_get fun flag => ?_⟩
    cases flag <;> simp [perform, Byte.bit_eq]
  | res index dst => exact ⟨fun k => Byte.testBit_clearBit index value, rfl⟩
  | set index dst => exact ⟨fun k _ => Byte.testBit_setBit index value k, rfl⟩

def encode (program : List ExtendedInstruction) : List UInt8 :=
  program.flatMap fun i => [0xCB, i.code]

def performAll (program : List ExtendedInstruction) (value : UInt8) (f : Flags) : UInt8 × Flags :=
  program.foldl (fun made i => i.perform made.1 made.2) (value, f)

def edit (o : Operand) : Fin 8 × Bool → ExtendedInstruction
  | (index, true) => set (.ofNat index) o
  | (index, false) => res (.ofNat index) o

def lastGiven (k : Fin 8) (edits : List (Fin 8 × Bool)) : Option Bool :=
  (edits.filter (·.1 = k)).getLast?.map Prod.snd

section

variable (o : Operand) (value : UInt8) (f : Flags)

theorem decode_code_edit (e : Fin 8 × Bool) : decode (edit o e).code = edit o e := by
  obtain ⟨index, given⟩ := e
  revert given index
  cases o with
  | reg r => cases r <;> decide
  | atHL => decide

theorem operand_edit (e : Fin 8 × Bool) : (edit o e).operand = o := by
  obtain ⟨index, given⟩ := e
  cases given <;> rfl

theorem perform_edit_snd (e : Fin 8 × Bool) : ((edit o e).perform value f).2 = f := by
  obtain ⟨index, given⟩ := e
  cases given <;> rfl

theorem testBit_perform_edit (e : Fin 8 × Bool) (k : Fin 8) :
    ((edit o e).perform value f).1.toNat.testBit k =
      if e.1 = k then e.2 else value.toNat.testBit k := by
  obtain ⟨index, given⟩ := e
  have hindex : (UInt8.ofNat index).toNat % 8 = index := by
    rw [UInt8.toNat_ofNat']
    omega
  have hnamed : ((k : Nat) == (UInt8.ofNat index).toNat % 8) = decide (index = k) := by
    rw [hindex, Bool.eq_iff_iff, beq_iff_eq, decide_eq_true_iff, Fin.val_inj, eq_comm]
  cases given with
  | true =>
    refine (Byte.testBit_setBit ..).trans ?_
    rw [hnamed]
    by_cases h : index = k <;> simp [h]
  | false =>
    refine (Byte.testBit_clearBit _ _ k.isLt).trans ?_
    rw [bne, hnamed]
    by_cases h : index = k <;> simp [h]

theorem performAll_rl_rr :
    performAll [shift .rl o, shift .rr o] value f =
      (value, .ofBits (value == 0) false false f.c) := by
  have hback := ShiftOp.shift_rr_shift_rl value f.c
  simp only [performAll, perform, ShiftOp.apply, List.foldl_cons, List.foldl_nil, Flags.get_ofBits,
    hback]

theorem performAll_edits (edits : List (Fin 8 × Bool)) :
    (performAll (edits.map (edit o)) value f).2 = f ∧
      ∀ k : Fin 8, (performAll (edits.map (edit o)) value f).1.toNat.testBit k =
        (lastGiven k edits).getD (value.toNat.testBit k) := by
  induction edits using List.reverseRecOn with
  | nil => exact ⟨rfl, fun _ => rfl⟩
  | append_singleton edits e ih =>
    obtain ⟨hflags, hbits⟩ := ih
    have happend : performAll ((edits ++ [e]).map (edit o)) value f =
        (edit o e).perform (performAll (edits.map (edit o)) value f).1
          (performAll (edits.map (edit o)) value f).2 := by
      simp [performAll]
    rw [happend]
    refine ⟨(perform_edit_snd ..).trans hflags, fun k => ?_⟩
    rw [testBit_perform_edit, hbits]
    by_cases h : e.1 = k <;> simp [lastGiven, h]

end

end ExtendedInstruction

end DotMatrix
