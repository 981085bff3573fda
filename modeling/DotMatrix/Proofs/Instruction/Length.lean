import DotMatrix.Instruction.Mnemonic

namespace DotMatrix

def Names (text kind : String) : Prop := kind.toList <:+: text.toList

instance (text kind : String) : Decidable (Names text kind) :=
  inferInstanceAs (Decidable (_ <:+: _))

def immediateBytes (text : String) : Nat :=
  (if Names text "d8" ∨ Names text "a8" ∨ Names text "r8" then 1 else 0) +
    (if Names text "d16" ∨ Names text "a16" then 2 else 0)

def Upper (text : String) : Prop := ∀ c ∈ text.toList, c.isLower = false

instance (text : String) : Decidable (Upper text) :=
  List.decidableBAll (fun c : Char => c.isLower = false) text.toList

theorem Upper.append {s t : String} (hs : Upper s) (ht : Upper t) : Upper (s ++ t) := by
  intro c hc
  rw [String.toList_append] at hc
  exact (List.mem_append.1 hc).elim (hs c) (ht c)

theorem Upper.immediateBytes_eq_zero {text : String} (h : Upper text) :
    immediateBytes text = 0 := by
  have hnames (kind : String) (c : Char) (hc : c ∈ kind.toList) (hlower : c.isLower) :
      ¬ Names text kind := by
    intro hinfix
    have hmem : c ∈ text.toList := hinfix.mem hc
    simp [h c hmem] at hlower
  have hd8 := hnames "d8" 'd' (by decide +kernel) rfl
  have ha8 := hnames "a8" 'a' (by decide +kernel) rfl
  have hr8 := hnames "r8" 'r' (by decide +kernel) rfl
  have hd16 := hnames "d16" 'd' (by decide +kernel) rfl
  have ha16 := hnames "a16" 'a' (by decide +kernel) rfl
  simp [immediateBytes, hd8, ha8, hr8, hd16, ha16]

theorem upper_operand (o : Operand) : Upper o.name := by
  cases o with
  | reg r => cases r <;> decide +kernel
  | atHL => decide +kernel

theorem upper_head (op : AluOp) : Upper op.head := by
  cases op <;> decide +kernel

theorem upper_hex (b : UInt8) : Upper (Hex.ofByte b) := by
  have hdigit : ∀ n : Fin 16, (Hex.digit n).isLower = false := by decide
  intro c hc
  rw [Hex.ofByte, String.toList_ofList] at hc
  obtain rfl | rfl : c = Hex.digit (b.toNat / 16 % 16) ∨ c = Hex.digit (b.toNat % 16) := by
    simpa [Hex.digits] using hc
  · exact hdigit ⟨_, Nat.mod_lt _ (by decide)⟩
  · exact hdigit ⟨_, Nat.mod_lt _ (by decide)⟩

namespace Instruction

/-- The bytes of an instruction, by its text. Neither the padding of a stop nor the opcode of the
second page is in a text. -/
def length : Instruction → Nat
  | stop | extended => 2
  | i => 1 + immediateBytes i.mnemonic

def following : Instruction → Nat
  | stop | extended => 1
  | loadHlSp | loadImm _ | storeHigh | loadHigh | aluImm _ | addSp | jr _ => 1
  | loadPair _ | loadAbsSp | storeAbs | loadAbs | jp _ | call _ => 2
  | _ => 0

theorem upper_load (dst src : Operand) : Upper (load dst src).mnemonic :=
  ((Upper.append (by decide +kernel) (upper_operand dst)).append (by decide +kernel)).append
    (upper_operand src)

theorem upper_alu (op : AluOp) (src : Operand) : Upper (alu op src).mnemonic :=
  (upper_head op).append (upper_operand src)

theorem upper_rst (vector : UInt8) : Upper (rst vector).mnemonic :=
  (Upper.append (by decide +kernel) (upper_hex vector)).append (by decide +kernel)

theorem length_eq (i : Instruction) : i.length = 1 + i.following := by
  cases i with
  | load dst src => exact congrArg (1 + ·) (upper_load dst src).immediateBytes_eq_zero
  | alu op src => exact congrArg (1 + ·) (upper_alu op src).immediateBytes_eq_zero
  | rst vector => exact congrArg (1 + ·) (upper_rst vector).immediateBytes_eq_zero
  | loadPair p | incPair p | decPair p | addHl p | push p | pop p | storeA p | loadA p =>
    cases p <;> decide +kernel
  | aluImm op | rotateA op => cases op <;> decide +kernel
  | loadImm o | inc o | dec o =>
    cases o with
    | reg r => cases r <;> decide +kernel
    | atHL => decide +kernel
  | jr cond | jp cond | call cond | ret cond =>
    cases cond with
    | none => decide +kernel
    | some cc => cases cc <;> decide +kernel
  | _ => decide +kernel

end Instruction

end DotMatrix
