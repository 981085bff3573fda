import DotMatrix.Cpu.Flags
import DotMatrix.Instruction.Basic

namespace DotMatrix

structure Registers where
  a : UInt8
  f : Flags
  b : UInt8
  c : UInt8
  d : UInt8
  e : UInt8
  h : UInt8
  l : UInt8
  sp : UInt16
  pc : UInt16
  deriving DecidableEq

namespace Registers

def af (r : Registers) : UInt16 := Word.combine (r.f.toByte &&& 0xF0) r.a

def bc (r : Registers) : UInt16 := Word.combine r.c r.b

def de (r : Registers) : UInt16 := Word.combine r.e r.d

def hl (r : Registers) : UInt16 := Word.combine r.l r.h

def setAf (r : Registers) (w : UInt16) : Registers :=
  { r with a := Word.high w, f := .ofByte (Word.low w) }

def setBc (r : Registers) (w : UInt16) : Registers := { r with b := Word.high w, c := Word.low w }

def setDe (r : Registers) (w : UInt16) : Registers := { r with d := Word.high w, e := Word.low w }

def setHl (r : Registers) (w : UInt16) : Registers := { r with h := Word.high w, l := Word.low w }

def get (r : Registers) : Reg8 → UInt8
  | .a => r.a
  | .b => r.b
  | .c => r.c
  | .d => r.d
  | .e => r.e
  | .h => r.h
  | .l => r.l

def set (r : Registers) (dst : Reg8) (value : UInt8) : Registers :=
  match dst with
  | .a => { r with a := value }
  | .b => { r with b := value }
  | .c => { r with c := value }
  | .d => { r with d := value }
  | .e => { r with e := value }
  | .h => { r with h := value }
  | .l => { r with l := value }

def pair (r : Registers) : Pair → UInt16
  | .bc => r.bc
  | .de => r.de
  | .hl => r.hl
  | .sp => r.sp

def setPair (r : Registers) (dst : Pair) (w : UInt16) : Registers :=
  match dst with
  | .bc => r.setBc w
  | .de => r.setDe w
  | .hl => r.setHl w
  | .sp => { r with sp := w }

def stackPair (r : Registers) : StackPair → UInt16
  | .bc => r.bc
  | .de => r.de
  | .hl => r.hl
  | .af => r.af

def setStackPair (r : Registers) (dst : StackPair) (w : UInt16) : Registers :=
  match dst with
  | .bc => r.setBc w
  | .de => r.setDe w
  | .hl => r.setHl w
  | .af => r.setAf w

def target (r : Registers) : Pointer → UInt16
  | .bc => r.bc
  | .de => r.de
  | .hlInc | .hlDec => r.hl

def step (r : Registers) : Pointer → Registers
  | .bc | .de => r
  | .hlInc => r.setHl (r.hl + 1)
  | .hlDec => r.setHl (r.hl - 1)

def holds (r : Registers) : Condition → Bool
  | .nz => !r.f.z
  | .z => r.f.z
  | .nc => !r.f.c
  | .c => r.f.c

@[simp] theorem get_set_self (r : Registers) (dst : Reg8) (value : UInt8) :
    (r.set dst value).get dst = value := by
  cases dst <;> rfl

theorem get_set (r : Registers) (dst src : Reg8) (value : UInt8) :
    (r.set dst value).get src = if dst = src then value else r.get src := by
  cases dst <;> cases src <;> rfl

@[simp] theorem pc_set (r : Registers) (dst : Reg8) (value : UInt8) :
    (r.set dst value).pc = r.pc := by
  cases dst <;> rfl

theorem low_af (r : Registers) : Word.low r.af = r.f.toByte := by
  rw [af, Word.low_combine, Flags.toByte_and_high]

@[simp] theorem hl_setHl (r : Registers) (w : UInt16) : (r.setHl w).hl = w :=
  Word.combine_low_high w

@[simp] theorem pc_setHl (r : Registers) (w : UInt16) : (r.setHl w).pc = r.pc := rfl

@[simp] theorem pc_setPair (r : Registers) (dst : Pair) (w : UInt16) :
    (r.setPair dst w).pc = r.pc := by
  cases dst <;> rfl

@[simp] theorem pc_setStackPair (r : Registers) (dst : StackPair) (w : UInt16) :
    (r.setStackPair dst w).pc = r.pc := by
  cases dst <;> rfl

@[simp] theorem pc_step (r : Registers) (p : Pointer) : (r.step p).pc = r.pc := by
  cases p <;> rfl

end Registers

end DotMatrix
