import DotMatrix.Proofs.Text.Lines
import DotMatrix.Text.Hex
import Mathlib.Algebra.Ring.Nat

namespace DotMatrix.Hex

def digitValue (c : Char) : Nat :=
  if c.toNat < 'A'.toNat then c.toNat - '0'.toNat else c.toNat - 'A'.toNat + 10

def value (digits : List Char) : Nat := digits.foldl (fun n c => 16 * n + digitValue c) 0

variable {width n : Nat}

theorem digitValue_digit (h : n < 16) : digitValue (digit n) = n :=
  (by decide : ∀ n < 16, digitValue (digit n) = n) n h

@[simp] theorem length_digits (width n : Nat) : (digits width n).length = width := by
  induction width generalizing n with
  | zero => rfl
  | succ width ih => rw [digits, List.length_append, ih, List.length_singleton]

theorem value_digits (width n : Nat) : value (digits width n) = n % 16 ^ width := by
  induction width generalizing n with
  | zero => rw [Nat.pow_zero, Nat.mod_one]; rfl
  | succ width ih =>
    have hdigit : digitValue (digit (n % 16)) = n % 16 :=
      digitValue_digit (Nat.mod_lt _ (by decide))
    rw [digits, value, List.foldl_append, ← value, ih, List.foldl_cons, List.foldl_nil, hdigit,
      Nat.pow_succ, Nat.mul_comm _ 16, Nat.mod_mul, Nat.add_comm]

theorem value_ofWord (w : UInt16) : value (ofWord w).toList = w.toNat := by
  rw [ofWord, String.toList_ofList, value_digits]
  exact Nat.mod_eq_of_lt w.toNat_lt

theorem ofWord_injective : Function.Injective ofWord := by
  intro w w' h
  have hvalue := congrArg (fun s => value s.toList) h
  simp only [value_ofWord] at hvalue
  exact UInt16.toNat_inj.1 hvalue

theorem exists_of_mem_digits {c : Char} (h : c ∈ digits width n) : ∃ d < 16, c = digit d := by
  induction width generalizing n with
  | zero => exact absurd h List.not_mem_nil
  | succ width ih =>
    rcases List.mem_append.1 h with h | h
    · exact ih h
    · exact ⟨n % 16, Nat.mod_lt _ (by decide), List.mem_singleton.1 h⟩

theorem not_mem_digits {c : Char} (h : ∀ d < 16, digit d ≠ c) : c ∉ digits width n := by
  intro hmem
  obtain ⟨d, hd, rfl⟩ := exists_of_mem_digits hmem
  exact h d hd rfl

theorem plain_digits (width n : Nat) : Plain (.ofList (digits width n)) := by
  intro c hc
  rw [String.toList_ofList] at hc
  obtain ⟨d, hd, rfl⟩ := exists_of_mem_digits hc
  exact (by decide : ∀ d < 16, ' ' ≤ digit d ∧ digit d ≤ '~') d hd

theorem plain_ofByte (b : UInt8) : Plain (ofByte b) := plain_digits 2 b.toNat

theorem plain_ofWord (w : UInt16) : Plain (ofWord w) := plain_digits 4 w.toNat

end DotMatrix.Hex
