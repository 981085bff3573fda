import DotMatrix.Cartridge.Basic
import Mathlib.Algebra.BigOperators.Group.List.Basic
import Mathlib.Data.UInt

namespace DotMatrix.Image

def total {G : Type} [AddCommGroup G] (weight : UInt8 → G) (bytes : Array UInt8) : G :=
  (bytes.toList.map weight).sum

section

variable {G : Type} [AddCommGroup G] (weight : UInt8 → G)

theorem total_append (xs ys : Array UInt8) :
    total weight (xs ++ ys) = total weight xs + total weight ys := by
  simp [total]

theorem total_replicate_zero (h : weight 0 = 0) (n : Nat) :
    total weight (.replicate n 0) = 0 := by
  simp [total, h]

theorem total_set (bytes : Array UInt8) (i : Nat) (b : UInt8) (hi : i < bytes.size) :
    total weight (bytes.set i b hi) = total weight bytes + (weight b - weight bytes[i]) := by
  have hlength : i < (bytes.toList.map weight).length := by simpa using hi
  rw [total, Array.toList_set, List.map_set, List.sum_set', dif_pos hlength]
  simp [total, neg_add_eq_sub]

theorem total_extract_set (image : Image) (i : Nat) (b : UInt8) (hi : i < image.size)
    (start stop : Nat) :
    total weight ((image.set i b hi).extract start stop) =
      total weight (image.extract start stop) +
        if start ≤ i ∧ i < stop then weight b - weight image[i] else 0 := by
  rw [Array.extract_set]
  -- The index is before the range, in it or after it.
  by_cases hstart : i < start
  · have hnot : ¬ (start ≤ i ∧ i < stop) := by omega
    simp [hstart, hnot]
  · by_cases hstop : i < stop
    · have hmin : i < min stop image.size := by omega
      have hadd : start + (i - start) = i := by omega
      rw [dif_neg hstart, dif_pos hmin, total_set, if_pos ⟨by omega, hstop⟩]
      simp [hadd]
    · have hmin : ¬ i < min stop image.size := by omega
      simp [hstart, hmin, hstop]

end

def headerWeight (b : UInt8) : UInt8 := -(b + 1)

theorem headerSum_eq_total (bytes : Array UInt8) : headerSum bytes = total headerWeight bytes := by
  rw [headerSum, total, ← Array.foldl_toList, List.sum_eq_foldl, List.foldl_map]
  congr
  funext sum b
  rw [headerWeight, sub_sub, sub_eq_add_neg]

theorem byteSum_eq_total (bytes : Array UInt8) : byteSum bytes = total UInt8.toUInt16 bytes := by
  rw [byteSum, total, ← Array.foldl_toList, List.sum_eq_foldl, List.foldl_map]

def InHeaderSum (i : Nat) : Prop := titleAddr ≤ i ∧ i < headerChecksumAddr

def InGlobalSum (i : Nat) : Prop := i < globalChecksumAddr ∨ headerEnd ≤ i

instance (i : Nat) : Decidable (InHeaderSum i) := inferInstanceAs (Decidable (_ ∧ _))

instance (i : Nat) : Decidable (InGlobalSum i) := inferInstanceAs (Decidable (_ ∨ _))

theorem inGlobalSum_iff {i : Nat} :
    InGlobalSum i ↔ i ≠ globalChecksumAddr ∧ i ≠ globalChecksumAddr + 1 := by
  unfold InGlobalSum headerEnd globalChecksumAddr
  omega

theorem headerChecksumAddr_lt : headerChecksumAddr < headerEnd := by decide

theorem globalChecksumAddr_lt : globalChecksumAddr + 1 < headerEnd := by decide

theorem headerEnd_le_pad (image : Image) : headerEnd ≤ (Cartridge.pad image).size :=
  Nat.le_trans (by decide) (Cartridge.window_le_pad image)

variable (image : Image)

theorem headerChecksum?_eq (h : headerEnd ≤ image.size) :
    image.headerChecksum? =
      some (total headerWeight (image.extract titleAddr headerChecksumAddr)) := by
  have hinside := headerChecksumAddr_lt
  rw [headerChecksum?, if_neg (by omega), headerSum_eq_total]

theorem globalChecksum?_eq (h : headerEnd ≤ image.size) :
    image.globalChecksum? =
      some (total UInt8.toUInt16 (image.extract 0 globalChecksumAddr) +
        total UInt8.toUInt16 (image.extract headerEnd)) := by
  rw [globalChecksum?, if_neg (by omega), byteSum_eq_total, byteSum_eq_total]

theorem headerChecksum?_set (h : headerEnd ≤ image.size) (i : Nat) (b : UInt8)
    (hi : i < image.size) :
    headerChecksum? (image.set i b hi) = image.headerChecksum?.map
      (· + if InHeaderSum i then headerWeight b - headerWeight image[i] else 0) := by
  rw [headerChecksum?_eq _ (by simpa using h), headerChecksum?_eq _ h, total_extract_set]
  rfl

theorem globalChecksum?_set (h : headerEnd ≤ image.size) (i : Nat) (b : UInt8)
    (hi : i < image.size) :
    globalChecksum? (image.set i b hi) = image.globalChecksum?.map
      (· + if InGlobalSum i then b.toUInt16 - image[i].toUInt16 else 0) := by
  rw [globalChecksum?_eq _ (by simpa using h), globalChecksum?_eq _ h, total_extract_set,
    total_extract_set, Array.size_set, Option.map_some]
  refine congrArg some ?_
  by_cases hlow : i < globalChecksumAddr
  · have hinside := globalChecksumAddr_lt
    have hnot : ¬ headerEnd ≤ i := by omega
    simp [InGlobalSum, hlow, hnot, add_right_comm]
  · simp [InGlobalSum, hlow, hi, add_assoc]

theorem headerChecksum?_pad (h : headerEnd ≤ image.size) :
    headerChecksum? (Cartridge.pad image) = image.headerChecksum? := by
  have hinside := headerChecksumAddr_lt
  have hstop : headerChecksumAddr - image.size = 0 := by omega
  rw [headerChecksum?_eq _ image.headerEnd_le_pad, headerChecksum?_eq _ h, Cartridge.pad,
    Array.extract_append, hstop, Array.extract_zero, Array.append_empty]

theorem globalChecksum?_pad (h : headerEnd ≤ image.size) :
    globalChecksum? (Cartridge.pad image) = image.globalChecksum? := by
  have hinside := globalChecksumAddr_lt
  have hstop : globalChecksumAddr - image.size = 0 := by omega
  have hend : image.extract headerEnd (Cartridge.pad image).size = image.extract headerEnd :=
    Array.extract_eq_extract_right.2 (by simp only [Cartridge.pad, Array.size_append]; omega)
  rw [globalChecksum?_eq _ image.headerEnd_le_pad, globalChecksum?_eq _ h, ← hend, Cartridge.pad,
    Array.extract_append, Array.extract_append, hstop, Array.extract_replicate]
  simp [total_append, total_replicate_zero]

end DotMatrix.Image
