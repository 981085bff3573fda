import DotMatrix.Proofs.Cartridge.Seal

namespace DotMatrix

theorem Header.byte_set {image : Image} (h : Image.headerEnd ≤ image.size) (i : Nat) (b : UInt8)
    (hi : i < image.size) (h' : Image.headerEnd ≤ (image.set i b hi).size) (addr : Nat)
    (inside : addr < Image.headerEnd) :
    byte (image.set i b hi) h' addr inside = if i = addr then b else byte image h addr inside :=
  Array.getElem_set hi _

namespace Image

structure DiffersAt (image changed : Image) (i : Nat) : Prop where
  size_eq : changed.size = image.size
  getElem?_eq_iff : ∀ j, changed[j]? = image[j]? ↔ j ≠ i

theorem DiffersAt.exists_eq_set {image changed : Image} {i : Nat} (h : DiffersAt image changed i) :
    ∃ (b : UInt8) (hi : i < image.size), b ≠ image[i] ∧ changed = image.set i b hi := by
  obtain ⟨hsize, hiff⟩ := h
  have hi : i < image.size := by
    refine Decidable.byContradiction fun hout => ?_
    refine (hiff i).1 ?_ rfl
    rw [Array.getElem?_eq_none (by omega), Array.getElem?_eq_none (by omega)]
  have hi' : i < changed.size := by omega
  refine ⟨changed[i], hi, ?_, ?_⟩
  · intro heq
    refine (hiff i).1 ?_ rfl
    rw [Array.getElem?_eq_getElem hi', Array.getElem?_eq_getElem hi, heq]
  · refine Array.ext (by simpa using hsize) fun j hj _ => ?_
    rw [Array.getElem_set]
    by_cases hij : i = j
    · simp [hij]
    · have hsame := (hiff j).2 (Ne.symm hij)
      rw [Array.getElem?_eq_getElem hj, Array.getElem?_eq_getElem (by omega)] at hsame
      rw [if_neg hij]
      exact Option.some.inj hsame

theorem DiffersAt.setIfInBounds {image : Image} {i : Nat} {b : UInt8} (hi : i < image.size)
    (hb : b ≠ image[i]) : DiffersAt image (image.setIfInBounds i b) i where
  size_eq := Array.size_setIfInBounds
  getElem?_eq_iff j := by
    by_cases hij : i = j
    · subst hij
      simp [hi, hb]
    · simp [Array.getElem?_setIfInBounds_ne hij, Ne.symm hij]

theorem headerWeight_injective : Function.Injective headerWeight := by
  intro a b h
  exact add_left_injective 1 (neg_injective h)

section

variable {image : Image} {h : headerEnd ≤ image.size} {i : Nat} {b : UInt8} {hi : i < image.size}

theorem headerChecksum?_corrupted (hv : image.Verifies h) (hb : b ≠ image[i])
    (h' : headerEnd ≤ (image.set i b hi).size) :
    headerChecksum? (image.set i b hi) =
        some (Header.byte (image.set i b hi) h' headerChecksumAddr (by decide)) ↔
      ¬ (titleAddr ≤ i ∧ i ≤ headerChecksumAddr) := by
  rw [headerChecksum?_set _ h, hv.header_eq, Option.map_some, Option.some_inj, Header.byte_set h]
  by_cases hsum : InHeaderSum i
  · have hne : i ≠ headerChecksumAddr := Nat.ne_of_lt hsum.2
    have hinside : titleAddr ≤ i ∧ i ≤ headerChecksumAddr := ⟨hsum.1, Nat.le_of_lt hsum.2⟩
    rw [if_pos hsum, if_neg hne, add_eq_left, sub_eq_zero, headerWeight_injective.eq_iff]
    exact iff_of_false hb (not_not_intro hinside)
  · by_cases haddr : i = headerChecksumAddr
    · subst haddr
      rw [if_neg hsum, if_pos rfl, add_zero]
      exact iff_of_false (Ne.symm hb) (not_not_intro ⟨by decide, Nat.le_refl _⟩)
    · rw [if_neg hsum, if_neg haddr, add_zero]
      refine iff_of_true rfl fun hinside => hsum ⟨hinside.1, ?_⟩
      exact Nat.lt_of_le_of_ne hinside.2 haddr

theorem globalChecksum?_corrupted (hv : image.Verifies h) (hb : b ≠ image[i])
    (h' : headerEnd ≤ (image.set i b hi).size) :
    globalChecksum? (image.set i b hi) ≠
      some (Header.word (image.set i b hi) h' globalChecksumAddr (by decide)) := by
  rw [globalChecksum?_set _ h, hv.global_eq, Option.map_some, ne_eq, Option.some_inj, Header.word_eq,
    Header.word_eq, Header.byte_set h, Header.byte_set h]
  intro heq
  by_cases hsum : InGlobalSum i
  · obtain ⟨hhigh, hlow⟩ := inGlobalSum_iff.1 hsum
    rw [if_pos hsum, if_neg hhigh, if_neg hlow, add_eq_left, sub_eq_zero, UInt8.toUInt16_inj] at heq
    exact hb heq
  -- The sum is as it was, so both stored bytes are.
  · rw [if_neg hsum, add_zero] at heq
    have hlow := congrArg Word.low heq
    have hhigh := congrArg Word.high heq
    rw [Word.low_combine, Word.low_combine] at hlow
    rw [Word.high_combine, Word.high_combine] at hhigh
    rw [inGlobalSum_iff, not_and_or, not_not, not_not] at hsum
    rcases hsum with rfl | rfl
    · rw [if_pos rfl] at hhigh
      exact hb hhigh.symm
    · rw [if_pos rfl] at hlow
      exact hb hlow.symm

end

/-- Whatever the byte, the global checksum of the changed image is wrong; its header checksum is
wrong exactly if the byte is in the range of the sum or is that checksum. -/
theorem corruption_is_detected {image changed : Image} {c : Cartridge} {i : Nat}
    (hload : Cartridge.load image = .ok c) (hheader : c.header.headerChecksumOk c.image)
    (hglobal : c.header.globalChecksumOk c.image) (hdiffers : DiffersAt image changed i) :
    ∃ c', Cartridge.load changed = .ok c' ∧ c'.header.globalChecksumOk c'.image = false ∧
      (c'.header.headerChecksumOk c'.image = false ↔ 0x134 ≤ i ∧ i ≤ 0x14D) := by
  obtain ⟨h, -⟩ := Cartridge.load_eq_ok_iff.1 hload
  have hverifies : image.Verifies h :=
    (Cartridge.verifies_iff_of_load h hload).2 ⟨hheader, hglobal⟩
  obtain ⟨b, hi, hb, rfl⟩ := hdiffers.exists_eq_set
  have h' : headerEnd ≤ (image.set i b hi).size := by simpa using h
  obtain ⟨c', hload'⟩ := Cartridge.exists_load h'
  refine ⟨c', hload', ?_, ?_⟩
  · rw [Bool.eq_false_iff, ne_eq, Cartridge.globalChecksumOk_iff_of_load h' hload']
    exact globalChecksum?_corrupted hverifies hb h'
  · rw [Bool.eq_false_iff, ne_eq, Cartridge.headerChecksumOk_iff_of_load h' hload',
      headerChecksum?_corrupted hverifies hb h', not_not]
    rfl

theorem shared_byte_corrupted :
    ∃ c, Cartridge.load sealedZeros = .ok c ∧ c.header.headerChecksumOk c.image ∧
      c.header.globalChecksumOk c.image ∧
      DiffersAt sealedZeros (sealedZeros.setIfInBounds 0x14E 1) 0x14E ∧
      ∃ c', Cartridge.load (sealedZeros.setIfInBounds 0x14E 1) = .ok c' ∧
        c'.header.globalChecksumOk c'.image = false ∧ c'.header.headerChecksumOk c'.image := by
  obtain ⟨h, hverifies⟩ := verifies_sealedZeros
  obtain ⟨c, hload⟩ := Cartridge.exists_load h
  obtain ⟨hheader, hglobal⟩ := (Cartridge.verifies_iff_of_load h hload).1 hverifies
  have hdiffers : DiffersAt sealedZeros (sealedZeros.setIfInBounds 0x14E 1) 0x14E := by
    refine DiffersAt.setIfInBounds (Nat.lt_of_lt_of_le (by decide) h) ?_
    simp [sealedZeros, headerEnd]
  obtain ⟨c', hload', hglobal', hheader'⟩ := corruption_is_detected hload hheader hglobal hdiffers
  refine ⟨c, hload, hheader, hglobal, hdiffers, c', hload', hglobal', ?_⟩
  exact Bool.eq_true_of_not_eq_false fun hfalse => absurd (hheader'.1 hfalse) (by decide)

end Image

end DotMatrix
