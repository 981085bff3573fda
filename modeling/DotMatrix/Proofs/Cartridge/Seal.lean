import DotMatrix.Proofs.Cartridge.Verdict

namespace DotMatrix.Image

def storeHeaderChecksum (image : Image) (b : UInt8) : Image :=
  image.setIfInBounds headerChecksumAddr b

def storeGlobalChecksum (image : Image) (w : UInt16) : Image :=
  (image.setIfInBounds globalChecksumAddr (Word.high w)).setIfInBounds (globalChecksumAddr + 1)
    (Word.low w)

/-- Stores both checksums, the global one last, since it covers the other. -/
def seal? (image : Image) : Option Image := do
  let b ← image.headerChecksum?
  let w ← (image.storeHeaderChecksum b).globalChecksum?
  return (image.storeHeaderChecksum b).storeGlobalChecksum w

@[simp] theorem size_storeHeaderChecksum (image : Image) (b : UInt8) :
    (image.storeHeaderChecksum b).size = image.size := by
  simp [storeHeaderChecksum]

@[simp] theorem size_storeGlobalChecksum (image : Image) (w : UInt16) :
    (image.storeGlobalChecksum w).size = image.size := by
  simp [storeGlobalChecksum]

theorem headerChecksum?_setIfInBounds {image : Image} (h : headerEnd ≤ image.size) {i : Nat}
    (hi : ¬ InHeaderSum i) (b : UInt8) :
    headerChecksum? (image.setIfInBounds i b) = image.headerChecksum? := by
  rw [Array.setIfInBounds_def]
  split
  · rw [headerChecksum?_set _ h, if_neg hi]
    simp
  · rfl

theorem globalChecksum?_setIfInBounds {image : Image} (h : headerEnd ≤ image.size) {i : Nat}
    (hi : ¬ InGlobalSum i) (b : UInt8) :
    globalChecksum? (image.setIfInBounds i b) = image.globalChecksum? := by
  rw [Array.setIfInBounds_def]
  split
  · rw [globalChecksum?_set _ h, if_neg hi]
    simp
  · rfl

section

variable {image : Image} (h : headerEnd ≤ image.size)

include h

theorem headerChecksum?_storeHeaderChecksum (b : UInt8) :
    (image.storeHeaderChecksum b).headerChecksum? = image.headerChecksum? :=
  headerChecksum?_setIfInBounds h (by decide) b

theorem headerChecksum?_storeGlobalChecksum (w : UInt16) :
    (image.storeGlobalChecksum w).headerChecksum? = image.headerChecksum? := by
  rw [storeGlobalChecksum, headerChecksum?_setIfInBounds (by simpa using h) (by decide),
    headerChecksum?_setIfInBounds h (by decide)]

theorem globalChecksum?_storeGlobalChecksum (w : UInt16) :
    (image.storeGlobalChecksum w).globalChecksum? = image.globalChecksum? := by
  rw [storeGlobalChecksum, globalChecksum?_setIfInBounds (by simpa using h) (by decide),
    globalChecksum?_setIfInBounds h (by decide)]

theorem byte_storeHeaderChecksum (b : UInt8) (h' : headerEnd ≤ (image.storeHeaderChecksum b).size) :
    Header.byte (image.storeHeaderChecksum b) h' headerChecksumAddr (by decide) = b :=
  (Header.byte_setIfInBounds h _ b h' _ _).trans (if_pos rfl)

theorem byte_storeGlobalChecksum (w : UInt16) (h' : headerEnd ≤ (image.storeGlobalChecksum w).size)
    (addr : Nat) (inside : addr < headerEnd) :
    Header.byte (image.storeGlobalChecksum w) h' addr inside =
      if globalChecksumAddr + 1 = addr then Word.low w
      else if globalChecksumAddr = addr then Word.high w
      else Header.byte image h addr inside := by
  have hsize : headerEnd ≤ (image.setIfInBounds globalChecksumAddr (Word.high w)).size := by
    simpa using h
  rw [← Header.byte_setIfInBounds h _ _ hsize]
  exact Header.byte_setIfInBounds hsize _ _ h' _ _

theorem word_storeGlobalChecksum (w : UInt16) (h' : headerEnd ≤ (image.storeGlobalChecksum w).size) :
    Header.word (image.storeGlobalChecksum w) h' globalChecksumAddr (by decide) = w := by
  rw [Header.word_eq, byte_storeGlobalChecksum h, byte_storeGlobalChecksum h, if_pos rfl,
    if_neg (by decide), if_pos rfl, Word.combine_low_high]

theorem exists_seal? : ∃ (sealed : Image) (h' : headerEnd ≤ sealed.size),
    image.seal? = some sealed ∧ sealed.Verifies h' := by
  have h₁ (b : UInt8) : headerEnd ≤ (image.storeHeaderChecksum b).size := by simpa using h
  obtain ⟨b, hb⟩ : ∃ b, image.headerChecksum? = some b := ⟨_, headerChecksum?_eq image h⟩
  obtain ⟨w, hw⟩ : ∃ w, (image.storeHeaderChecksum b).globalChecksum? = some w :=
    ⟨_, globalChecksum?_eq _ (h₁ b)⟩
  refine ⟨(image.storeHeaderChecksum b).storeGlobalChecksum w, by simpa using h, ?_, ?_, ?_⟩
  · simp [seal?, hb, hw]
  · rw [headerChecksum?_storeGlobalChecksum (h₁ b), headerChecksum?_storeHeaderChecksum h, hb,
      byte_storeGlobalChecksum (h₁ b), if_neg (by decide), if_neg (by decide),
      byte_storeHeaderChecksum h]
  · rw [globalChecksum?_storeGlobalChecksum (h₁ b), hw, word_storeGlobalChecksum (h₁ b)]

end

theorem Verifies.seal?_eq {image : Image} {h : headerEnd ≤ image.size} (hv : image.Verifies h) :
    image.seal? = some image := by
  have hheader : image.storeHeaderChecksum (Header.byte image h headerChecksumAddr (by decide)) =
      image := Header.setIfInBounds_byte h _ _
  have hglobal : image.storeGlobalChecksum (Header.word image h globalChecksumAddr (by decide)) =
      image := by
    rw [storeGlobalChecksum, Header.word_eq, Word.low_combine, Word.high_combine,
      Header.setIfInBounds_byte, Header.setIfInBounds_byte]
  simp [seal?, hv.header_eq, hv.global_eq, hheader, hglobal]

def sealedZeros : Image :=
  (((Array.replicate headerEnd 0).setIfInBounds 0x14D 0xE7).setIfInBounds 0x14E 0x00).setIfInBounds
    0x14F 0xE7

theorem headerEnd_le_zeros : headerEnd ≤ (Array.replicate headerEnd 0 : Image).size := by simp

theorem headerChecksum?_zeros : headerChecksum? (.replicate headerEnd 0) = some 0xE7 := by
  have hrange : min headerChecksumAddr headerEnd - titleAddr = 25 := rfl
  rw [headerChecksum?_eq _ headerEnd_le_zeros, Array.extract_replicate, hrange, ← headerSum_eq_total]
  decide

theorem globalChecksum?_zeros : globalChecksum? (.replicate headerEnd 0) = some 0 := by
  rw [globalChecksum?_eq _ headerEnd_le_zeros, Array.extract_replicate, Array.extract_replicate,
    total_replicate_zero _ rfl, total_replicate_zero _ rfl]
  rfl

theorem seal?_zeros : seal? (.replicate headerEnd 0) = some sealedZeros := by
  have hglobal : globalChecksum? (storeHeaderChecksum (.replicate headerEnd 0) 0xE7) =
      some 0xE7 := by
    rw [storeHeaderChecksum, Array.setIfInBounds_def, dif_pos (by simp [headerChecksumAddr_lt]),
      globalChecksum?_set _ headerEnd_le_zeros, globalChecksum?_zeros, if_pos (by decide)]
    simp
  rw [seal?, headerChecksum?_zeros, Option.bind_eq_bind, Option.bind_some, hglobal]
  rfl

theorem verifies_sealedZeros : ∃ h, sealedZeros.Verifies h := by
  obtain ⟨sealed, h, hseal, hverifies⟩ := exists_seal? headerEnd_le_zeros
  obtain rfl : sealedZeros = sealed := Option.some.inj (seal?_zeros.symm.trans hseal)
  exact ⟨h, hverifies⟩

/-- Every image with a header can be sealed so that it loads with both verdicts good, and the zeros
that fill an image up never have a part in a verdict. -/
theorem sealed_image_verifies (image : Image) (h : headerEnd ≤ image.size) :
    (∃ sealed c front, image.seal? = some sealed ∧ Cartridge.load sealed = .ok c ∧
      c.header.headerChecksumOk c.image ∧ c.header.globalChecksumOk c.image ∧
      c.report = front ++
        ("\nHeader checksum: 0x" ++ Hex.ofByte c.header.headerChecksumByte ++ " ok") ++
        ("\nGlobal checksum: 0x" ++ Hex.ofWord c.header.globalChecksum ++ " ok\n") ∧
      sealed.seal? = some sealed) ∧
    ∃ c, Cartridge.load image = .ok c ∧ c.image = Cartridge.pad image ∧
      c.image.headerChecksum? = image.headerChecksum? ∧
      c.image.globalChecksum? = image.globalChecksum? ∧
      c.header.headerChecksumOk c.image = c.header.headerChecksumOk image ∧
      c.header.globalChecksumOk c.image = c.header.globalChecksumOk image := by
  constructor
  · obtain ⟨sealed, h', hseal, hverifies⟩ := exists_seal? h
    obtain ⟨c, hload⟩ := Cartridge.exists_load h'
    obtain ⟨hheader, hglobal⟩ := (Cartridge.verifies_iff_of_load h' hload).1 hverifies
    obtain ⟨front, hreport⟩ := c.report_eq
    refine ⟨sealed, c, front, hseal, hload, hheader, hglobal, ?_, hverifies.seal?_eq⟩
    rw [hreport, hheader, hglobal]
    simp [Report.verdict, String.append_assoc]
  · obtain ⟨c, hload⟩ := Cartridge.exists_load h
    have hheader := Cartridge.headerChecksum?_of_load hload
    have hglobal := Cartridge.globalChecksum?_of_load hload
    refine ⟨c, hload, Cartridge.image_of_load hload, hheader, hglobal, ?_, ?_⟩
    · rw [Header.headerChecksumOk, Header.headerChecksumOk, hheader]
    · rw [Header.globalChecksumOk, Header.globalChecksumOk, hglobal]

theorem zeros_seal :
    headerEnd ≤ (Array.replicate headerEnd 0 : Image).size ∧
      ∃ c front, seal? (.replicate headerEnd 0) = some sealedZeros ∧
        Cartridge.load sealedZeros = .ok c ∧ c.header.headerChecksumOk c.image ∧
        c.header.globalChecksumOk c.image ∧
        c.report = front ++
          ("\nHeader checksum: 0x" ++ Hex.ofByte c.header.headerChecksumByte ++ " ok") ++
          ("\nGlobal checksum: 0x" ++ Hex.ofWord c.header.globalChecksum ++ " ok\n") := by
  obtain ⟨⟨sealed, c, front, hseal, hload, hheader, hglobal, hreport, -⟩, -⟩ :=
    sealed_image_verifies _ headerEnd_le_zeros
  obtain rfl : sealedZeros = sealed := Option.some.inj (seal?_zeros.symm.trans hseal)
  exact ⟨headerEnd_le_zeros, c, front, hseal, hload, hheader, hglobal, hreport⟩

end DotMatrix.Image
