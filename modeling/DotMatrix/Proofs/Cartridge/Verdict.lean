import DotMatrix.Cartridge.Report
import DotMatrix.Proofs.Cartridge.Checksum

namespace DotMatrix

namespace Header

variable {image : Image} (h : Image.headerEnd ≤ image.size)

theorem byte_setIfInBounds (i : Nat) (b : UInt8)
    (h' : Image.headerEnd ≤ (image.setIfInBounds i b).size) (addr : Nat)
    (inside : addr < Image.headerEnd) :
    byte (image.setIfInBounds i b) h' addr inside = if i = addr then b else byte image h addr inside :=
  Array.getElem_setIfInBounds _

theorem setIfInBounds_byte (addr : Nat) (inside : addr < Image.headerEnd) :
    image.setIfInBounds addr (byte image h addr inside) = image := by
  rw [Array.setIfInBounds_def, dif_pos (Nat.lt_of_lt_of_le inside h)]
  exact Array.set_getElem_self _

theorem word_eq (addr : Nat) (inside : addr + 1 < Image.headerEnd) :
    word image h addr inside =
      Word.combine (byte image h (addr + 1) inside) (byte image h addr (by omega)) := rfl

theorem headerChecksumByte_ofImage : (ofImage image h).headerChecksumByte =
    byte image h Image.headerChecksumAddr (by decide) := Word.high_combine _ _

end Header

/-- The checksums that an image stores are those computed from it. -/
structure Image.Verifies (image : Image) (h : headerEnd ≤ image.size) : Prop where
  header_eq : image.headerChecksum? = some (Header.byte image h headerChecksumAddr (by decide))
  global_eq : image.globalChecksum? = some (Header.word image h globalChecksumAddr (by decide))

namespace Cartridge

variable {image : Image} {c : Cartridge}

theorem headerChecksum?_of_load (hload : load image = .ok c) :
    c.image.headerChecksum? = image.headerChecksum? := by
  obtain ⟨h, rfl⟩ := load_eq_ok_iff.1 hload
  exact Image.headerChecksum?_pad image h

theorem globalChecksum?_of_load (hload : load image = .ok c) :
    c.image.globalChecksum? = image.globalChecksum? := by
  obtain ⟨h, rfl⟩ := load_eq_ok_iff.1 hload
  exact Image.globalChecksum?_pad image h

theorem headerChecksumOk_iff_of_load (h : Image.headerEnd ≤ image.size)
    (hload : load image = .ok c) :
    c.header.headerChecksumOk c.image ↔
      image.headerChecksum? = some (Header.byte image h Image.headerChecksumAddr (by decide)) := by
  rw [Header.headerChecksumOk, headerChecksum?_of_load hload, beq_iff_eq]
  obtain ⟨-, rfl⟩ := load_eq_ok_iff.1 hload
  rw [Header.headerChecksumByte_ofImage]

theorem globalChecksumOk_iff_of_load (h : Image.headerEnd ≤ image.size)
    (hload : load image = .ok c) :
    c.header.globalChecksumOk c.image ↔
      image.globalChecksum? = some (Header.word image h Image.globalChecksumAddr (by decide)) := by
  rw [Header.globalChecksumOk, globalChecksum?_of_load hload, beq_iff_eq]
  obtain ⟨-, rfl⟩ := load_eq_ok_iff.1 hload
  rfl

theorem verifies_iff_of_load (h : Image.headerEnd ≤ image.size) (hload : load image = .ok c) :
    image.Verifies h ↔
      c.header.headerChecksumOk c.image ∧ c.header.globalChecksumOk c.image := by
  rw [headerChecksumOk_iff_of_load h hload, globalChecksumOk_iff_of_load h hload]
  exact ⟨fun hv => ⟨hv.header_eq, hv.global_eq⟩, fun ⟨hheader, hglobal⟩ => ⟨hheader, hglobal⟩⟩

theorem report_eq (c : Cartridge) :
    ∃ front, c.report = front ++
      ("\nHeader checksum: 0x" ++ Hex.ofByte c.header.headerChecksumByte ++ " " ++
        Report.verdict (c.header.headerChecksumOk c.image)) ++
      ("\nGlobal checksum: 0x" ++ Hex.ofWord c.header.globalChecksum ++ " " ++
        Report.verdict (c.header.globalChecksumOk c.image) ++ "\n") := by
  have hlogo (value : String) :
      Report.line "Logo" value = "Logo:            " ++ value ++ "\n" := rfl
  have hheader (value : String) :
      Report.line "Header checksum" value = "Header checksum: " ++ value ++ "\n" := rfl
  have hglobal (value : String) :
      Report.line "Global checksum" value = "Global checksum: " ++ value ++ "\n" := rfl
  have hheader₀ : "\nHeader checksum: 0x" = "\n" ++ ("Header checksum: " ++ "0x") := rfl
  have hglobal₀ : "\nGlobal checksum: 0x" = "\n" ++ ("Global checksum: " ++ "0x") := rfl
  refine ⟨String.join ((c.reportLines.take 9).map fun entry => Report.line entry.1 entry.2) ++
    "Logo:            " ++ Report.verdict c.header.logoMatches, ?_⟩
  rw [hheader₀, hglobal₀]
  simp [-String.reduceAppend, report, reportLines, String.join, String.append_assoc,
    Report.hexByte, hlogo, hheader, hglobal]

end Cartridge

end DotMatrix
