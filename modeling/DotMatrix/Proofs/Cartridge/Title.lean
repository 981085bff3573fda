import DotMatrix.Proofs.Cartridge.Fields
import DotMatrix.Proofs.Text.Utf8.Lossy
import Mathlib.Data.List.DropRight

namespace DotMatrix

namespace Header

def EndsInPadding (bytes : List UInt8) : Prop :=
  bytes.getLast? = some 0 ∨ bytes.getLast? = some 0x20

/-- The longest beginning that does not end in padding. -/
structure Trims (bytes kept : List UInt8) : Prop where
  begins : kept <+: bytes
  not_padded : ¬ EndsInPadding kept
  longest : ∀ other, other <+: bytes → ¬ EndsInPadding other → other.length ≤ kept.length

section

variable {bytes kept padding : List UInt8} {b : UInt8}

theorem isPadding_iff : isPadding b ↔ b = 0 ∨ b = 0x20 := by
  simp [isPadding]

theorem endsInPadding_append_singleton : EndsInPadding (bytes ++ [b]) ↔ isPadding b := by
  simp [EndsInPadding, isPadding_iff]

theorem Trims.unique {kept' : List UInt8} (h : Trims bytes kept) (h' : Trims bytes kept') :
    kept = kept' :=
  (List.prefix_of_prefix_length_le h.begins h'.begins
    (h'.longest kept h.begins h.not_padded)).eq_of_length_le
      (h.longest kept' h'.begins h'.not_padded)

theorem trims_append (hkept : ¬ EndsInPadding kept) (hpadding : ∀ b ∈ padding, isPadding b) :
    Trims (kept ++ padding) kept where
  begins := List.prefix_append kept padding
  not_padded := hkept
  longest other hother hnot := by
    refine Nat.le_of_not_lt fun hlt => hnot ?_
    -- What goes beyond the bytes kept ends within the padding.
    obtain ⟨tail, rfl⟩ :=
      List.prefix_of_prefix_length_le (List.prefix_append kept padding) hother (Nat.le_of_lt hlt)
    rw [List.prefix_append_right_inj] at hother
    rcases List.eq_nil_or_concat' tail with rfl | ⟨front, b, rfl⟩
    · simp at hlt
    · rw [← List.append_assoc, endsInPadding_append_singleton]
      exact hpadding b (hother.subset (by simp))

theorem not_endsInPadding_trimTitle (bytes : List UInt8) : ¬ EndsInPadding (trimTitle bytes) := by
  intro h
  rcases List.eq_nil_or_concat' (trimTitle bytes) with hnil | ⟨front, b, hlast⟩
  · simp [EndsInPadding, hnil] at h
  · rw [hlast, endsInPadding_append_singleton] at h
    have hne : trimTitle bytes ≠ [] := by simp [hlast]
    have hb : (trimTitle bytes).getLast hne = b := by simp [hlast]
    exact List.rdropWhile_last_not isPadding bytes hne (hb ▸ h)

theorem trimTitle_append_padding (bytes : List UInt8) :
    trimTitle bytes ++ bytes.rtakeWhile isPadding = bytes := List.rdropWhile_append_rtakeWhile

theorem trims_trimTitle (bytes : List UInt8) : Trims bytes (trimTitle bytes) := by
  have h : Trims (trimTitle bytes ++ bytes.rtakeWhile isPadding) (trimTitle bytes) :=
    trims_append (not_endsInPadding_trimTitle bytes) fun b => List.mem_rtakeWhile_imp
  rwa [trimTitle_append_padding] at h

theorem trimTitle_append (hkept : ¬ EndsInPadding kept) (hpadding : ∀ b ∈ padding, isPadding b) :
    trimTitle (kept ++ padding) = kept :=
  (trims_trimTitle _).unique (trims_append hkept hpadding)

theorem count_trimTitle (hb : ¬ isPadding b) : (trimTitle bytes).count b = bytes.count b := by
  have hpadding : (bytes.rtakeWhile isPadding).count b = 0 :=
    List.count_eq_zero.2 fun hmem => hb (List.mem_rtakeWhile_imp hmem)
  conv => rhs; rw [← trimTitle_append_padding bytes, List.count_append, hpadding, Nat.add_zero]

end

end Header

namespace Utf8

theorem toList_toUTF8 (s : String) :
    s.toUTF8.data.toList = s.toList.flatMap String.utf8EncodeChar := by
  rw [String.toUTF8, ← String.utf8Encode_toList, List.utf8Encode, List.toList_data_toByteArray]

theorem decode_toUTF8 (s : String) : decode s.toUTF8.data.toList = s := by
  rw [decode, toList_toUTF8, decodeFrom_encodings, String.ofList_toList]

end Utf8

namespace Cartridge

open Header Utf8

variable {image : Image} {c : Cartridge}

theorem title_of_load (hload : load image = .ok c) :
    c.header.title = decode (trimTitle image.titleBytes) := by
  obtain ⟨h, rfl⟩ := load_eq_ok_iff.1 hload
  rw [← Fields.toList_title_ofImage image h]
  rfl

theorem lossy_title_of_load (hload : load image = .ok c) :
    Lossy (trimTitle image.titleBytes) c.header.title.toList := by
  rw [title_of_load hload, decode, String.toList_ofList]
  exact (lossy_decodeFrom _).1

theorem count_title_of_load (hload : load image = .ok c) {b : UInt8} (hb : b.toNat < 0x80)
    (hkept : ¬ isPadding b) :
    c.header.title.toList.count (.ofNat b.toNat) = image.titleBytes.count b := by
  rw [(lossy_title_of_load hload).count_eq hb, count_trimTitle hkept]

theorem getLast?_title_ne (hload : load image = .ok c) {b : UInt8} (hb : isPadding b) :
    c.header.title.toList.getLast? ≠ some (.ofNat b.toNat) := by
  intro h
  have hlt : b.toNat < 0x80 := by
    rcases isPadding_iff.1 hb with rfl | rfl <;> decide
  have hlast := (lossy_title_of_load hload).getLast?_of_eq hlt h
  apply not_endsInPadding_trimTitle image.titleBytes
  rcases isPadding_iff.1 hb with rfl | rfl
  · exact .inl hlast
  · exact .inr hlast

theorem length_title_le (hload : load image = .ok c) : c.header.title.length ≤ titleLength := by
  calc
    c.header.title.length ≤ (trimTitle image.titleBytes).length :=
      (lossy_title_of_load hload).length_le
    _ ≤ image.titleBytes.length := (trims_trimTitle _).begins.length_le
    _ ≤ titleLength := by
      rw [Image.titleBytes, Array.length_toList, Array.size_extract]
      omega

/-- A title filled up with any padding is read back. Whatever bytes stand in its field, the title is
the lenient reading of the longest beginning of them that does not end in padding. -/
theorem title_round_trips (image : Image) (h : 336 ≤ image.size) :
    ∃ c, load image = .ok c ∧
      (∀ (s : String) (padding : List UInt8), ¬ EndsInPadding s.toUTF8.data.toList →
        (∀ b ∈ padding, b = 0 ∨ b = 0x20) →
        (image.extract 0x134 0x13F).toList = s.toUTF8.data.toList ++ padding →
        c.header.title = s) ∧
      (∃ kept, Trims (image.extract 0x134 0x13F).toList kept ∧
        ∀ chars, Lossy kept chars ↔ c.header.title.toList = chars) ∧
      c.header.title.length ≤ 11 ∧
      c.header.title.toList.getLast? ≠ some '\x00' ∧ c.header.title.toList.getLast? ≠ some ' ' := by
  obtain ⟨c, hload⟩ := exists_load h
  refine ⟨c, hload, fun s padding hs hpadding hbytes => ?_, ⟨trimTitle image.titleBytes, ?_, ?_⟩,
    length_title_le hload, getLast?_title_ne hload (b := 0) rfl,
    getLast?_title_ne hload (b := 0x20) rfl⟩
  · have htitle : trimTitle image.titleBytes = s.toUTF8.data.toList := by
      rw [← trimTitle_append hs fun b hb => isPadding_iff.2 (hpadding b hb), ← hbytes]
      rfl
    rw [title_of_load hload, htitle, decode_toUTF8]
  · exact trims_trimTitle _
  · intro chars
    rw [title_of_load hload, decode, String.toList_ofList]
    exact lossy_iff

def titledImage (title : Vector UInt8 titleLength) : Image :=
  Image.storeBytes (.replicate 336 0) Image.titleAddr title.toList

theorem headerEnd_le_titledImage (title : Vector UInt8 titleLength) :
    336 ≤ (titledImage title).size := by
  simp [titledImage]

theorem titleBytes_titledImage (title : Vector UInt8 titleLength) :
    (titledImage title).titleBytes = title.toList := by
  have hinside : Image.titleAddr + title.toList.length ≤ 336 := by
    rw [Vector.length_toList]
    decide
  have hend : Image.titleAddr + titleLength = Image.titleAddr + title.toList.length := by
    rw [Vector.length_toList]
  rw [Image.titleBytes, titledImage, hend]
  exact Image.toList_extract_storeBytes (.replicate 336 0) title.toList (by simpa using hinside)

def paddedTitle : Vector UInt8 titleLength :=
  #v[0x41, 0x00, 0x20, 0xC3, 0xA9, 0x20, 0x00, 0x20, 0x20, 0x00, 0x20]

theorem padded_title_comes_back :
    336 ≤ (titledImage paddedTitle).size ∧
      ∃ c, load (titledImage paddedTitle) = .ok c ∧ c.header.title = "A\x00 é" := by
  have hsize := headerEnd_le_titledImage paddedTitle
  obtain ⟨c, hload, hencoded, -⟩ := title_round_trips _ hsize
  refine ⟨hsize, c, hload, hencoded _ [0x20, 0x00, 0x20, 0x20, 0x00, 0x20] ?_ (by simp)
    (titleBytes_titledImage _)⟩
  simp only [EndsInPadding]
  decide

end Cartridge

end DotMatrix
