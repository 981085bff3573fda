import DotMatrix.Proofs.Cartridge.Verdict
import Mathlib.Data.List.Flatten

namespace DotMatrix

namespace Image

def storeBytes (image : Image) (addr : Nat) : List UInt8 → Image
  | [] => image
  | b :: bytes => storeBytes (image.setIfInBounds addr b) (addr + 1) bytes

def headerStart : Nat := 0x100

def region (image : Image) : List UInt8 := (image.extract headerStart headerEnd).toList

def titleBytes (image : Image) : List UInt8 :=
  (image.extract titleAddr (titleAddr + Header.titleLength)).toList

theorem getElem?_region (image : Image) (i : Nat) :
    image.region[i]? = if headerStart + i < headerEnd then image[headerStart + i]? else none := by
  rw [region, Array.getElem?_toList, Array.getElem?_extract]
  by_cases hsize : headerStart + i < image.size
  · by_cases hi : headerStart + i < headerEnd
    · rw [if_pos hi, if_pos (by omega)]
    · rw [if_neg hi, if_neg (by omega)]
  · rw [if_neg (by omega), Array.getElem?_eq_none (by omega), ite_self]

theorem region_eq_of_agree {image other : Image}
    (h : ∀ i, headerStart ≤ i → i < headerEnd → other[i]? = image[i]?) :
    other.region = image.region := by
  refine List.ext_getElem? fun i => ?_
  rw [getElem?_region, getElem?_region]
  split
  next hi => exact h _ (Nat.le_add_right ..) hi
  next => rfl

@[simp] theorem size_storeBytes (image : Image) (addr : Nat) (bytes : List UInt8) :
    (image.storeBytes addr bytes).size = image.size := by
  induction bytes generalizing image addr with
  | nil => rfl
  | cons b bytes ih => rw [storeBytes, ih, Array.size_setIfInBounds]

theorem storeBytes_append (image : Image) (addr : Nat) (xs ys : List UInt8) :
    image.storeBytes addr (xs ++ ys) =
      (image.storeBytes addr xs).storeBytes (addr + xs.length) ys := by
  induction xs generalizing image addr with
  | nil => rfl
  | cons b xs ih =>
    rw [List.cons_append, storeBytes, ih, storeBytes, List.length_cons, Nat.add_assoc,
      Nat.add_comm 1]

theorem getElem?_storeBytes_of_lt (image : Image) {addr i : Nat} (bytes : List UInt8)
    (h : i < addr) : (image.storeBytes addr bytes)[i]? = image[i]? := by
  induction bytes generalizing image addr with
  | nil => rfl
  | cons b bytes ih =>
    rw [storeBytes, ih _ (by omega), Array.getElem?_setIfInBounds_ne (by omega)]

theorem getElem?_storeBytes (image : Image) {addr : Nat} (bytes : List UInt8)
    (hsize : addr + bytes.length ≤ image.size) {i : Nat} (hi : i < bytes.length) :
    (image.storeBytes addr bytes)[addr + i]? = bytes[i]? := by
  induction bytes generalizing image addr i with
  | nil => exact absurd hi (Nat.not_lt_zero i)
  | cons b bytes ih =>
    rw [List.length_cons] at hsize hi
    rw [storeBytes]
    cases i with
    | zero =>
      exact (getElem?_storeBytes_of_lt _ bytes (Nat.lt_succ_self addr)).trans
        (Array.getElem?_setIfInBounds_self_of_lt (by omega))
    | succ i =>
      rw [Nat.add_comm i, ← Nat.add_assoc, ih _ (by simp; omega) (by omega), Nat.add_comm 1,
        List.getElem?_cons_succ]

theorem toList_extract_storeBytes (image : Image) {addr : Nat} (bytes : List UInt8)
    (hsize : addr + bytes.length ≤ image.size) :
    ((image.storeBytes addr bytes).extract addr (addr + bytes.length)).toList = bytes := by
  refine List.ext_getElem? fun i => ?_
  rw [Array.getElem?_toList, Array.getElem?_extract]
  by_cases hi : i < bytes.length
  · rw [size_storeBytes, if_pos (by omega), getElem?_storeBytes _ _ hsize hi]
  · rw [size_storeBytes, if_neg (by omega), List.getElem?_eq_none (by omega)]

end Image

namespace Header

section

variable {image : Image} (h : Image.headerEnd ≤ image.size)

theorem toList_field (addr length : Nat) (inside : addr + length ≤ Image.headerEnd) :
    (field image h addr length inside).toList = (image.extract addr (addr + length)).toList := by
  refine List.ext_getElem ?_ fun i hi _ => ?_
  · simp
    omega
  · simp [field]

theorem toList_byte (addr : Nat) (inside : addr < Image.headerEnd) :
    [byte image h addr inside] = (image.extract addr (addr + 1)).toList := by
  rw [← toList_field h addr 1 inside]
  rfl

theorem toList_word (addr : Nat) (inside : addr + 1 < Image.headerEnd) :
    [Word.high (word image h addr inside), Word.low (word image h addr inside)] =
      (image.extract addr (addr + 2)).toList := by
  rw [word_eq, Word.high_combine, Word.low_combine, ← toList_field h addr 2 inside]
  rfl

end

structure Fields where
  entryPoint : Vector UInt8 4
  logo : Vector UInt8 48
  title : Vector UInt8 titleLength
  manufacturerCode : Vector UInt8 4
  cgbFlag : UInt8
  newLicenseeCode : Vector UInt8 2
  sgbFlag : UInt8
  cartridgeType : UInt8
  romSize : UInt8
  ramSize : UInt8
  destinationCode : UInt8
  oldLicenseeCode : UInt8
  version : UInt8
  headerChecksum : UInt8
  globalChecksum : UInt16
  deriving DecidableEq

def fields (hd : Header) (title : Vector UInt8 titleLength) : Fields where
  entryPoint := hd.entryPoint
  logo := hd.logo
  title := title
  manufacturerCode := hd.manufacturerCode
  cgbFlag := hd.cgbFlag
  newLicenseeCode := hd.newLicenseeCode
  sgbFlag := hd.sgbFlag
  cartridgeType := hd.cartridgeType
  romSize := hd.romSize
  ramSize := hd.ramSize
  destinationCode := hd.destinationCode
  oldLicenseeCode := hd.oldLicenseeCode
  version := hd.version
  headerChecksum := hd.headerChecksumByte
  globalChecksum := hd.globalChecksum

theorem titleEnd_le : Image.titleAddr + titleLength ≤ Image.headerEnd := by decide

namespace Fields

/-- The address of each field and its bytes there. -/
def layout (f : Fields) : List (Nat × List UInt8) :=
  [(0x100, f.entryPoint.toList),
   (0x104, f.logo.toList),
   (0x134, f.title.toList),
   (0x13F, f.manufacturerCode.toList),
   (0x143, [f.cgbFlag]),
   (0x144, f.newLicenseeCode.toList),
   (0x146, [f.sgbFlag]),
   (0x147, [f.cartridgeType]),
   (0x148, [f.romSize]),
   (0x149, [f.ramSize]),
   (0x14A, [f.destinationCode]),
   (0x14B, [f.oldLicenseeCode]),
   (0x14C, [f.version]),
   (0x14D, [f.headerChecksum]),
   (0x14E, [Word.high f.globalChecksum, Word.low f.globalChecksum])]

def bytes (f : Fields) : List UInt8 := (f.layout.map (·.2)).flatten

def store (f : Fields) (image : Image) : Image :=
  f.layout.foldl (fun image (addr, bytes) => image.storeBytes addr bytes) image

def header (f : Fields) : Header where
  entryPoint := f.entryPoint
  logo := f.logo
  title := Utf8.decode (trimTitle f.title.toList)
  manufacturerCode := f.manufacturerCode
  cgbFlag := f.cgbFlag
  newLicenseeCode := f.newLicenseeCode
  sgbFlag := f.sgbFlag
  cartridgeType := f.cartridgeType
  romSize := f.romSize
  ramSize := f.ramSize
  destinationCode := f.destinationCode
  oldLicenseeCode := f.oldLicenseeCode
  version := f.version
  headerChecksum := Word.combine (Word.high f.globalChecksum) f.headerChecksum
  globalChecksum := f.globalChecksum

def ofImage (image : Image) (h : Image.headerEnd ≤ image.size) : Fields :=
  (Header.ofImage image h).fields (field image h Image.titleAddr titleLength titleEnd_le)

/-- Each entry of a layout starts where the one before it ends. -/
def Contiguous : (addr : Nat) → List (Nat × List UInt8) → Prop
  | _, [] => True
  | addr, (start, bytes) :: rest => start = addr ∧ Contiguous (addr + bytes.length) rest

theorem foldl_storeBytes (image : Image) {addr : Nat} {layout : List (Nat × List UInt8)}
    (h : Contiguous addr layout) :
    layout.foldl (fun image (addr, bytes) => image.storeBytes addr bytes) image =
      image.storeBytes addr (layout.map (·.2)).flatten := by
  induction layout generalizing image addr with
  | nil => rfl
  | cons entry layout ih =>
    obtain ⟨start, bytes⟩ := entry
    obtain ⟨rfl, hrest⟩ := h
    rw [List.foldl_cons, ih _ hrest, List.map_cons, List.flatten_cons, Image.storeBytes_append]

def Stands (image : Image) (entry : Nat × List UInt8) : Prop :=
  entry.1 + entry.2.length ≤ image.size ∧
    entry.2 = (image.extract entry.1 (entry.1 + entry.2.length)).toList

theorem flatten_of_contiguous {image : Image} {addr : Nat} {layout : List (Nat × List UInt8)}
    (h : Contiguous addr layout) (hstands : ∀ entry ∈ layout, Stands image entry) :
    (layout.map (·.2)).flatten =
      (image.extract addr (addr + (layout.map (·.2)).flatten.length)).toList := by
  induction layout generalizing addr with
  | nil => simp
  | cons entry layout ih =>
    obtain ⟨start, bytes⟩ := entry
    obtain ⟨rfl, hrest⟩ := h
    have hbytes : bytes = (image.extract start (start + bytes.length)).toList :=
      (hstands _ List.mem_cons_self).2
    have htail := ih hrest fun entry hentry => hstands entry (List.mem_cons_of_mem _ hentry)
    rw [List.map_cons, List.flatten_cons, List.length_append, ← Nat.add_assoc]
    conv => lhs; rw [hbytes, htail]
    rw [← Array.toList_append, Array.extract_append_extract, Nat.min_eq_left (by omega),
      Nat.max_eq_right (by omega)]

theorem contiguous_layout (f : Fields) : Contiguous Image.headerStart f.layout := by
  simp only [Contiguous, layout, Vector.length_toList, List.length_cons, List.length_nil]
  decide

theorem length_bytes (f : Fields) : Image.headerStart + f.bytes.length = Image.headerEnd := by
  simp only [bytes, layout, List.map_cons, List.map_nil, List.flatten_cons, List.flatten_nil,
    List.length_append, Vector.length_toList, List.length_cons, List.length_nil]
  rfl

theorem store_eq (f : Fields) (image : Image) :
    f.store image = image.storeBytes Image.headerStart f.bytes :=
  foldl_storeBytes image f.contiguous_layout

theorem size_store (f : Fields) (image : Image) : (f.store image).size = image.size := by
  rw [store_eq, Image.size_storeBytes]

theorem region_store (f : Fields) {image : Image} (h : Image.headerEnd ≤ image.size) :
    (f.store image).region = f.bytes := by
  rw [store_eq, Image.region, ← f.length_bytes]
  exact image.toList_extract_storeBytes f.bytes (f.length_bytes.symm ▸ h)

theorem bytes_injective : Function.Injective bytes := by
  intro f g h
  have hlengths : (f.layout.map (·.2)).map List.length = (g.layout.map (·.2)).map List.length := by
    simp [layout]
  have hlayout := (List.eq_iff_flatten_eq ..).2 ⟨h, hlengths⟩
  simp only [layout, List.map_cons, List.map_nil, List.cons.injEq, Vector.toList_inj, and_true]
    at hlayout
  obtain ⟨hentry, hlogo, htitle, hmanufacturer, hcgb, hlicensee, hsgb, htype, hrom, hram, hdest,
    hold, hversion, hheader, hhigh, hlow⟩ := hlayout
  have hglobal : f.globalChecksum = g.globalChecksum := by
    rw [← Word.combine_low_high f.globalChecksum, hlow, hhigh, Word.combine_low_high]
  cases f
  cases g
  simp_all

theorem header_ofImage (image : Image) (h : Image.headerEnd ≤ image.size) :
    (ofImage image h).header = Header.ofImage image h := by
  have hshared : Word.combine (Word.high (word image h Image.globalChecksumAddr (by decide)))
      (Word.high (word image h Image.headerChecksumAddr (by decide))) =
        word image h Image.headerChecksumAddr (by decide) := by
    rw [word_eq, Word.high_combine, word_eq, Word.high_combine]
    rfl
  simp only [header, ofImage, fields, headerChecksumByte, Header.ofImage, hshared]

theorem stands_of_eq {image : Image} {addr n : Nat} {bytes : List UInt8}
    (inside : addr + n ≤ image.size) (h : bytes = (image.extract addr (addr + n)).toList) :
    Stands image (addr, bytes) := by
  have hlength : bytes.length = n := by
    rw [h, Array.length_toList, Array.size_extract]
    omega
  subst hlength
  exact ⟨inside, h⟩

theorem bytes_ofImage (image : Image) (h : Image.headerEnd ≤ image.size) :
    (ofImage image h).bytes = image.region := by
  have hfield (addr length : Nat) (inside : addr + length ≤ Image.headerEnd) :
      Stands image (addr, (field image h addr length inside).toList) :=
    stands_of_eq (by omega) (toList_field h addr length inside)
  have hbyte (addr : Nat) (inside : addr < Image.headerEnd) :
      Stands image (addr, [byte image h addr inside]) :=
    stands_of_eq (by omega) (toList_byte h addr inside)
  have hword (addr : Nat) (inside : addr + 1 < Image.headerEnd) :
      Stands image
        (addr, [Word.high (word image h addr inside), Word.low (word image h addr inside)]) :=
    stands_of_eq (by omega) (toList_word h addr inside)
  have hstands : ∀ entry ∈ (ofImage image h).layout, Stands image entry := by
    simp only [layout, ofImage, fields, headerChecksumByte_ofImage, List.forall_mem_cons]
    simp [Header.ofImage, Image.titleAddr, Image.headerChecksumAddr, Image.globalChecksumAddr,
      hfield, hbyte, hword]
  rw [bytes, flatten_of_contiguous (contiguous_layout _) hstands, ← bytes, length_bytes,
    Image.region]

theorem toList_title_ofImage (image : Image) (h : Image.headerEnd ≤ image.size) :
    (ofImage image h).title.toList = image.titleBytes :=
  toList_field h 0x134 titleLength (by decide)

theorem ofImage_eq_of_region {image other : Image} (h : Image.headerEnd ≤ image.size)
    (h' : Image.headerEnd ≤ other.size) (heq : other.region = image.region) :
    Header.ofImage other h' = Header.ofImage image h := by
  rw [← header_ofImage, ← header_ofImage]
  refine congrArg header (bytes_injective ?_)
  rw [bytes_ofImage, bytes_ofImage, heq]

theorem ofImage_store (f : Fields) {image : Image} (h : Image.headerEnd ≤ image.size)
    (h' : Image.headerEnd ≤ (f.store image).size) : ofImage (f.store image) h' = f := by
  apply bytes_injective
  rw [bytes_ofImage, f.region_store h]

end Fields

@[simp] theorem fields_header (f : Fields) : f.header.fields f.title = f := by
  simp [fields, Fields.header, headerChecksumByte]

end Header

namespace Cartridge

theorem load_eq_error_iff {image : Image} {e : LoadError} :
    load image = .error e ↔ image.size < Image.headerEnd ∧ e = .malformedHeader image.size := by
  by_cases h : Image.headerEnd ≤ image.size
  · simp [load, h, Nat.not_lt_of_le h]
  · simp [load, h, Nat.lt_of_not_le h, eq_comm]

section

variable {image other : Image} {c : Cartridge}

theorem header_eq_of_agree (hload : load image = .ok c)
    (hagree : ∀ i, 0x100 ≤ i → i < 0x150 → other[i]? = image[i]?)
    (h : Image.headerEnd ≤ other.size) :
    c.header = Header.ofImage other h := by
  obtain ⟨hsize, rfl⟩ := load_eq_ok_iff.1 hload
  exact (Header.Fields.ofImage_eq_of_region hsize h (Image.region_eq_of_agree hagree)).symm

theorem getElem?_pad (h : Image.headerEnd ≤ image.size) {i : Nat} (hi : i < Image.headerEnd) :
    (pad image)[i]? = image[i]? :=
  Array.getElem?_append_left (by omega)

theorem titleBytes_pad (h : Image.headerEnd ≤ image.size) :
    (pad image).titleBytes = image.titleBytes := by
  have hinside : Image.titleAddr + Header.titleLength ≤ Image.headerEnd := by decide
  have hstop : Image.titleAddr + Header.titleLength - image.size = 0 := by omega
  rw [Image.titleBytes, pad, Array.extract_append, hstop, Array.extract_zero, Array.append_empty,
    Image.titleBytes]

theorem size_of_agree (h : Image.headerEnd ≤ image.size)
    (hagree : ∀ i, 0x100 ≤ i → i < 0x150 → other[i]? = image[i]?) :
    Image.headerEnd ≤ other.size := by
  have hlast : Image.headerEnd - 1 < image.size := Nat.lt_of_lt_of_le (by decide) h
  have hsome : other[Image.headerEnd - 1]? = some image[Image.headerEnd - 1] := by
    rw [hagree _ (by decide) (by decide), Array.getElem?_eq_getElem hlast]
  obtain ⟨hlt, -⟩ := Array.getElem?_eq_some_iff.1 hsome
  omega

theorem bytes_fields_of_load (hload : load image = .ok c) {title : Vector UInt8 Header.titleLength}
    (htitle : title.toList = image.titleBytes) : (c.header.fields title).bytes = image.region := by
  obtain ⟨h, rfl⟩ := load_eq_ok_iff.1 hload
  obtain rfl : title = (Header.Fields.ofImage image h).title := by
    rw [← Vector.toList_inj, htitle, Header.Fields.toList_title_ofImage]
  exact Header.Fields.bytes_ofImage image h

theorem headerChecksumByte_of_load (hload : load image = .ok c) :
    image[0x14D]? = some c.header.headerChecksumByte := by
  obtain ⟨h, rfl⟩ := load_eq_ok_iff.1 hload
  rw [Header.headerChecksumByte_ofImage]
  exact Array.getElem?_eq_getElem _

theorem low_headerChecksum_of_load (hload : load image = .ok c) :
    Word.low c.header.headerChecksum = Word.high c.header.globalChecksum := by
  obtain ⟨h, rfl⟩ := load_eq_ok_iff.1 hload
  exact (Word.low_combine _ _).trans (Word.high_combine _ _).symm

theorem header_of_load_store {f : Header.Fields} (h : Image.headerEnd ≤ image.size)
    (hload : load (f.store image) = .ok c) : c.header = f.header := by
  obtain ⟨h', rfl⟩ := load_eq_ok_iff.1 hload
  rw [← Header.Fields.header_ofImage, f.ofImage_store h]

end

/-- An image loads unless it ends within its header. The cartridge holds all its bytes and then
zeros; its header depends on the bytes of the header alone and tells all of them, and gives back
whatever fields are stored there. -/
theorem load_is_lossless (image : Image) :
    (∀ e, load image = .error e ↔ image.size < 336 ∧ e = .malformedHeader image.size) ∧
    (336 ≤ image.size → ∃ c, load image = .ok c ∧
      c.image = image ++ Array.replicate (32768 - image.size) 0 ∧
      (∃ h, c.header = Header.ofImage c.image h) ∧
      (∀ other : Image, (∀ i, 0x100 ≤ i → i < 0x150 → other[i]? = image[i]?) →
        ∃ h, c.header = Header.ofImage other h) ∧
      (∀ title : Vector UInt8 11, title.toList = (image.extract 0x134 0x13F).toList →
        (c.header.fields title).bytes = (image.extract 0x100 0x150).toList) ∧
      image[0x14D]? = some c.header.headerChecksumByte ∧
      Word.low c.header.headerChecksum = Word.high c.header.globalChecksum ∧
      ∀ f : Header.Fields, ∃ c', load (f.store image) = .ok c' ∧ c'.header.fields f.title = f ∧
        c'.header.title = Utf8.decode (Header.trimTitle f.title.toList) ∧
        (c'.image.extract 0x134 0x13F).toList = f.title.toList) := by
  refine ⟨fun e => load_eq_error_iff, fun h => ?_⟩
  obtain ⟨c, hload⟩ := exists_load h
  refine ⟨c, hload, image_of_load hload, ?_, fun other hagree => ?_, fun title htitle => ?_,
    headerChecksumByte_of_load hload, low_headerChecksum_of_load hload, fun f => ?_⟩
  · rw [image_of_load hload]
    exact ⟨image.headerEnd_le_pad, header_eq_of_agree hload (fun i _ hi => getElem?_pad h hi) _⟩
  · exact ⟨size_of_agree h hagree, header_eq_of_agree hload hagree _⟩
  · exact bytes_fields_of_load hload htitle
  · have h' : Image.headerEnd ≤ (f.store image).size := by rwa [f.size_store]
    obtain ⟨c', hload'⟩ := exists_load h'
    have hheader := header_of_load_store h hload'
    refine ⟨c', hload', ?_, ?_, ?_⟩
    · rw [hheader, Header.fields_header]
    · rw [hheader]
      rfl
    · calc
        c'.image.titleBytes = (f.store image).titleBytes := by
          rw [image_of_load hload', titleBytes_pad h']
        _ = (Header.Fields.ofImage (f.store image) h').title.toList :=
          (Header.Fields.toList_title_ofImage _ h').symm
        _ = f.title.toList := by rw [f.ofImage_store h]

def sampleFields : Header.Fields where
  entryPoint := #v[0x00, 0xC3, 0x50, 0x01]
  logo := Header.bootLogo
  title := #v[0x44, 0x4F, 0x54, 0x20, 0x42, 0x59, 0x20, 0x44, 0x4F, 0x54, 0x20]
  manufacturerCode := #v[0x41, 0x42, 0x43, 0x44]
  cgbFlag := 0x80
  newLicenseeCode := #v[0x30, 0x31]
  sgbFlag := 0x03
  cartridgeType := 0x13
  romSize := 0x02
  ramSize := 0x03
  destinationCode := 0x01
  oldLicenseeCode := 0x33
  version := 0x02
  headerChecksum := 0xAB
  globalChecksum := 0xCDEF

theorem sample_fields_are_read :
    336 ≤ (Array.replicate 336 0 : Image).size ∧
      ∃ c, load (.replicate 336 0) = .ok c ∧
        (∃ h, c.header = Header.ofImage (.replicate 40000 0) h) ∧
        (c.header.fields (.replicate 11 0)).bytes = .replicate 80 0 ∧
        ∃ c', load (sampleFields.store (.replicate 336 0)) = .ok c' ∧
          c'.header.fields sampleFields.title = sampleFields ∧ c'.header.title = "DOT BY DOT" := by
  have h : 336 ≤ (Array.replicate 336 0 : Image).size := by simp
  obtain ⟨c, hload, -, -, hagree, hbytes, -, -, hstore⟩ := (load_is_lossless _).2 h
  refine ⟨h, c, hload, hagree _ fun i _ hi => ?_, ?_, ?_⟩
  · rw [Array.getElem?_replicate, Array.getElem?_replicate, if_pos (by omega), if_pos hi]
  · rw [hbytes _ (by simp)]
    simp
  · obtain ⟨c', hload', hfields, htitle, -⟩ := hstore sampleFields
    refine ⟨c', hload', hfields, htitle.trans ?_⟩
    decide

end Cartridge

end DotMatrix
