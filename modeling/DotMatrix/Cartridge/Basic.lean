import DotMatrix.Cartridge.Header

namespace DotMatrix

def romWindowSize : Nat := 0x8000

def openBus : UInt8 := 0xFF

structure Cartridge where
  image : Image
  header : Header
  window_le : romWindowSize ≤ image.size

namespace Cartridge

inductive LoadError
  | malformedHeader (size : Nat)
  deriving DecidableEq

def LoadError.message : LoadError → String
  | malformedHeader size =>
    "malformed cartridge: image is " ++ toString size ++ " bytes, header needs at least " ++
      toString Image.headerEnd

def pad (image : Image) : Image := image ++ Array.replicate (romWindowSize - image.size) 0

theorem window_le_pad (image : Image) : romWindowSize ≤ (pad image).size := by
  simp only [pad, Array.size_append, Array.size_replicate]
  omega

def load (image : Image) : Except LoadError Cartridge :=
  if h : Image.headerEnd ≤ image.size then
    .ok ⟨pad image, .ofImage image h, window_le_pad image⟩
  else .error (.malformedHeader image.size)

theorem exists_load {image : Image} (h : Image.headerEnd ≤ image.size) : ∃ c, load image = .ok c :=
  ⟨_, dif_pos h⟩

theorem load_eq_ok_iff {image : Image} {c : Cartridge} :
    load image = .ok c ↔
      ∃ h : Image.headerEnd ≤ image.size, c = ⟨pad image, .ofImage image h, window_le_pad image⟩ := by
  by_cases h : Image.headerEnd ≤ image.size
  · simp [load, h, eq_comm]
  · simp [load, h]

theorem image_of_load {image : Image} {c : Cartridge} (h : load image = .ok c) :
    c.image = pad image := by
  obtain ⟨-, rfl⟩ := load_eq_ok_iff.1 h
  rfl

def empty : Cartridge := ⟨.replicate 0x10000 0, .blank, by simp [romWindowSize]⟩

def title (c : Cartridge) : String := c.header.title

def read? (c : Cartridge) (addr : UInt16) : Option UInt8 := c.image[addr.toNat]?

def write (c : Cartridge) (_addr : UInt16) (_value : UInt8) : Cartridge := c

def readRam (_c : Cartridge) (_addr : UInt16) : UInt8 := openBus

def writeRam (c : Cartridge) (_addr : UInt16) (_value : UInt8) : Cartridge := c

end Cartridge

end DotMatrix
