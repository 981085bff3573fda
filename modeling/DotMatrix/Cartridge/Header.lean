import DotMatrix.Bits
import DotMatrix.Cartridge.Checksum
import DotMatrix.Cartridge.Kind
import DotMatrix.Text.Utf8

namespace DotMatrix

structure Header where
  entryPoint : Vector UInt8 4
  logo : Vector UInt8 48
  title : String
  manufacturerCode : Vector UInt8 4
  cgbFlag : UInt8
  newLicenseeCode : Vector UInt8 2
  sgbFlag : UInt8
  cartridgeType : UInt8
  romSize : UInt8
  ramSize : UInt8
  destinationCode : UInt8
  oldLicenseeCode : UInt8
  version : UInt8
  /-- The header checksum and, in the low byte, the first byte of the global one. -/
  headerChecksum : UInt16
  globalChecksum : UInt16
  deriving DecidableEq

namespace Header

def bootLogo : Vector UInt8 48 := #v[
  0xCE, 0xED, 0x66, 0x66, 0xCC, 0x0D, 0x00, 0x0B, 0x03, 0x73, 0x00, 0x83, 0x00, 0x0C, 0x00, 0x0D,
  0x00, 0x08, 0x11, 0x1F, 0x88, 0x89, 0x00, 0x0E, 0xDC, 0xCC, 0x6E, 0xE6, 0xDD, 0xDD, 0xD9, 0x99,
  0xBB, 0xBB, 0x67, 0x63, 0x6E, 0x0E, 0xEC, 0xCC, 0xDD, 0xDC, 0x99, 0x9F, 0xBB, 0xB9, 0x33, 0x3E]

def blank : Header where
  entryPoint := .replicate 4 0
  logo := .replicate 48 0
  title := ""
  manufacturerCode := .replicate 4 0
  cgbFlag := 0
  newLicenseeCode := .replicate 2 0
  sgbFlag := 0
  cartridgeType := 0
  romSize := 0
  ramSize := 0
  destinationCode := 0
  oldLicenseeCode := 0
  version := 0
  headerChecksum := 0
  globalChecksum := 0

def isPadding (b : UInt8) : Bool := b == 0 || b == 0x20

def trimTitle (bytes : List UInt8) : List UInt8 := (bytes.reverse.dropWhile isPadding).reverse

def titleLength : Nat := 11

section

variable (image : Image) (h : Image.headerEnd ≤ image.size)

def field (addr length : Nat) (inside : addr + length ≤ Image.headerEnd) : Vector UInt8 length :=
  .ofFn fun i => image[addr + i]

def byte (addr : Nat) (inside : addr < Image.headerEnd) : UInt8 := image[addr]

def word (addr : Nat) (inside : addr + 1 < Image.headerEnd) : UInt16 :=
  Word.combine image[addr + 1] image[addr]

end

def ofImage (image : Image) (h : Image.headerEnd ≤ image.size) : Header where
  entryPoint := field image h 0x100 4 (by decide)
  logo := field image h 0x104 48 (by decide)
  title := Utf8.decode (trimTitle (field image h Image.titleAddr titleLength (by decide)).toList)
  manufacturerCode := field image h 0x13F 4 (by decide)
  cgbFlag := byte image h 0x143 (by decide)
  newLicenseeCode := field image h 0x144 2 (by decide)
  sgbFlag := byte image h 0x146 (by decide)
  cartridgeType := byte image h 0x147 (by decide)
  romSize := byte image h 0x148 (by decide)
  ramSize := byte image h 0x149 (by decide)
  destinationCode := byte image h 0x14A (by decide)
  oldLicenseeCode := byte image h 0x14B (by decide)
  version := byte image h 0x14C (by decide)
  headerChecksum := word image h Image.headerChecksumAddr (by decide)
  globalChecksum := word image h Image.globalChecksumAddr (by decide)

def kind (hd : Header) : Kind := .ofCode hd.cartridgeType

def romSizeBytes? (hd : Header) : Option Nat :=
  if hd.romSize ≤ 8 then some ((32 * 1024) <<< hd.romSize.toNat) else none

def ramSizeBytes? (hd : Header) : Option Nat :=
  match hd.ramSize with
  | 0 => some 0
  | 1 => some (2 * 1024)
  | 2 => some (8 * 1024)
  | 3 => some (32 * 1024)
  | 4 => some (128 * 1024)
  | 5 => some (64 * 1024)
  | _ => none

def logoMatches (hd : Header) : Bool := hd.logo == bootLogo

def headerChecksumByte (hd : Header) : UInt8 := Word.high hd.headerChecksum

def headerChecksumOk (hd : Header) (image : Image) : Bool :=
  image.headerChecksum? == some hd.headerChecksumByte

def globalChecksumOk (hd : Header) (image : Image) : Bool :=
  image.globalChecksum? == some hd.globalChecksum

end Header

end DotMatrix
