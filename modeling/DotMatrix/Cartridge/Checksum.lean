namespace DotMatrix

abbrev Image := Array UInt8

namespace Image

def headerEnd : Nat := 0x150

def titleAddr : Nat := 0x134

def headerChecksumAddr : Nat := 0x14D

def globalChecksumAddr : Nat := 0x14E

def headerSum (bytes : Array UInt8) : UInt8 := bytes.foldl (fun sum b => sum - b - 1) 0

def byteSum (bytes : Array UInt8) : UInt16 := bytes.foldl (fun sum b => sum + b.toUInt16) 0

def headerChecksum? (image : Image) : Option UInt8 :=
  if image.size < headerChecksumAddr then none
  else some (headerSum (image.extract titleAddr headerChecksumAddr))

def globalChecksum? (image : Image) : Option UInt16 :=
  if image.size < headerEnd then none
  else some (byteSum (image.extract 0 globalChecksumAddr) + byteSum (image.extract headerEnd))

end Image

end DotMatrix
