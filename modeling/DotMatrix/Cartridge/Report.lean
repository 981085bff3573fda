import DotMatrix.Cartridge.Basic
import DotMatrix.Text.Hex

namespace DotMatrix

namespace Report

def labelWidth : Nat := 17

def line (label value : String) : String :=
  let label := label ++ ":"
  label ++ String.ofList (.replicate (labelWidth - label.length) ' ') ++ value ++ "\n"

def hexByte (b : UInt8) : String := "0x" ++ Hex.ofByte b

def size (bytes : Option Nat) (code : UInt8) : String :=
  let amount := match bytes with
    | some n => toString (n / 1024) ++ " KiB"
    | none => "unknown"
  amount ++ " (code " ++ hexByte code ++ ")"

def verdict (ok : Bool) : String := if ok then "ok" else "MISMATCH"

end Report

open Report in
def Cartridge.reportLines (c : Cartridge) : List (String × String) :=
  let hd := c.header
  [("Title", hd.title),
   ("Type", hexByte hd.cartridgeType ++ " (" ++ hd.kind.mapper.name ++ hd.kind.features ++ ")"),
   ("ROM size", size hd.romSizeBytes? hd.romSize),
   ("RAM size", size hd.ramSizeBytes? hd.ramSize),
   ("CGB flag", hexByte hd.cgbFlag),
   ("SGB flag", hexByte hd.sgbFlag),
   ("Destination", if hd.destinationCode = 0 then "Japan" else "Overseas"),
   ("Licensee", hexByte hd.oldLicenseeCode),
   ("Version", toString hd.version.toNat),
   ("Logo", verdict hd.logoMatches),
   ("Header checksum",
    hexByte hd.headerChecksumByte ++ " " ++ verdict (hd.headerChecksumOk c.image)),
   ("Global checksum",
    "0x" ++ Hex.ofWord hd.globalChecksum ++ " " ++ verdict (hd.globalChecksumOk c.image))]

def Cartridge.report (c : Cartridge) : String :=
  String.join (c.reportLines.map fun (label, value) => Report.line label value)

end DotMatrix
