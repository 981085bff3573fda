namespace DotMatrix.Hex

def digit (n : Nat) : Char :=
  if n < 10 then .ofNat ('0'.toNat + n) else .ofNat ('A'.toNat + (n - 10))

def digits : (width : Nat) → Nat → List Char
  | 0, _ => []
  | width + 1, n => digits width (n / 16) ++ [digit (n % 16)]

def ofByte (b : UInt8) : String := .ofList (digits 2 b.toNat)

def ofWord (w : UInt16) : String := .ofList (digits 4 w.toNat)

end DotMatrix.Hex
