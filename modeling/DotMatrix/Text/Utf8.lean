/-!
UTF-8 read leniently. The reader goes byte by byte and owes the rest of the character it is in; a
byte that cannot go on with that character closes it with one replacement character and is then read
afresh. So each longest ill-formed piece is replaced by one character.
-/

namespace DotMatrix.Utf8

def replacement : Char := '\uFFFD'

/-- A character under way: its bits so far, how many bytes follow, and the range of the next. -/
structure Unfinished where
  bits : UInt32
  owed : Nat
  low : UInt8
  high : UInt8
  deriving DecidableEq

inductive Lead
  | whole (c : Char)
  | opens (p : Unfinished)
  | invalid

/-- The range of the second byte excludes overlong forms, surrogates and values past the last
character. -/
def lead (b : UInt8) : Lead :=
  if b < 0x80 then .whole (.ofNat b.toNat)
  else if b < 0xC2 then .invalid
  else if b < 0xE0 then .opens ⟨(b &&& 0x1F).toUInt32, 1, 0x80, 0xBF⟩
  else if b < 0xF0 then
    let low := if b = 0xE0 then 0xA0 else 0x80
    let high := if b = 0xED then 0x9F else 0xBF
    .opens ⟨(b &&& 0x0F).toUInt32, 2, low, high⟩
  else if b < 0xF5 then
    let low := if b = 0xF0 then 0x90 else 0x80
    let high := if b = 0xF4 then 0x8F else 0xBF
    .opens ⟨(b &&& 0x07).toUInt32, 3, low, high⟩
  else .invalid

def Unfinished.extend (p : Unfinished) (b : UInt8) : Unfinished :=
  ⟨p.bits <<< 6 ||| (b &&& 0x3F).toUInt32, p.owed - 1, 0x80, 0xBF⟩

def start (b : UInt8) : List Char × Option Unfinished :=
  match lead b with
  | .whole c => ([c], none)
  | .opens p => ([], some p)
  | .invalid => ([replacement], none)

def step : Option Unfinished → UInt8 → List Char × Option Unfinished
  | none, b => start b
  | some p, b =>
    if p.low ≤ b ∧ b ≤ p.high then
      let q := p.extend b
      if q.owed = 0 then ([.ofNat q.bits.toNat], none) else ([], some q)
    else
      let (chars, under) := start b
      (replacement :: chars, under)

def decodeFrom : Option Unfinished → List UInt8 → List Char
  | none, [] => []
  | some _, [] => [replacement]
  | under, b :: rest =>
    let (chars, under) := step under b
    chars ++ decodeFrom under rest

def decode (bytes : List UInt8) : String := .ofList (decodeFrom none bytes)

end DotMatrix.Utf8
