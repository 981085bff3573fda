import DotMatrix.Video

/-!
The raster is a video device that draws nothing. It counts lines and frames, publishes the current
line, and requests an interrupt when the last visible line is done.
-/

namespace DotMatrix

def lineAddr : UInt16 := 0xFF44

abbrev cyclesPerLine : Nat := 456

abbrev linesPerFrame : Nat := 154

def vblankLine : Fin linesPerFrame := ⟨144, by decide⟩

def cyclesPerFrame : Nat := cyclesPerLine * linesPerFrame

structure Raster where
  lineCycles : Fin cyclesPerLine := ⟨0, by decide⟩
  line : Fin linesPerFrame := ⟨0, by decide⟩
  frames : Nat := 0
  deriving DecidableEq

namespace Raster

def nextLine (r : Raster) (s : AddressSpace) : Raster × AddressSpace :=
  let line := r.line + 1
  if line = vblankLine then ({ r with line, frames := r.frames + 1 }, s.request .vblank)
  else ({ r with line }, s)

def nextLines : (count : Nat) → Raster → AddressSpace → Raster × AddressSpace
  | 0, r, s => (r, s)
  | count + 1, r, s =>
    let (r, s) := r.nextLine s
    nextLines count r s

def tick (r : Raster) (s : AddressSpace) (cycles : Nat) : Raster × AddressSpace :=
  let total := r.lineCycles + cycles
  let lineCycles := ⟨total % cyclesPerLine, Nat.mod_lt _ (by decide)⟩
  let (r, s) := nextLines (total / cyclesPerLine) { r with lineCycles } s
  (r, s.write lineAddr (.ofNat r.line))

instance : Video Raster := ⟨tick⟩

theorem nextLines_add (m n : Nat) (r : Raster) (s : AddressSpace) :
    nextLines (m + n) r s = nextLines n (nextLines m r s).1 (nextLines m r s).2 := by
  induction m generalizing r s with
  | zero => rw [Nat.zero_add, nextLines]
  | succ m ih =>
    rw [Nat.succ_add]
    exact ih (r.nextLine s).1 (r.nextLine s).2

end Raster

end DotMatrix
