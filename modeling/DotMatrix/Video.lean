import DotMatrix.AddressSpace

namespace DotMatrix

class Video (ν : Type) where
  tick : ν → AddressSpace → (cycles : Nat) → ν × AddressSpace

/-- A device that only notes what it is told, latest first. -/
structure Recorder where
  cycles : List Nat := []

instance : Video Recorder := ⟨fun r s cycles => (⟨cycles :: r.cycles⟩, s)⟩

end DotMatrix
