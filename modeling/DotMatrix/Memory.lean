import DotMatrix.Bus.Access

namespace DotMatrix

abbrev memorySize : Nat := 0x10000

structure Memory where
  cells : Vector UInt8 memorySize

namespace Memory

def zero : Memory := ⟨.replicate memorySize 0⟩

def read (m : Memory) (addr : UInt16) : UInt8 :=
  m.cells[addr.toFin]

def write (m : Memory) (addr : UInt16) (value : UInt8) : Memory :=
  ⟨m.cells.set addr.toNat value addr.toNat_lt⟩

def writeAll (m : Memory) (cells : List (UInt16 × UInt8)) : Memory :=
  cells.foldl (fun m (addr, value) => m.write addr value) m

instance : Bus Memory := ⟨read, write⟩

@[simp] theorem read_zero (addr : UInt16) : zero.read addr = 0 := by
  simp [read, zero]

@[simp] theorem read_write_self (m : Memory) (addr : UInt16) (value : UInt8) :
    (m.write addr value).read addr = value := by
  simp [read, write]

theorem read_write (m : Memory) (a b : UInt16) (value : UInt8) :
    (m.write a value).read b = if a = b then value else m.read b := by
  simp [read, write, Vector.getElem_set, UInt16.toNat_inj]

@[simp] theorem bus_read (m : Memory) (addr : UInt16) : Bus.read m addr = m.read addr := rfl

@[simp] theorem bus_write (m : Memory) (addr : UInt16) (value : UInt8) :
    Bus.write m addr value = m.write addr value := rfl

theorem ext_read {m n : Memory} (h : ∀ addr, m.read addr = n.read addr) : m = n := by
  obtain ⟨cells⟩ := m
  obtain ⟨cells'⟩ := n
  congr 1
  apply Vector.ext
  intro i hi
  simpa [read, Nat.mod_eq_of_lt hi] using h (.ofNat i)

end Memory

end DotMatrix
