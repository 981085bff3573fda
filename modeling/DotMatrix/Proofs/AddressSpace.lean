import DotMatrix.AddressSpace
import DotMatrix.Proofs.Bus.Writes

namespace DotMatrix

theorem Memory.isCell (addr : UInt16) : Bus.IsCell Memory addr := fun m a value =>
  m.read_write a addr value

theorem Memory.write_write (m : Memory) (addr : UInt16) (x y : UInt8) :
    (m.write addr x).write addr y = m.write addr y := by
  apply Memory.ext_read
  intro b
  simp only [Memory.read_write]
  split <;> rfl

theorem Memory.write_comm (m : Memory) {a b : UInt16} (h : a ≠ b) (x y : UInt8) :
    (m.write a x).write b y = (m.write b y).write a x := by
  apply Memory.ext_read
  intro addr
  simp only [Memory.read_write]
  by_cases ha : a = addr
  · simp [ha, ha ▸ h.symm]
  · simp [ha]

theorem Memory.read_writeAll (m : Memory) (cells : List (UInt16 × UInt8)) (addr : UInt16) :
    (m.writeAll cells).read addr = (Bus.lastValue (· = addr) cells).getD (m.read addr) :=
  Bus.read_writeAll (Memory.isCell addr) cells m

namespace AddressSpace

/-- The address of the cell behind an address. The echo has none of its own. -/
def canonical (addr : UInt16) : UInt16 :=
  if 0xE000 ≤ addr ∧ addr ≤ 0xFDFF then addr - 0x2000 else addr

def Stored (addr : UInt16) : Prop := 0x8000 ≤ addr ∧ ¬ (0xA000 ≤ addr ∧ addr ≤ 0xBFFF)

instance (addr : UInt16) : Decidable (Stored addr) := inferInstanceAs (Decidable (_ ∧ _))

theorem cartridge_of_not_stored {addr : UInt16} (h : ¬ Stored addr) :
    Region.ofAddr addr = .cartridgeRom ∨ Region.ofAddr addr = .cartridgeRam := by
  unfold Stored at h
  grind [Region.ofAddr]

theorem write_of_not_stored (s : AddressSpace) {addr : UInt16} (h : ¬ Stored addr)
    (value : UInt8) : s.write addr value = s := by
  obtain ⟨memory, cartridge⟩ := s
  rcases cartridge_of_not_stored h with hr | hr <;> cases cartridge <;>
    simp [write, hr, Cartridge.write, Cartridge.writeRam]

theorem write_of_stored (s : AddressSpace) {addr : UInt16} (h : Stored addr) (value : UInt8) :
    s.write addr value = { s with memory := s.memory.write (canonical addr) value } := by
  unfold Stored at h
  unfold write canonical Region.ofAddr echoOffset
  grind

theorem read_of_stored (s : AddressSpace) {addr : UInt16} (h : Stored addr) :
    s.read addr = s.memory.read (canonical addr) := by
  unfold Stored at h
  unfold read canonical Region.ofAddr echoOffset
  grind

theorem read_of_not_stored (s : AddressSpace) {addr : UInt16} (h : ¬ Stored addr)
    (memory : Memory) : ({ s with memory } : AddressSpace).read addr = s.read addr := by
  rcases cartridge_of_not_stored h with hr | hr <;> simp [read, hr]

theorem stored_of_canonical_eq {a b : UInt16} (h : Stored a) (he : canonical a = canonical b) :
    Stored b := by
  unfold Stored canonical at *
  grind

theorem read_write (s : AddressSpace) (a b : UInt16) (value : UInt8) :
    (s.write a value).read b =
      if Stored a ∧ canonical a = canonical b then value else s.read b := by
  by_cases ha : Stored a
  · rw [s.write_of_stored ha]
    by_cases hb : Stored b
    · simp [read_of_stored _ hb, Memory.read_write, ha]
    · have hne : canonical a ≠ canonical b := fun he => hb (stored_of_canonical_eq ha he)
      simp [read_of_not_stored s hb, hne]
  · simp [s.write_of_not_stored ha, ha]

theorem write_write (s : AddressSpace) (addr : UInt16) (x y : UInt8) :
    (s.write addr x).write addr y = s.write addr y := by
  by_cases h : Stored addr
  · simp only [write_of_stored _ h, Memory.write_write]
  · simp only [write_of_not_stored _ h]

theorem write_comm (s : AddressSpace) {a b : UInt16} (h : canonical a ≠ canonical b)
    (x y : UInt8) : (s.write a x).write b y = (s.write b y).write a x := by
  by_cases ha : Stored a <;> by_cases hb : Stored b <;>
    simp only [write_of_stored, write_of_not_stored, ha, hb, not_false_eq_true,
      Memory.write_comm _ h]

theorem cartridge_write (s : AddressSpace) (addr : UInt16) (value : UInt8) :
    (s.write addr value).cartridge = s.cartridge := by
  by_cases h : Stored addr
  · rw [s.write_of_stored h]
  · rw [s.write_of_not_stored h]

theorem cartridge_writeAll (cells : List (UInt16 × UInt8)) (s : AddressSpace) :
    (Bus.writeAll s cells).cartridge = s.cartridge := by
  induction cells generalizing s with
  | nil => rfl
  | cons cell cells ih => exact (ih _).trans (s.cartridge_write cell.1 cell.2)

theorem canonical_eq_iff {a addr : UInt16} (h : 0xFE00 ≤ addr) :
    canonical a = canonical addr ↔ a = addr := by
  grind [canonical]

theorem read_write_of_le (s : AddressSpace) {a : UInt16} (h : 0xFE00 ≤ a) (b : UInt16)
    (value : UInt8) : (s.write a value).read b = if b = a then value else s.read b := by
  have ha : Stored a := by
    unfold Stored
    grind
  simp only [read_write, ha, true_and, eq_comm (a := canonical a), canonical_eq_iff h]

theorem isCell {addr : UInt16} (h : 0xFE00 ≤ addr) : Bus.IsCell AddressSpace addr := by
  intro s a value
  have hs : Stored addr := by
    unfold Stored
    grind
  simp only [bus_write, bus_read, read_write, canonical_eq_iff h]
  by_cases he : a = addr <;> simp [he, hs]

theorem request_write (s : AddressSpace) (i : Interrupt) {addr : UInt16} (h : 0xFE00 ≤ addr)
    (hne : addr ≠ Interrupt.requestAddr) (value : UInt8) :
    (s.write addr value).request i = (s.request i).write addr value := by
  have hcanonical : canonical addr ≠ canonical Interrupt.requestAddr :=
    mt (canonical_eq_iff (by decide)).1 hne
  rw [request, request, read_write_of_le s h, if_neg hne.symm, write_comm _ hcanonical]

theorem read_request (s : AddressSpace) (i : Interrupt) (addr : UInt16) :
    (s.request i).read addr =
      if addr = Interrupt.requestAddr then s.read addr ||| i.mask else s.read addr := by
  rw [request, read_write_of_le s (by decide)]
  by_cases h : addr = Interrupt.requestAddr <;> simp [h]

end AddressSpace

end DotMatrix
