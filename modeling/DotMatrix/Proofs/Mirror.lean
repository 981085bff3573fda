import DotMatrix.Proofs.AddressSpace

namespace DotMatrix

theorem Cartridge.exists_read? (c : Cartridge) {addr : UInt16} (h : addr < 0x8000) :
    ∃ value, c.read? addr = some value := by
  have hlt : addr.toNat < c.image.size := Nat.lt_of_lt_of_le h c.window_le
  exact ⟨c.image[addr.toNat], Array.getElem?_eq_getElem hlt⟩

inductive Store
  | write (addr : UInt16) (value : UInt8)
  | request (i : Interrupt)

def Store.cell (s : AddressSpace) : Store → UInt16 × UInt8
  | write addr value => (addr, value)
  | request i => (0xFF0F, s.read 0xFF0F ||| i.mask)

namespace AddressSpace

def store (s : AddressSpace) : Store → AddressSpace
  | .write addr value => s.write addr value
  | .request i => s.request i

def storeAll (s : AddressSpace) (stores : List Store) : AddressSpace := stores.foldl store s

def written (s : AddressSpace) : List Store → List (UInt16 × UInt8)
  | [] => []
  | x :: xs => x.cell s :: (s.store x).written xs

def Reaches (a b : UInt16) : Prop := Stored a ∧ canonical a = canonical b

instance (b : UInt16) : DecidablePred (Reaches · b) := fun _ => inferInstanceAs (Decidable (_ ∧ _))

theorem store_eq_write (s : AddressSpace) (x : Store) :
    s.store x = s.write (x.cell s).1 (x.cell s).2 := by
  cases x with
  | write addr value => rfl
  | request i => rfl

theorem storeAll_eq_writeAll (stores : List Store) (s : AddressSpace) :
    s.storeAll stores = Bus.writeAll s (s.written stores) := by
  induction stores generalizing s with
  | nil => rfl
  | cons x xs ih =>
    calc
      s.storeAll (x :: xs) = Bus.writeAll (s.store x) ((s.store x).written xs) := ih _
      _ = Bus.writeAll (s.write (x.cell s).1 (x.cell s).2) ((s.store x).written xs) :=
        congrArg (Bus.writeAll · _) (s.store_eq_write x)

theorem storeAll_append (s : AddressSpace) (xs ys : List Store) :
    s.storeAll (xs ++ ys) = (s.storeAll xs).storeAll ys :=
  List.foldl_append

theorem cartridge_storeAll (s : AddressSpace) (stores : List Store) :
    (s.storeAll stores).cartridge = s.cartridge := by
  rw [storeAll_eq_writeAll]
  exact cartridge_writeAll _ s

theorem read_storeAll (s : AddressSpace) (stores : List Store) (b : UInt16) :
    (s.storeAll stores).read b =
      (Bus.lastValue (Reaches · b) (s.written stores)).getD (s.read b) := by
  rw [storeAll_eq_writeAll]
  exact Bus.read_writeAll (fun s a value => s.read_write a b value) (s.written stores) s

theorem read_storeAll_of_not_stored (s : AddressSpace) (stores : List Store) {b : UInt16}
    (h : ¬ Stored b) : (s.storeAll stores).read b = s.read b := by
  have hreach (a : UInt16) : ¬ Reaches a b := fun ⟨ha, hab⟩ => h (stored_of_canonical_eq ha hab)
  rw [read_storeAll, Bus.lastValue_eq_none hreach]
  rfl

theorem read_of_lt (s : AddressSpace) {b : UInt16} (h : b < 0x8000) :
    s.read b = (s.cartridge.bind (·.read? b)).getD openBus := by
  simp [read, Region.ofAddr, h]

theorem read_of_cartridgeRam (s : AddressSpace) {b : UInt16} (hl : 0xA000 ≤ b) (hu : b ≤ 0xBFFF) :
    s.read b = openBus := by
  have hregion : Region.ofAddr b = .cartridgeRam := by grind [Region.ofAddr]
  cases h : s.cartridge <;> simp [read, hregion, h, Cartridge.readRam]

/-- After any stores an address of the cartridge's window reads as the byte of the image, which is
there, its memory reads as nothing, and all else as what was last stored. -/
theorem read_last_stored (s : AddressSpace) (stores : List Store) (b : UInt16) :
    (b < 0x8000 →
      (∀ c, s.cartridge = some c → c.image[b.toNat]? = some ((s.storeAll stores).read b)) ∧
        (s.cartridge = none → (s.storeAll stores).read b = 0xFF)) ∧
    (0xA000 ≤ b → b ≤ 0xBFFF → (s.storeAll stores).read b = 0xFF) ∧
    (¬ b < 0x8000 → ¬ (0xA000 ≤ b ∧ b ≤ 0xBFFF) →
      (s.storeAll stores).read b =
        (Bus.lastValue (Reaches · b) (s.written stores)).getD (s.read b)) := by
  refine ⟨fun hb => ?_, fun hl hu => ?_, fun _ _ => s.read_storeAll stores b⟩
  -- Nothing is stored in either range, so both read as they did at first.
  · have hstored : ¬ Stored b := fun h => UInt16.not_le.2 hb h.1
    rw [s.read_storeAll_of_not_stored stores hstored, s.read_of_lt hb]
    refine ⟨fun c hc => ?_, fun hc => by rw [hc]; rfl⟩
    obtain ⟨value, hvalue⟩ := c.exists_read? hb
    rw [hc, Option.bind_some, hvalue]
    exact hvalue
  · have hstored : ¬ Stored b := fun h => h.2 ⟨hl, hu⟩
    rw [s.read_storeAll_of_not_stored stores hstored, s.read_of_cartridgeRam hl hu]
    rfl

theorem read_last_stored_at_image :
    let s := powerOn (some .empty)
    let stores := [.write 0xC010 0x12, .write 0xE010 0x34, .write 0x0150 0x56, .request .timer]
    (s.storeAll stores).read 0xC010 = 0x34 ∧ (s.storeAll stores).read 0xA000 = 0xFF ∧
      Cartridge.empty.image[0x0150]? = some ((s.storeAll stores).read 0x0150) ∧
      ((powerOn none).storeAll stores).read 0x0150 = 0xFF := by
  intro s stores
  obtain ⟨-, -, hlast⟩ := read_last_stored s stores 0xC010
  obtain ⟨-, hram, -⟩ := read_last_stored s stores 0xA000
  obtain ⟨hrom, -, -⟩ := read_last_stored s stores 0x0150
  obtain ⟨hnone, -, -⟩ := read_last_stored (powerOn none) stores 0x0150
  have hvalue : Bus.lastValue (Reaches · 0xC010) (s.written stores) = some 0x34 := by
    decide +kernel
  refine ⟨?_, hram (by decide) (by decide), (hrom (by decide)).1 .empty rfl,
    (hnone (by decide)).2 rfl⟩
  rw [hlast (by decide) (by decide), hvalue]
  rfl

end AddressSpace

end DotMatrix
