import DotMatrix.Proofs.Machine.Calls
import DotMatrix.Proofs.Mirror
import DotMatrix.Session

namespace DotMatrix

def Video.StoresOnly (ν : Type) [Video ν] : Prop :=
  ∀ (video : ν) (s : AddressSpace) (cycles : Nat),
    ∃ stores, (Video.tick video s cycles).2 = s.storeAll stores

namespace Raster

theorem exists_stores_nextLine (r : Raster) (s : AddressSpace) :
    ∃ stores, (r.nextLine s).2 = s.storeAll stores := by
  unfold nextLine
  by_cases h : r.line + 1 = vblankLine
  · exact ⟨[.request .vblank], by simp [h, AddressSpace.storeAll, AddressSpace.store]⟩
  · exact ⟨[], by simp [h, AddressSpace.storeAll]⟩

theorem exists_stores_nextLines (count : Nat) (r : Raster) (s : AddressSpace) :
    ∃ stores, (nextLines count r s).2 = s.storeAll stores := by
  induction count generalizing r s with
  | zero => exact ⟨[], rfl⟩
  | succ count ih =>
    obtain ⟨first, hfirst⟩ := r.exists_stores_nextLine s
    obtain ⟨rest, hrest⟩ := ih (r.nextLine s).1 (r.nextLine s).2
    refine ⟨first ++ rest, ?_⟩
    rw [s.storeAll_append, ← hfirst, ← hrest]
    rfl

theorem storesOnly : Video.StoresOnly Raster := by
  intro r s cycles
  obtain ⟨lines, hlines⟩ := exists_stores_nextLines ((r.lineCycles + cycles) / cyclesPerLine)
    { r with lineCycles := ⟨(r.lineCycles + cycles) % cyclesPerLine, Nat.mod_lt _ (by decide)⟩ } s
  refine ⟨lines ++ [.write lineAddr (.ofNat (r.tick s cycles).1.line)], ?_⟩
  rw [s.storeAll_append, ← hlines]
  rfl

end Raster

namespace Machine

inductive Action (ν : Type)
  | step
  | tick (video : ν)
  | frame (video : ν)
  | reset
  | store (x : Store)

variable {ν : Type} [Video ν]

def perform (m : Machine) : Action ν → Machine
  | .step => m.step.2
  | .tick video => (m.tick video).2.1
  | .frame video => (m.stepFrame video).2.1
  | .reset => m.reset
  | .store x => { m with space := m.space.store x }

def performAll (m : Machine) (actions : List (Action ν)) : Machine := actions.foldl perform m

theorem cartridge_step (m : Machine) : m.step.2.cartridge = m.cartridge := by
  rw [step_eq, Access.run_snd_eq_writeAll]
  exact AddressSpace.cartridge_writeAll _ m.space

theorem cartridge_tick (hν : Video.StoresOnly ν) (m : Machine) (video : ν) :
    (m.tick video).2.1.cartridge = m.cartridge := by
  cases h : m.cpu.outcome m.space with
  | error e => rw [tick_of_error h]; rfl
  | ok cost =>
    obtain ⟨stores, hstores⟩ := hν video (m.cpu.step.run m.space).2 cost
    calc
      (m.tick video).2.1.cartridge = ((m.cpu.step.run m.space).2.storeAll stores).cartridge := by
        rw [tick_of_ok h, ← hstores]
        rfl
      _ = (m.cpu.step.run m.space).2.cartridge := AddressSpace.cartridge_storeAll _ stores
      _ = m.cartridge := m.cartridge_step

theorem cartridge_perform (hν : Video.StoresOnly ν) (m : Machine) (a : Action ν) :
    (m.perform a).cartridge = m.cartridge := by
  cases a with
  | step => exact m.cartridge_step
  | tick video => exact cartridge_tick hν m video
  | frame video =>
    refine fillFrame_invariant (P := fun m' (_ : ν) => m'.cartridge = m.cartridge) ?_ ticksPerFrame
      0 rfl
    exact fun m' video' h => (cartridge_tick hν m' video').trans h
  | reset => rfl
  | store x => exact AddressSpace.cartridge_storeAll m.space [x]

theorem cartridge_performAll (hν : Video.StoresOnly ν) (actions : List (Action ν)) (m : Machine) :
    (m.performAll actions).cartridge = m.cartridge := by
  induction actions generalizing m with
  | nil => rfl
  | cons a actions ih => exact (ih (m.perform a)).trans (cartridge_perform hν m a)

theorem reset_performAll (hν : Video.StoresOnly ν) (actions : List (Action ν))
    (cartridge : Option Cartridge) :
    ((powerOn cartridge).performAll actions).reset = powerOn cartridge := by
  rw [reset, cartridge_performAll hν]
  rfl

theorem ofImage_of_load {image : Image} {c : Cartridge} (h : Cartridge.load image = .ok c) :
    ofImage image = .ok (powerOn (some c)) := by
  rw [ofImage, h]
  rfl

/-- A machine built from an image keeps the cartridge as loaded, whatever is done to it, and a reset
makes it the machine that was built, from which every run goes the same way again. -/
theorem reset_is_power_cycle (hν : Video.StoresOnly ν) (image : Image)
    (h : Image.headerEnd ≤ image.size) (actions : List (Action ν)) :
    ∃ c fresh, Cartridge.load image = .ok c ∧ ofImage image = .ok fresh ∧
      let m := fresh.performAll actions
      m.cartridge = some c ∧ m.reset = fresh ∧
        ∀ config, Session.spend m.reset {} config = Session.spend fresh {} config := by
  obtain ⟨c, hload⟩ := Cartridge.exists_load h
  refine ⟨c, powerOn (some c), hload, ofImage_of_load hload, ?_⟩
  intro m
  have hreset : m.reset = powerOn (some c) := reset_performAll hν actions (some c)
  refine ⟨cartridge_performAll hν actions _, hreset, fun config => ?_⟩
  rw [hreset]

def hangingImage : Image := (Array.replicate Image.headerEnd 0).setIfInBounds 0x0102 0xFD

theorem headerEnd_le_hangingImage : Image.headerEnd ≤ hangingImage.size := by
  simp [hangingImage]

theorem read?_hangingImage {c : Cartridge} (h : Cartridge.load hangingImage = .ok c) :
    c.read? 0x0100 = some 0x00 ∧ c.read? 0x0101 = some 0x00 ∧ c.read? 0x0102 = some 0xFD := by
  simp [Cartridge.read?, Cartridge.image_of_load h, Cartridge.pad, hangingImage, Image.headerEnd,
    Array.getElem?_append, Array.getElem_replicate]

theorem reset_after_hang :
    ∃ c fresh, Cartridge.load hangingImage = .ok c ∧ ofImage hangingImage = .ok fresh ∧
      let m := fresh.performAll
        [.frame ({} : Raster), .step, .store (.write 0x0102 0x00), .store (.write 0xC000 0x55)]
      m.cartridge = some c ∧ m.reset = fresh := by
  obtain ⟨c, fresh, hload, hfresh, hcartridge, hreset, -⟩ :=
    reset_is_power_cycle Raster.storesOnly hangingImage headerEnd_le_hangingImage
      [.frame ({} : Raster), .step, .store (.write 0x0102 0x00), .store (.write 0xC000 0x55)]
  exact ⟨c, fresh, hload, hfresh, hcartridge, hreset⟩

end Machine

end DotMatrix
