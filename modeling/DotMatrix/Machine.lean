import DotMatrix.Cpu.Step
import DotMatrix.Raster

namespace DotMatrix

structure Machine where
  cpu : Cpu
  space : AddressSpace

namespace Machine

def powerOn (cartridge : Option Cartridge) : Machine := ⟨.powerOn, .powerOn cartridge⟩

def ofImage (image : Image) : Except Cartridge.LoadError Machine := do
  let cartridge ← Cartridge.load image
  return powerOn (some cartridge)

def cartridge (m : Machine) : Option Cartridge := m.space.cartridge

def reset (m : Machine) : Machine := powerOn m.cartridge

def step (m : Machine) : Cpu.Outcome × Machine :=
  match m with
  | ⟨cpu, space⟩ =>
    let ((outcome, cpu), space) := cpu.step.run space
    (outcome, ⟨cpu, space⟩)

variable {ν : Type} [Video ν]

def tick (m : Machine) (video : ν) : Cpu.Outcome × Machine × ν :=
  match m.step with
  | (.ok cost, ⟨cpu, space⟩) =>
    let (video, space) := Video.tick video space cost
    (.ok cost, ⟨cpu, space⟩, video)
  | (.error e, m) => (.error e, m, video)

def ticksPerFrame : Nat := cyclesPerFrame / 4

def fillFrame : (ticks : Nat) → (elapsed : Nat) → Machine → ν → Cpu.Outcome × Machine × ν
  | 0, elapsed, m, video => (.ok elapsed, m, video)
  | ticks + 1, elapsed, m, video =>
    if elapsed < cyclesPerFrame then
      match m.tick video with
      | (.ok cost, m, video) => fillFrame ticks (elapsed + cost) m video
      | (.error e, m, video) => (.error e, m, video)
    else (.ok elapsed, m, video)

/-- The cycles of a frame, and what the last tick overshot it by. -/
def stepFrame (m : Machine) (video : ν) : Cpu.Outcome × Machine × ν :=
  fillFrame ticksPerFrame 0 m video

end Machine

end DotMatrix
