import DotMatrix.Cartridge.Report
import DotMatrix.FileTree
import DotMatrix.Machine

namespace DotMatrix

namespace Session

def defaultFrames : Nat := 60

/-- A budget of steps wins over the budget of frames. -/
structure Config where
  path : String
  frames : Nat := defaultFrames
  steps : Option Nat := none
  dumpCpu : Bool := false
  deriving DecidableEq

structure Result where
  title : String
  frames : Nat
  cycles : UInt64
  regs : Registers
  ime : Bool
  halted : Bool
  deriving DecidableEq

inductive Error
  | unreadable (path : String) (cause : FileError)
  | badCartridge (path : String) (cause : Cartridge.LoadError)
  | stoppedAtStep (step : Nat) (cause : IllegalOpcode)
  | stoppedInFrame (frame : Nat) (cause : IllegalOpcode)
  deriving DecidableEq

def Error.message : Error → String
  | unreadable path cause => "Failed to read ROM file '" ++ path ++ "': " ++ cause.message
  | badCartridge path cause => "Failed to load cartridge '" ++ path ++ "': " ++ cause.message
  | stoppedAtStep step cause => "CPU stopped at step " ++ toString step ++ ": " ++ cause.message
  | stoppedInFrame frame cause =>
    "CPU stopped during frame " ++ toString frame ++ ": " ++ cause.message

def Result.capture (m : Machine) (raster : Raster) : Result where
  title := (m.cartridge.map (·.title)).getD ""
  frames := raster.frames
  cycles := m.cpu.cycles
  regs := m.cpu.regs
  ime := m.cpu.ime
  halted := m.cpu.halted

def flagLetters (f : Flags) : String :=
  .ofList [if f.z then 'Z' else '-', if f.n then 'N' else '-', if f.h then 'H' else '-',
    if f.c then 'C' else '-']

def boolDigit (b : Bool) : String := if b then "1" else "0"

def Result.cpuDump (r : Result) : String :=
  let regs := r.regs
  "AF:" ++ Hex.ofWord regs.af ++ " BC:" ++ Hex.ofWord regs.bc ++ " DE:" ++ Hex.ofWord regs.de ++
    " HL:" ++ Hex.ofWord regs.hl ++ " SP:" ++ Hex.ofWord regs.sp ++ " PC:" ++ Hex.ofWord regs.pc ++
    " F:[" ++ flagLetters regs.f ++ "] IME:" ++ boolDigit r.ime ++ " HALT:" ++ boolDigit r.halted ++
    " cycles:" ++ toString r.cycles.toNat

def runSteps : (count : Nat) → (done : Nat) → Machine → Raster → Except Error (Machine × Raster)
  | 0, _, m, raster => .ok (m, raster)
  | count + 1, done, m, raster =>
    match m.tick raster with
    | (.ok _, m, raster) => runSteps count (done + 1) m raster
    | (.error e, _, _) => .error (.stoppedAtStep done e)

def runFrames : (count : Nat) → (done : Nat) → Machine → Raster → Except Error (Machine × Raster)
  | 0, _, m, raster => .ok (m, raster)
  | count + 1, done, m, raster =>
    match m.stepFrame raster with
    | (.ok _, m, raster) => runFrames count (done + 1) m raster
    | (.error e, _, _) => .error (.stoppedInFrame done e)

def spend (m : Machine) (raster : Raster) : Config → Except Error (Machine × Raster)
  | { steps := some count, .. } => runSteps count 0 m raster
  | { steps := none, frames := count, .. } => runFrames count 0 m raster

def runMachine (config : Config) (m : Machine) : Except Error Result := do
  let (m, raster) ← spend m {} config
  return .capture m raster

def loadCartridge (path : String) (contents : Except FileError Image) : Except Error Cartridge :=
  match contents with
  | .error cause => .error (.unreadable path cause)
  | .ok image => (Cartridge.load image).mapError (.badCartridge path)

def run (config : Config) (contents : Except FileError Image) : Except Error Result := do
  let cartridge ← loadCartridge config.path contents
  runMachine config (.powerOn (some cartridge))

def info (path : String) (contents : Except FileError Image) : Except Error String := do
  let cartridge ← loadCartridge path contents
  return cartridge.report

end Session

end DotMatrix
