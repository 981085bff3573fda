import DotMatrix.Bus.Monitor
import DotMatrix.Instruction.Mnemonic
import DotMatrix.Main
import DotMatrix.Proofs.Cartridge.Checksum
import DotMatrix.Proofs.Cartridge.Corruption
import DotMatrix.Proofs.Cartridge.Fields
import DotMatrix.Proofs.Cartridge.Report
import DotMatrix.Proofs.Cartridge.Seal
import DotMatrix.Proofs.Cartridge.Title
import DotMatrix.Proofs.Cartridge.Verdict
import DotMatrix.Proofs.Cpu.ControlTransfer
import DotMatrix.Proofs.Cpu.DecimalArithmetic
import DotMatrix.Proofs.Cpu.Dispatch
import DotMatrix.Proofs.Cpu.Extended
import DotMatrix.Proofs.Cpu.Flags
import DotMatrix.Proofs.Cpu.Footprint
import DotMatrix.Proofs.Cpu.HaltBug
import DotMatrix.Proofs.Cpu.Hang
import DotMatrix.Proofs.Cpu.InterruptEnable
import DotMatrix.Proofs.Cpu.Loads
import DotMatrix.Proofs.Cpu.LongArithmetic
import DotMatrix.Proofs.Cpu.ReturnAddress
import DotMatrix.Proofs.Cpu.Service
import DotMatrix.Proofs.Cpu.Stack
import DotMatrix.Proofs.Cpu.Timing
import DotMatrix.Proofs.Cpu.WordArithmetic
import DotMatrix.Proofs.FlatMemory
import DotMatrix.Proofs.Machine.Cartridge
import DotMatrix.Proofs.Machine.Frame
import DotMatrix.Proofs.Machine.FrameLength
import DotMatrix.Proofs.Machine.Lockstep
import DotMatrix.Proofs.Machine.Repeats
import DotMatrix.Proofs.Machine.Sleep
import DotMatrix.Proofs.Mirror
import DotMatrix.Proofs.Raster.Time
import DotMatrix.Proofs.Session.Budget
import DotMatrix.Proofs.Session.Dump
import DotMatrix.Proofs.Text.Hex
import DotMatrix.Proofs.Text.Lines
import DotMatrix.Proofs.Text.Utf8
import DotMatrix.Proofs.Text.Utf8.Lossy
