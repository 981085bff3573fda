import DotMatrix.Proofs.Interrupt
import DotMatrix.Proofs.Machine.Calls
import DotMatrix.Proofs.Raster

namespace DotMatrix

namespace Machine

structure InStep (m : Machine) (video : Raster × Recorder) : Prop where
  raster : video.1 = .ofTotal video.2.total
  cycles : m.cpu.cycles = .ofNat video.2.total
  line : m.space.read lineAddr = .ofNat video.1.line

theorem inStep_powerOn (cartridge : Option Cartridge) : InStep (powerOn cartridge) ({}, {}) := by
  refine ⟨rfl, rfl, ?_⟩
  rw [AddressSpace.read_of_stored _ (by decide)]
  change (Memory.zero.writeAll AddressSpace.bootRegisters).read lineAddr = 0
  simp [Memory.writeAll, AddressSpace.bootRegisters, Memory.read_write, lineAddr]

theorem inStep_tick (m : Machine) (video : Raster × Recorder) (h : InStep m video) :
    InStep (m.tick video).2.1 (m.tick video).2.2 := by
  have hafter : (m.cpu.after m.space).cycles = _ := Cpu.cycles_after
  cases ho : m.cpu.outcome m.space with
  | error e =>
    rw [ho] at hafter
    rw [tick_of_error ho]
    exact ⟨h.raster, hafter.trans h.cycles, h.line⟩
  | ok cost =>
    have htotal : Recorder.total ⟨cost :: video.2.cycles⟩ = video.2.total + cost := by
      rw [Recorder.total_cons, Nat.add_comm]
    rw [ho] at hafter
    rw [tick_of_ok ho]
    refine ⟨?_, ?_, ?_⟩
    · change (video.1.tick _ cost).1 = .ofTotal (Recorder.total ⟨cost :: video.2.cycles⟩)
      rw [htotal, h.raster, Raster.tick_ofTotal]
    · change (m.cpu.after m.space).cycles = .ofNat (Recorder.total ⟨cost :: video.2.cycles⟩)
      rw [htotal, hafter, h.cycles, UInt64.ofNat_add]
    · exact (Raster.read_tick video.1 _ cost lineAddr).trans (if_pos rfl)

theorem inStep_calls (cartridge : Option Cartridge) (cs : List Call) :
    InStep (calls cs (powerOn cartridge) (({} : Raster), ({} : Recorder))).1
      (calls cs (powerOn cartridge) (({} : Raster), ({} : Recorder))).2 :=
  calls_invariant inStep_tick cs (inStep_powerOn cartridge)

theorem line_tick (m : Machine) (r : Raster) :
    (m.tick r).2.2.line = r.line ∨ (m.tick r).2.2.line = r.line + 1 := by
  cases ho : m.cpu.outcome m.space with
  | error e =>
    rw [tick_of_error ho]
    exact .inl rfl
  | ok cost =>
    have hcost := (Cpu.bounds_of_mem_costs (Cpu.mem_costs_of_outcome ho)).2
    rw [tick_of_ok ho]
    exact r.line_tick_of_le _ (Nat.le_trans hcost (by decide))

theorem request_of_frames_lt (m : Machine) (r : Raster) (h : r.frames < (m.tick r).2.2.frames) :
    (m.tick r).2.1.space.read Interrupt.requestAddr &&& Interrupt.vblank.mask =
      Interrupt.vblank.mask := by
  cases ho : m.cpu.outcome m.space with
  | error e =>
    rw [tick_of_error ho] at h
    exact absurd h (Nat.lt_irrefl _)
  | ok cost =>
    rw [tick_of_ok ho] at h ⊢
    have hread := r.read_tick (m.cpu.step.run m.space).2 cost Interrupt.requestAddr
    rw [if_neg (by decide), if_pos ⟨rfl, h⟩] at hread
    exact (congrArg (· &&& Interrupt.vblank.mask) hread).trans (Interrupt.or_mask_and_mask _ _)

variable (cartridge : Option Cartridge) (cs : List Call)

theorem raster_calls :
    (calls cs (powerOn cartridge) ({} : Raster)).2 =
      .ofTotal (spent cs (powerOn cartridge) ({} : Raster)) := by
  rw [calls_eq_recorded]
  exact (inStep_calls cartridge cs).raster

theorem toNat_cycles_calls (h : spent cs (powerOn cartridge) ({} : Raster) < UInt64.size) :
    (calls cs (powerOn cartridge) ({} : Raster)).1.cpu.cycles.toNat =
      spent cs (powerOn cartridge) ({} : Raster) := by
  rw [calls_eq_recorded]
  refine (congrArg UInt64.toNat (inStep_calls cartridge cs).cycles).trans ?_
  exact UInt64.toNat_ofNat_of_lt h

theorem toNat_read_lineAddr_calls :
    ((calls cs (powerOn cartridge) ({} : Raster)).1.space.read lineAddr).toNat =
      (calls cs (powerOn cartridge) ({} : Raster)).2.line := by
  rw [calls_eq_recorded]
  refine (congrArg UInt8.toNat (inStep_calls cartridge cs).line).trans ?_
  exact UInt8.toNat_ofNat_of_lt (Nat.lt_trans (Fin.isLt _) (by decide))

/-- After any calls on a fresh machine with a fresh raster, the cycles spent tell where the raster
stands, and the line register shows its line. In one tick the raster never passes over a line, and
it begins no vertical blank without a request. -/
theorem raster_in_step :
    (∀ (cartridge : Option Cartridge) (cs : List Call),
      spent cs (powerOn cartridge) ({} : Raster) < UInt64.size →
      let m := (calls cs (powerOn cartridge) ({} : Raster)).1
      let r := (calls cs (powerOn cartridge) ({} : Raster)).2
      let total := m.cpu.cycles.toNat
      r.lineCycles = total % 456 ∧ r.line = total / 456 % 154 ∧
        r.frames = (total / 456 + 10) / 154 ∧ (m.space.read 0xFF44).toNat = r.line) ∧
    ∀ (m : Machine) (r : Raster),
      ((m.tick r).2.2.line = r.line ∨ (m.tick r).2.2.line = r.line + 1) ∧
      (r.frames < (m.tick r).2.2.frames →
        (m.tick r).2.1.space.read Interrupt.requestAddr &&& Interrupt.vblank.mask =
          Interrupt.vblank.mask) := by
  constructor
  · intro cartridge cs h m r total
    have htotal : total = spent cs (powerOn cartridge) ({} : Raster) :=
      toNat_cycles_calls cartridge cs h
    have hr : r = .ofTotal total := (raster_calls cartridge cs).trans (congrArg _ htotal.symm)
    refine ⟨?_, ?_, ?_, toNat_read_lineAddr_calls cartridge cs⟩
    · rw [hr]
      rfl
    · rw [hr]
      rfl
    · rw [hr]
      rfl
  · exact fun m r => ⟨line_tick m r, request_of_frames_lt m r⟩

theorem raster_in_step_of_restarts :
    let m := (calls [.tick, .tick] (powerOn none) ({} : Raster)).1
    let r := (calls [.tick, .tick] (powerOn none) ({} : Raster)).2
    let total := m.cpu.cycles.toNat
    (spent [.tick, .tick] (powerOn none) ({} : Raster) = 32 ∧
      r.lineCycles = total % 456 ∧ r.line = total / 456 % 154 ∧
        r.frames = (total / 456 + 10) / 154 ∧ (m.space.read 0xFF44).toNat = r.line) ∧
    ((powerOn none).tick ({ lineCycles := 440, line := 143 } : Raster)).2.1.space.read
        Interrupt.requestAddr &&& Interrupt.vblank.mask = Interrupt.vblank.mask := by
  obtain ⟨hcalls, htick⟩ := raster_in_step
  have hspent : spent [.tick, .tick] (powerOn none) ({} : Raster) = 32 := by decide +kernel
  have hframes : (0 : Nat) <
      ((powerOn none).tick ({ lineCycles := 440, line := 143 } : Raster)).2.2.frames := by
    decide +kernel
  refine ⟨⟨hspent, hcalls none [.tick, .tick] ?_⟩, (htick (powerOn none) _).2 hframes⟩
  rw [hspent]
  decide

end Machine

end DotMatrix
