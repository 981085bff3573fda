import DotMatrix.Proofs.Machine.Cartridge
import DotMatrix.Proofs.Machine.Frame
import DotMatrix.Proofs.Machine.Lockstep

namespace DotMatrix.Machine

variable {ν : Type} [Video ν] {m m' : Machine} {video video' : ν} {costs lengths : List Nat}
  {elapsed cost : Nat} {e : IllegalOpcode} {result : Cpu.Outcome × Machine × ν}

theorem cycles_tick (m : Machine) (video : ν) :
    (m.tick video).2.1.cpu.cycles =
      match (m.tick video).1 with
      | .ok cost => m.cpu.cycles + .ofNat cost
      | .error _ => m.cpu.cycles := by
  rw [cpu_tick, fst_tick]
  exact Cpu.cycles_after

theorem Repeats.cycles (h : Repeats .tick m video costs m' video') :
    m'.cpu.cycles = m.cpu.cycles + .ofNat costs.sum := by
  induction h with
  | nil => exact (UInt64.add_zero _).symm
  | @cons m m' _ video video' _ cost costs hc _ ih =>
    have hcycles := cycles_tick m video
    rw [show m.tick video = (.ok cost, m', video') from hc] at hcycles
    rw [ih, hcycles, List.sum_cons, UInt64.ofNat_add, UInt64.add_assoc]

theorem Fails.cycles (h : Fails .tick m video costs e m' video') :
    m'.cpu.cycles = m.cpu.cycles + .ofNat costs.sum := by
  obtain ⟨m₁, video₁, hr, herror⟩ := h
  have hcycles := cycles_tick m₁ video₁
  rw [show m₁.tick video₁ = (.error e, m', video') from herror] at hcycles
  rw [← hr.cycles]
  exact hcycles

theorem Repeats.four_mul_length_le (h : Repeats .tick m video costs m' video') :
    4 * costs.length ≤ costs.sum := by
  induction h with
  | nil => exact Nat.le_refl 0
  | cons hc _ ih =>
    have hcost := (Cpu.bounds_of_mem_costs (mem_costs_of_tick hc)).1
    rw [List.length_cons, List.sum_cons]
    omega

theorem dvd_of_mem_costs (h : cost ∈ Cpu.costs) : 4 ∣ cost := by
  revert cost
  decide

theorem Fills.sum_le (h : Fills elapsed m video costs result) (hdvd : 4 ∣ elapsed)
    (hle : elapsed ≤ cyclesPerFrame + 20) :
    elapsed + costs.sum ≤ cyclesPerFrame + 20 ∧ 4 ∣ elapsed + costs.sum := by
  induction h with
  | full _ => exact ⟨hle, hdvd⟩
  | failed _ _ => exact ⟨hle, hdvd⟩
  | @ticked elapsed cost _ _ _ _ _ _ hlt ht _ ih =>
    have hmem := mem_costs_of_tick ht
    have hcost := (Cpu.bounds_of_mem_costs hmem).2
    have hdvd' : 4 ∣ elapsed + cost := Nat.dvd_add hdvd (dvd_of_mem_costs hmem)
    rw [List.sum_cons, ← Nat.add_assoc]
    refine ih hdvd' ?_
    simp only [cyclesPerFrame, cyclesPerLine, linesPerFrame] at *
    omega

theorem Fills.map {μ : Type} [Video μ] {f : ν → μ} (hf : Video.Simulates f)
    (h : Fills elapsed m video costs result) :
    Fills elapsed m (f video) costs (result.1, result.2.1, f result.2.2) := by
  induction h with
  | full hle => exact .full hle
  | failed hlt ht => exact .failed hlt (by rw [tick_map hf, ht])
  | ticked hlt ht _ ih => exact .ticked hlt (by rw [tick_map hf, ht]) ih

theorem fills_forwarded (m : Machine) (video : ν) :
    (forwarded [.frame] m video).length ≤ ticksPerFrame ∧
      Fills 0 m video (forwarded [.frame] m video) (m.stepFrame video) := by
  obtain ⟨costs, hlength, hfills⟩ := fills_stepFrame m (video, ({} : Recorder))
  have hcosts : forwarded [.frame] m video = costs := by
    have hcalls : forwarded [.frame] m video =
        (m.stepFrame (video, ({} : Recorder))).2.2.2.cycles.reverse := rfl
    rcases hfills.ended with ⟨_, _, hr, hresult, -⟩ | ⟨_, _, _, hf, hresult, -⟩
    · rw [hcalls, hresult, hr.cycles_recorded]
      simp
    · rw [hcalls, hresult, hf.cycles_recorded]
      simp
  have hmap : m.stepFrame video = _ :=
    fillFrame_map Video.simulates_fst ticksPerFrame 0 m (video, ({} : Recorder))
  rw [hcosts, hmap]
  exact ⟨hlength, hfills.map Video.simulates_fst⟩

theorem Fills.cycles (h : Fills elapsed m video costs result) :
    result.2.1.cpu.cycles = m.cpu.cycles + .ofNat costs.sum := by
  rcases h.ended with ⟨m', video', hr, rfl, -⟩ | ⟨e, m', video', hf, rfl, -⟩
  · exact hr.cycles
  · exact hf.cycles

theorem bounds_of_stepFrame (h : m.stepFrame video = (.ok cost, m', video')) :
    70224 ≤ cost ∧ cost ≤ 70244 ∧ 4 ∣ cost := by
  obtain ⟨costs, -, hfills⟩ := fills_stepFrame m video
  obtain ⟨hle, hdvd⟩ := hfills.sum_le (Nat.dvd_zero 4) (Nat.zero_le _)
  rw [h] at hfills
  obtain ⟨-, rfl, hfull⟩ := hfills.repeats_of_ok
  exact ⟨hfull, hle, hdvd⟩

theorem Fills.length_lt_of_error (h : Fills 0 m video costs (.error e, m', video')) :
    costs.length < ticksPerFrame := by
  obtain ⟨⟨m₁, video₁, hr, -⟩, hlt⟩ := h.fails_of_error
  have hcount : 4 * costs.length ≤ costs.sum := hr.four_mul_length_le
  simp only [ticksPerFrame, cyclesPerFrame, cyclesPerLine, linesPerFrame] at *
  omega

theorem Repeats.sum_bounds (h : Repeats .frame m video lengths m' video') :
    70224 * lengths.length ≤ lengths.sum ∧ lengths.sum ≤ 70244 * lengths.length := by
  induction h with
  | nil => exact ⟨Nat.le_refl 0, Nat.le_refl 0⟩
  | cons hc _ ih =>
    obtain ⟨hlow, hhigh, -⟩ := bounds_of_stepFrame hc
    rw [List.length_cons, List.sum_cons]
    omega

theorem Repeats.cycles_of_frames (h : Repeats .frame m video lengths m' video') :
    m'.cpu.cycles = m.cpu.cycles + .ofNat lengths.sum := by
  obtain ⟨hticks, hsum⟩ := h.forwarded_frames
  rw [hticks.cycles, hsum]

theorem Repeats.raster_of_frames {cartridge : Option Cartridge} {r : Raster}
    (h : Repeats .frame (powerOn cartridge) ({} : Raster) lengths m r) :
    r = .ofTotal lengths.sum := by
  have hraster := raster_calls cartridge (List.replicate lengths.length .frame)
  rw [h.calls_eq, ← sum_forwarded, h.forwarded_frames.2] at hraster
  exact hraster

structure Restarting (m : Machine) : Prop where
  no_cartridge : m.cartridge = none
  pc_lt : m.cpu.regs.pc < 0x8000
  latches : m.cpu.latches = Cpu.powerOn.latches

theorem Restarting.activity (h : m.Restarting) :
    m.cpu.activity m.space = .execute (.rst 0x38) := by
  obtain ⟨hcartridge, hpc, hlatches⟩ := h
  have hread : m.space.read m.cpu.regs.pc = 0xFF := by
    rw [m.space.read_of_lt hpc, show m.space.cartridge = none from hcartridge]
    rfl
  refine Cpu.activity_eq_execute_iff.2 ⟨Cpu.fetches_of_latches hlatches, ?_⟩
  rw [AddressSpace.bus_read, hread]
  rfl

theorem Restarting.tick (h : m.Restarting) (r : Raster) :
    (m.tick r).1 = .ok 16 ∧ (m.tick r).2.1.Restarting := by
  have ha := h.activity
  refine ⟨?_, (cartridge_tick Raster.storesOnly m r).trans h.no_cartridge, ?_, ?_⟩
  · rw [fst_tick, Cpu.outcome, Cpu.run_step_of_execute ha]
    rfl
  · have hpc : (m.tick r).2.1.cpu.regs.pc = 0x0038 := by
      rw [cpu_tick, Cpu.regs_after_of_execute ha]
      rfl
    rw [hpc]
    decide
  · rw [cpu_tick, Cpu.latches_after, ha, h.latches]
    rfl

theorem Restarting.repeats {r r' : Raster} (h : Repeats .tick m r costs m' r')
    (hm : m.Restarting) : m'.Restarting := by
  induction h with
  | nil => exact hm
  | @cons m m' _ r r' _ cost costs hc _ ih =>
    refine ih ?_
    rw [show m' = (m.tick r).2.1 from congrArg (·.2.1) hc.symm]
    exact (hm.tick r).2

theorem Restarting.stepFrame (h : m.Restarting) (r : Raster) :
    ∃ e m' r', m.stepFrame r = (.ok e, m', r') := by
  rcases hframe : m.stepFrame r with ⟨error | e, m', r'⟩
  · obtain ⟨costs, ⟨m₁, r₁, hr, herror⟩, -⟩ := exists_ticks_of_error hframe
    have htick := (Restarting.repeats hr h).tick r₁
    rw [show m₁.tick r₁ = (.error error, m', r') from herror] at htick
    simp at htick
  · exact ⟨e, m', r', rfl⟩

theorem restarting_powerOn : (powerOn none).Restarting := ⟨rfl, by decide, rfl⟩

def hung : Machine :=
  { powerOn none with cpu := { Cpu.powerOn with locked := some ⟨0xD3, 0x0100, 0⟩ } }

/-- A frame ends with its first failing tick or with the tick that fills it, and so after no more
than 17556 ticks. It overshoots by at most twenty cycles, and the device is told of every cycle. On
a fresh machine each frame then brings its vertical blank, and no other begins until the overshoot
has added up to the lines that come before one. -/
theorem frames_keep_time :
    (∀ (ν : Type) [Video ν] (m : Machine) (video : ν),
      let costs := forwarded [.frame] m video
      let result := m.stepFrame video
      Fills 0 m video costs result ∧
        result.2.1.cpu.cycles = m.cpu.cycles + .ofNat costs.sum ∧
        (∀ e, result.1 = .ok e →
          costs.length ≤ 17556 ∧ e = costs.sum ∧ 70224 ≤ e ∧ e ≤ 70244 ∧ 4 ∣ e) ∧
        ∀ e, result.1 = .error e → costs.length + 1 ≤ 17556) ∧
    ∀ (cartridge : Option Cartridge) (lengths : List Nat) (m : Machine) (r : Raster),
      Repeats .frame (powerOn cartridge) ({} : Raster) lengths m r →
        let n := lengths.length
        let total := lengths.sum
        70224 * n ≤ total ∧ total ≤ 70244 * n ∧ m.cpu.cycles = .ofNat total ∧ n ≤ r.frames ∧
          (20 * n < 65664 → r.frames = n) := by
  constructor
  · intro ν _ m video costs result
    obtain ⟨hlength, hfills⟩ := fills_forwarded m video
    refine ⟨hfills, hfills.cycles, fun e he => ?_, fun e he => ?_⟩
    · have hok : m.stepFrame video = (.ok e, result.2.1, result.2.2) := Prod.ext he rfl
      rw [hok] at hfills
      obtain ⟨-, hsum, -⟩ := hfills.repeats_of_ok
      exact ⟨hlength, hsum.trans (Nat.zero_add _), bounds_of_stepFrame hok⟩
    · have herror : m.stepFrame video = (.error e, result.2.1, result.2.2) := Prod.ext he rfl
      rw [herror] at hfills
      exact hfills.length_lt_of_error
  · intro cartridge lengths m r h n total
    obtain ⟨hlow, hhigh⟩ := h.sum_bounds
    have hframes : r.frames = (total / 456 + 10) / 154 := by
      rw [h.raster_of_frames]
      rfl
    refine ⟨hlow, hhigh, ?_, ?_, ?_⟩
    · rw [h.cycles_of_frames]
      exact UInt64.zero_add _
    · rw [hframes]
      omega
    · rw [hframes]
      omega

theorem frames_keep_time_of_restarts :
    (∃ e m r, Repeats .frame (powerOn none) ({} : Raster) [e] m r ∧
      70224 ≤ e ∧ e ≤ 70244 ∧ m.cpu.cycles = .ofNat e ∧ r.frames = 1 ∧
        (forwarded [.frame] (powerOn none) ({} : Raster)).length ≤ 17556) ∧
    (forwarded [.frame] hung ({} : Raster)).length + 1 ≤ 17556 := by
  obtain ⟨hone, hmany⟩ := frames_keep_time
  obtain ⟨e, m, r, hframe⟩ := restarting_powerOn.stepFrame {}
  obtain ⟨-, -, hok, -⟩ := hone Raster (powerOn none) {}
  obtain ⟨-, -, -, herror⟩ := hone Raster hung {}
  have hrepeats : Repeats .frame (powerOn none) ({} : Raster) [e] m r := .cons hframe .nil
  obtain ⟨hlow, hhigh, hcycles, -, hframes⟩ := hmany none [e] m r hrepeats
  have hblank : r.frames = 1 := hframes (show 20 * 1 < 65664 by decide)
  refine ⟨⟨e, m, r, hrepeats, hlow, hhigh, hcycles, hblank, ?_⟩, ?_⟩
  · exact (hok e (congrArg Prod.fst hframe)).1
  · exact herror _ (congrArg Prod.fst (stepFrame_of_locked rfl ({} : Raster)))

end DotMatrix.Machine
